import Catalogue.Http.AccessLog
import Catalogue.Main
import Catalogue.Proofs.Apart
import Catalogue.Proofs.Columns
import Catalogue.Proofs.Counters
import Catalogue.Proofs.Discretion
import Catalogue.Proofs.Horizon
import Catalogue.Proofs.Hosts
import Catalogue.Proofs.Inclusion
import Catalogue.Proofs.Members
import Catalogue.Proofs.OverServer
import Catalogue.Proofs.Paging
import Catalogue.Proofs.Parameters
import Catalogue.Proofs.Payload
import Catalogue.Proofs.Precedence
import Catalogue.Proofs.Provenance
import Catalogue.Proofs.Punctuality
import Catalogue.Proofs.Rehearsal
import Catalogue.Proofs.Severity
import Catalogue.Proofs.Transaction
import Catalogue.Proofs.Validation
import Catalogue.Proofs.Wording
import Catalogue.Rehearsal.Step
import Catalogue.Sql.Session
