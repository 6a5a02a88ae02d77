import Catalogue.Fault
import Catalogue.Text.Quoted
import Catalogue.Text.Reader

/-!
# Failures of the database driver

The driver tells what kept a statement from being answered, or what was wrong with an answer. The
store passes that on as a timeout, as a missing product, or as a failure to persist with the
driver's words.
-/

namespace Catalogue.Sql

/-- The types of columns that the store reads. -/
inductive ColumnType where
  | int8
  | text
  deriving DecidableEq, Repr

namespace ColumnType

/-- The name of a type in the database. -/
def name : ColumnType → String
  | .int8 => "INT8"
  | .text => "TEXT"

/-- The name of a type in the driver. -/
def driverName : ColumnType → String
  | .int8 => "i64"
  | .text => "String"

end ColumnType

/-- What is wrong with the value of a column. -/
inductive CellFlaw where
  | null
  | mismatch (expected found : ColumnType)
  deriving DecidableEq, Repr

/-- The wording of a bad value. -/
def CellFlaw.message : CellFlaw → String
  | .null => "unexpected null; try decoding as an `Option`"
  | .mismatch expected found =>
    s!"mismatched types; Rust type `{expected.driverName}` (as SQL type `{expected.name}`) " ++
      s!"is not compatible with SQL type `{found.name}`"

/-- How a message refers to a column: by name or by place. -/
inductive ColumnRef where
  | name (name : String)
  | place (index : Nat)
  deriving DecidableEq, Repr

/-- The wording of a reference. -/
def ColumnRef.text : ColumnRef → String
  | .name column => Text.quote column
  | .place index => s!"{index}"

/-- Failures of the driver. -/
inductive DriverError where
  | rowNotFound
  | poolTimedOut
  | poolClosed
  | workerCrashed
  | protocol (detail : String)
  | database (detail : String) (code : String)
  | io (detail : String)
  | configuration (detail : String)
  | tls (detail : String)
  | decode (detail : String)
  | columnDecode (column : ColumnRef) (flaw : CellFlaw)
  | columnNotFound (name : String)
  | columnOutOfBounds (length index : Nat)
  | typeNotFound (name : String)
  deriving DecidableEq, Repr

namespace DriverError

/-- The wording of a failure. -/
def message : DriverError → String
  | .rowNotFound => "no rows returned by a query that expected to return at least one row"
  | .poolTimedOut => "pool timed out while waiting for an open connection"
  | .poolClosed => "attempted to acquire a connection on a closed pool"
  | .workerCrashed => "attempted to communicate with a crashed background worker"
  | .protocol detail => s!"encountered unexpected or invalid data: {detail}"
  | .database detail _ => s!"error returned from database: {detail}"
  | .io detail => s!"error communicating with database: {detail}"
  | .configuration detail => s!"error with configuration: {detail}"
  | .tls detail => s!"error occurred while attempting to establish a TLS connection: {detail}"
  | .decode detail => s!"error occurred while decoding: {detail}"
  | .columnDecode column flaw =>
    s!"error occurred while decoding column {column.text}: {flaw.message}"
  | .columnNotFound name => s!"no column found for name: {name}"
  | .columnOutOfBounds length index =>
    s!"column index out of bounds: the len is {length}, but the index is {index}"
  | .typeNotFound name => s!"type named {name} not found"

/-- What the server says when it cancels a statement that took too long. -/
def cancellation : List Char := "canceling statement due to user request".toList

/-- Whether the server says that it cancelled the statement. -/
def isCancellation : DriverError → Bool
  | .database detail _ => Text.occursIn cancellation detail.toList
  | _ => false

/-- The store failure of a statement that is not about one product. -/
def toStoreError (error : DriverError) : StoreError :=
  if error = .poolTimedOut ∨ error.isCancellation then .timeout else .persistence error.message

/-- The store failure of a statement about one product: no row means that it is missing. -/
def toStoreErrorOf (id : Int64) (error : DriverError) : StoreError :=
  if error = .rowNotFound then .notFound id else error.toStoreError

end DriverError

end Catalogue.Sql
