import Catalogue.Text.Numeral

/-!
# Faults and outcomes

Each backend has failures of its own. A fault is what an operation makes of one: the backend that
missed a product, or the text of what went wrong. An operation ends with a value, which may have
been served in spite of some faults, or with a failure: the fault that decided it and those before
it.
-/

namespace Catalogue

/-- Failures of the durable store. -/
inductive StoreError where
  | notFound (id : Int64)
  | persistence (message : String)
  | timeout
  deriving DecidableEq, Repr

/-- The wording of a store failure. -/
def StoreError.message : StoreError → String
  | .notFound id => s!"failed to find product {id.toInt} in DB"
  | .persistence message => message
  | .timeout => "database call exceeded its deadline"

/-- Failures of the volatile cache. -/
inductive CacheError where
  | notFound (id : Int64)
  | internal (message : String)
  deriving DecidableEq, Repr

/-- The wording of a cache failure. -/
def CacheError.message : CacheError → String
  | .notFound id => s!"product {id.toInt} not found in cache"
  | .internal message => message

/-- The failure of a cache call that its deadline cut off. -/
def CacheError.elapsed : CacheError := .internal "cache call exceeded its deadline"

/-- The two backends. -/
inductive Backend where
  | store
  | cache
  deriving DecidableEq, Repr

/-- What went wrong during an operation. -/
inductive Fault where
  | notFound (backend : Backend) (detail : String)
  | invalidInput (detail : String)
  | store (detail : String)
  | cache (detail : String)
  | encoding (detail : String)
  deriving DecidableEq, Repr

namespace Fault

/-- The fault without the words that say of which kind it is. -/
def detail : Fault → String
  | .notFound _ detail | .invalidInput detail | .store detail | .cache detail | .encoding detail =>
    detail

/-- The full wording of a fault. -/
def message : Fault → String
  | .notFound _ detail => s!"product not found: {detail}"
  | .invalidInput detail => s!"invalid input: {detail}"
  | .store detail => s!"internal database error: {detail}"
  | .cache detail => s!"internal cache error: {detail}"
  | .encoding detail => s!"service layer error: {detail}"

/-- Whether the fault says that a product is missing. -/
def isNotFound : Fault → Bool
  | .notFound .. => true
  | _ => false

/-- The fault that a store failure makes. -/
def ofStore : StoreError → Fault
  | .notFound id => .notFound .store (StoreError.notFound id).message
  | e => .store e.message

/-- The fault that a cache failure makes. -/
def ofCache : CacheError → Fault
  | .notFound id => .notFound .cache (CacheError.notFound id).message
  | e => .cache e.message

end Fault

/-- The faults of one operation in the order in which they are told: those that did not decide it,
then the one that did, if any. -/
structure FaultReport where
  nonCritical : List Fault
  critical : Option Fault
  deriving DecidableEq, Repr

namespace FaultReport

/-- All faults in order. -/
def faults (report : FaultReport) : List Fault := report.nonCritical ++ report.critical.toList

/-- Whether the operation failed because a product is missing. -/
def isNotFound (report : FaultReport) : Bool := report.critical.any Fault.isNotFound

/-- The wordings of all faults in order. -/
def messages (report : FaultReport) : List String := report.faults.map Fault.message

/-- One fault a line. -/
def text (report : FaultReport) : String :=
  String.join (report.messages.map fun m => m ++ "\n")

end FaultReport

/-- The end of an operation that failed: the fault that decided it, and those before it. -/
structure Failure where
  critical : Fault
  earlier : List Fault := []
  deriving DecidableEq, Repr

/-- All faults of a failure. -/
def Failure.report (failure : Failure) : FaultReport := ⟨failure.earlier, some failure.critical⟩

/-- A value, and the faults in spite of which it was served. -/
structure Served (α : Type) where
  value : α
  warnings : List Fault := []
  deriving DecidableEq, Repr

namespace Served

variable {α : Type}

/-- The faults of a degraded success, nothing for an unqualified one. -/
def report? (served : Served α) : Option FaultReport :=
  if served.warnings.isEmpty then none else some ⟨served.warnings, none⟩

end Served

/-- How an operation ends. -/
abbrev Outcome (α : Type) := Except Failure (Served α)

namespace Outcome

variable {α : Type}

/-- Success without any fault. -/
def clean (value : α) : Outcome α := .ok ⟨value, []⟩

/-- The faults of an outcome in the order of the calls that caused them. -/
def faults : Outcome α → List Fault
  | .ok served => served.warnings
  | .error failure => failure.report.faults

end Outcome

end Catalogue
