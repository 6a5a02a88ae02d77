import Catalogue.Sql.Statement
import Catalogue.Sql.Table

/-!
# Talking to a server

A server is a list of replies, the next of which answers the next statement; a server that has no
more replies answers with no rows. A reply that drops the connection ends it, and the next call
opens another one. A transaction that is abandoned while its connection lives is rolled back before
anything else is sent.
-/

namespace Catalogue.Sql

/-- How the server treats a statement. -/
inductive Reply where
  | rows (table : Table)
  | failure (detail : String) (code : String)
  | drop
  deriving DecidableEq, Repr

/-- The table of a reply. -/
def Reply.table : Reply → Except DriverError Table
  | .rows table => .ok table
  | .failure detail code => .error (.database detail code)
  | .drop => .error (.io "expected to read 5 bytes, got 0 bytes at EOF")

/-- Whether connections are to be had. -/
inductive Pool where
  | ready
  | exhausted
  | closed
  deriving DecidableEq, Repr

/-- The reply to a statement, and those to later ones. -/
def nextReply : List Reply → Reply × List Reply
  | [] => (.rows {}, [])
  | reply :: later => (reply, later)

/-- What came of a call: its result, the statements it executed in order, and the replies to later
statements. -/
structure Exchange (α : Type) where
  result : Except DriverError α
  statements : List Statement
  replies : List Reply

namespace Exchange

variable {α β : Type}

/-- The end of a call that executes nothing more. -/
def done (result : Except DriverError α) (replies : List Reply) : Exchange α :=
  ⟨result, [], replies⟩

/-- Executes one statement and reads its answer. -/
def single (statement : Statement) (read : Table → Except DriverError α) (replies : List Reply) :
    Exchange α :=
  let (reply, later) := nextReply replies
  ⟨reply.table.bind read, [statement], later⟩

/-- Executes a statement of an open transaction and goes on with what its answer says. If that says
nothing good, the transaction is abandoned. -/
def within (statement : Statement) (read : Table → Except DriverError β)
    (next : β → List Reply → Exchange α) (replies : List Reply) : Exchange α :=
  let (reply, later) := nextReply replies
  match reply.table.bind read with
  | .ok value =>
    let rest := next value later
    ⟨rest.result, statement :: rest.statements, rest.replies⟩
  | .error error =>
    if reply = .drop then ⟨.error error, [statement], later⟩
    else ⟨.error error, [statement, .rollback], (nextReply later).2⟩

/-- Executes statements in a transaction that `body` ends. -/
def transaction (body : List Reply → Exchange α) (replies : List Reply) : Exchange α :=
  let (reply, later) := nextReply replies
  match reply.table with
  | .ok _ =>
    let rest := body later
    ⟨rest.result, .begin :: rest.statements, rest.replies⟩
  | .error error => ⟨.error error, [.begin], later⟩

/-- An answer that is not looked at. -/
def ignore (_ : Table) : Except DriverError Unit := .ok ()

/-- Removes all rows and gives their number. -/
def purge : List Reply → Exchange Int64 :=
  transaction <|
    within .lock ignore fun _ =>
    within .count Table.integer fun count =>
    within .truncate ignore fun _ =>
    within .commit ignore fun _ =>
    done (.ok count)

end Exchange

/-- A number of rows, which is not negative. -/
def toCount (count : Int64) : Except StoreError Nat :=
  if 0 ≤ count.toInt then .ok count.toInt.toNat
  else .error (.persistence "count exceeds supported range")

/-- What came of a call of the store. -/
structure Answered (call : StoreCall) where
  result : Except StoreError call.Value
  statements : List Statement
  replies : List Reply

/-- Gives the result of an exchange to the service. -/
def Exchange.answer {α : Type} {call : StoreCall} (exchange : Exchange α)
    (fail : DriverError → StoreError) (value : α → Except StoreError call.Value) : Answered call :=
  { statements := exchange.statements
    replies := exchange.replies
    result :=
      match exchange.result with
      | .ok v => value v
      | .error e => .error (fail e) }

/-- Makes a call of the store over an open connection. -/
def perform (call : StoreCall) (replies : List Reply) : Answered call :=
  match call with
  | .find id =>
    (Exchange.single (.find id) Table.product replies).answer (·.toStoreErrorOf id) .ok
  | .list => (Exchange.single .list Table.products replies).answer (·.toStoreError) .ok
  | .page window =>
    (Exchange.single (.page window) Table.products replies).answer (·.toStoreError) .ok
  | .insert draft =>
    (Exchange.single (.insert draft) Table.integer replies).answer (·.toStoreError) .ok
  | .update id draft =>
    (Exchange.single (.update id draft) Table.product replies).answer (·.toStoreErrorOf id) .ok
  | .delete id =>
    (Exchange.single (.delete id) Table.product replies).answer (·.toStoreErrorOf id) .ok
  | .purge => (Exchange.purge replies).answer (·.toStoreError) toCount
  | .ping => (Exchange.single .ping Exchange.ignore replies).answer (·.toStoreError) .ok

/-- Makes a call of the store, which executes nothing where no connection is to be had. -/
def performIn (pool : Pool) (call : StoreCall) (replies : List Reply) : Answered call :=
  match pool with
  | .ready => perform call replies
  | .exhausted => ⟨.error (DriverError.toStoreError .poolTimedOut), [], replies⟩
  | .closed => ⟨.error (DriverError.toStoreError .poolClosed), [], replies⟩

end Catalogue.Sql
