import Catalogue.Product.Basic
import Catalogue.Sql.DriverError

/-!
# Rows from the database

An answer is a table: names of columns and rows of cells. Products are read by the names of the
columns, so further columns and another order do no harm; identifiers and counts are read from the
first column. The first bad cell in the order identifier, name, additional information spoils a row.
-/

namespace Catalogue.Sql

/-- A cell of a row. -/
inductive Cell where
  | null
  | integer (value : Int64)
  | text (value : String)
  deriving DecidableEq, Repr

/-- The rows of an answer under the names of their columns. -/
structure Table where
  columns : List String := []
  rows : List (List Cell) := []
  deriving DecidableEq, Repr

namespace Cell

/-- The integer of a cell. -/
def toInteger : Cell → Except CellFlaw Int64
  | .null => .error .null
  | .integer value => .ok value
  | .text _ => .error (.mismatch .int8 .text)

/-- The text of a cell. -/
def toText : Cell → Except CellFlaw String
  | .null => .error .null
  | .integer _ => .error (.mismatch .text .int8)
  | .text value => .ok value

/-- Reads the cell at a place of a row. -/
def readAt {α : Type} (convert : Cell → Except CellFlaw α) (column : ColumnRef) (index : Nat)
    (row : List Cell) : Except DriverError α :=
  match row[index]? with
  | none => .error (.columnOutOfBounds row.length index)
  | some cell =>
    match convert cell with
    | .ok value => .ok value
    | .error flaw => .error (.columnDecode column flaw)

end Cell

/-- The place of a column. Of two columns with one name the later counts. -/
def placeOf? (columns : List String) (name : String) : Option Nat :=
  (columns.reverse.idxOf? name).map fun i => columns.length - 1 - i

/-- Reads the cell under a name. -/
def readNamed {α : Type} (convert : Cell → Except CellFlaw α) (columns : List String)
    (row : List Cell) (name : String) : Except DriverError α :=
  match placeOf? columns name with
  | none => .error (.columnNotFound name)
  | some index => Cell.readAt convert (.name name) index row

/-- Reads the product of a row. -/
def readProduct (columns : List String) (row : List Cell) : Except DriverError Product := do
  let id ← readNamed Cell.toInteger columns row "id"
  let name ← readNamed Cell.toText columns row "name"
  let info ← readNamed Cell.toText columns row "additional_info"
  return ⟨id, name, info⟩

namespace Table

/-- The product of the first row. -/
def product (table : Table) : Except DriverError Product :=
  match table.rows with
  | [] => .error .rowNotFound
  | row :: _ => readProduct table.columns row

/-- The products of all rows. -/
def products (table : Table) : Except DriverError (List Product) :=
  table.rows.mapM (readProduct table.columns)

/-- The integer in the first column of the first row. -/
def integer (table : Table) : Except DriverError Int64 :=
  match table.rows with
  | [] => .error .rowNotFound
  | row :: _ => Cell.readAt Cell.toInteger (.place 0) 0 row

end Table

end Catalogue.Sql
