import Catalogue.Backend

/-!
# The statements of the store

Every call is one statement, but for deleting everything, which is a transaction: the table is
locked, its rows are counted, and then they are removed, so the count is that of the rows removed.
-/

namespace Catalogue.Sql

/-- A value that is bound to a place of a statement. -/
inductive Param where
  | integer (value : Int64)
  | text (value : String)
  deriving DecidableEq, Repr

/-- A statement with the values bound to its places. -/
structure Statement where
  sql : String
  params : List Param := []
  deriving DecidableEq, Repr

namespace Statement

/-- Selects the row of a product. -/
def find (id : Int64) : Statement :=
  ⟨"SELECT id, name, additional_info FROM products WHERE id = $1", [.integer id]⟩

/-- Selects all rows in order. -/
def list : Statement := ⟨"SELECT id, name, additional_info FROM products ORDER BY id", []⟩

/-- Selects the rows of a window in order. -/
def page (window : Window) : Statement :=
  ⟨"SELECT id, name, additional_info FROM products ORDER BY id LIMIT $1 OFFSET $2",
    [.integer window.limit, .integer window.offset]⟩

/-- Inserts a row. -/
def insert (draft : Draft) : Statement :=
  ⟨"INSERT INTO products (name, additional_info) VALUES ($1, $2) RETURNING id",
    [.text draft.name, .text draft.info]⟩

/-- Changes a row and gives it as it was before. -/
def update (id : Int64) (draft : Draft) : Statement :=
  ⟨"UPDATE products AS p SET name = $2, additional_info = $3 FROM ( SELECT id, name, " ++
      "additional_info FROM products WHERE id = $1 FOR UPDATE ) AS old WHERE p.id = old.id " ++
      "RETURNING old.id, old.name, old.additional_info",
    [.integer id, .text draft.name, .text draft.info]⟩

/-- Removes a row and gives it. -/
def delete (id : Int64) : Statement :=
  ⟨"DELETE FROM products WHERE id = $1 RETURNING id, name, additional_info", [.integer id]⟩

/-- Asks nothing. -/
def ping : Statement := ⟨"SELECT 1", []⟩

/-- Begins a transaction. -/
def begin : Statement := ⟨"BEGIN", []⟩

/-- Keeps everyone else away from the table. -/
def lock : Statement := ⟨"LOCK TABLE products IN ACCESS EXCLUSIVE MODE", []⟩

/-- Counts the rows. -/
def count : Statement := ⟨"SELECT COUNT(*) FROM products", []⟩

/-- Removes all rows. -/
def truncate : Statement := ⟨"TRUNCATE TABLE products", []⟩

/-- Ends a transaction and keeps what it did. -/
def commit : Statement := ⟨"COMMIT", []⟩

/-- Ends a transaction and undoes what it did. -/
def rollback : Statement := ⟨"ROLLBACK", []⟩

end Statement

end Catalogue.Sql
