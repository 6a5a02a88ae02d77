/-!
# Windows on the product list

A window names a page of an ordered list: how many elements it shows at most, and how many elements
lie in front of it. Both numbers are integers of 64 bits; a window with a limit below one or a
negative offset does not exist.
-/

namespace Catalogue

/-- Why two numbers do not make a window. -/
inductive WindowFlaw where
  | limit (value : Int64)
  | offset (value : Int64)
  deriving DecidableEq, Repr

/-- The wording of a refused window. -/
def WindowFlaw.message : WindowFlaw → String
  | .limit value => s!"invalid limit: has value {value.toInt}, must be ge 1"
  | .offset value => s!"invalid offset: has value {value.toInt}, must be ge 0"

/-- A bounded section of an ordered list. -/
structure Window where
  limit : Int64
  offset : Int64
  one_le_limit : 1 ≤ limit.toInt
  zero_le_offset : 0 ≤ offset.toInt
  deriving DecidableEq, Repr

namespace Window

/-- The window with a limit and an offset; a bad limit is reported before a bad offset. -/
def of (limit offset : Int64) : Except WindowFlaw Window :=
  if hl : 1 ≤ limit.toInt then
    if ho : 0 ≤ offset.toInt then .ok ⟨limit, offset, hl, ho⟩ else .error (.offset offset)
  else .error (.limit limit)

/-- The part of a list that lies in the window. -/
def slice {α : Type} (window : Window) (items : List α) : List α :=
  (items.drop window.offset.toInt.toNat).take window.limit.toInt.toNat

end Window

end Catalogue
