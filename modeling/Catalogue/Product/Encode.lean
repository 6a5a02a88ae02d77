import Catalogue.Json.Write
import Catalogue.Product.Basic

/-!
# Products as JSON text

The members are written in a fixed order and without blanks, so equal products have equal texts.
-/

namespace Catalogue

/-- The text of a draft. -/
def Draft.encodeChars (draft : Draft) : List Char :=
  Json.writeObject
    [("name", Json.writeText draft.name), ("additionalInfo", Json.writeText draft.info)]

/-- The text of a draft. -/
def Draft.encode (draft : Draft) : String := String.ofList draft.encodeChars

/-- The text of a product. -/
def Product.encodeChars (product : Product) : List Char :=
  Json.writeObject
    [("id", Numeral.ofInt product.id.toInt), ("name", Json.writeText product.name),
     ("additionalInfo", Json.writeText product.info)]

/-- The text of a product. -/
def Product.encode (product : Product) : String := String.ofList product.encodeChars

end Catalogue
