/-!
# Products

A product has an identifier that the store assigns and that never changes, a name, and additional
information. A draft is what a caller submits before there is an identifier.
-/

namespace Catalogue

/-- The payload of a product that is to be created, or that replaces another payload. -/
structure Draft where
  name : String
  info : String
  deriving DecidableEq, Repr, Inhabited

/-- A stored product. -/
structure Product where
  id : Int64
  name : String
  info : String
  deriving DecidableEq, Repr, Inhabited

/-- The product that a draft becomes under an identifier. -/
def Draft.withId (draft : Draft) (id : Int64) : Product := ⟨id, draft.name, draft.info⟩

/-- The payload of a product. -/
def Product.draft (product : Product) : Draft := ⟨product.name, product.info⟩

/-- Whether both parts of a draft say something. -/
def Draft.isComplete (draft : Draft) : Bool := !draft.name.isEmpty && !draft.info.isEmpty

/-- The wording of a violated rule of the domain. -/
def domainMessage (detail : String) : String := s!"domain validation failed: {detail}"

/-- The wording of the refusal of a draft that is not complete. -/
def Draft.incompleteMessage : String := domainMessage "product name or additional info is empty"

end Catalogue
