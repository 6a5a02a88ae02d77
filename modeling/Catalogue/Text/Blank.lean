/-!
# Blank characters

The characters with the Unicode property `White_Space`, and text without them at its ends.
-/

namespace Catalogue.Text

/-- The code points of the property, as closed ranges in ascending order. -/
def blankRanges : List (Nat × Nat) :=
  [(0x09, 0x0D), (0x20, 0x20), (0x85, 0x85), (0xA0, 0xA0), (0x1680, 0x1680), (0x2000, 0x200A),
   (0x2028, 0x2029), (0x202F, 0x202F), (0x205F, 0x205F), (0x3000, 0x3000)]

/-- Whether a character is blank. -/
def isBlank (c : Char) : Bool := blankRanges.any fun (low, high) => low ≤ c.toNat ∧ c.toNat ≤ high

/-- Characters without the blanks in front and behind. -/
def trimChars (text : List Char) : List Char :=
  ((text.dropWhile isBlank).reverse.dropWhile isBlank).reverse

/-- Text without the blanks in front and behind. -/
def trim (text : String) : String := String.ofList (trimChars text.toList)

end Catalogue.Text
