/-!
# Characters in bytes

One character is read from the front of a list of bytes by the rules of UTF-8: shortest form only,
no surrogates, nothing above the last code point. `lossy` reads any bytes and puts the replacement
character where they are not UTF-8.
-/

namespace Catalogue.Utf8

/-- The bytes of a text. -/
def bytes (text : String) : List UInt8 := text.toUTF8.data.toList

/-- The character that the bytes begin with, and the bytes behind it. -/
def decode? (input : List UInt8) : Option (Char × List UInt8) :=
  ((input.take 4).toByteArray.utf8DecodeChar? 0).map fun c => (c, input.drop c.utf8Size)

/-- Reading a character takes bytes off the front. -/
theorem length_decode?_lt {input rest : List UInt8} {c : Char}
    (h : decode? input = some (c, rest)) : rest.length < input.length := by
  unfold decode? at h
  obtain ⟨d, hd, he⟩ := Option.map_eq_some_iff.1 h
  cases he
  have hpos : 0 < c.utf8Size := Char.utf8Size_pos c
  cases input with
  | nil => cases hd
  | cons b bs => simp only [List.length_drop, List.length_cons]; omega

/-- Whether a byte can only stand inside a character. -/
def isContinuation (b : UInt8) : Bool := 0x80 ≤ b ∧ b ≤ 0xBF

/-- How many more bytes an ill-formed front gives up together with its first byte `a`: those with
which it could still have grown into a character. -/
def faultTail (a : UInt8) : List UInt8 → Nat
  | [] => 0
  | b :: rest =>
    let fits : Bool :=
      if a = 0xE0 then 0xA0 ≤ b ∧ b ≤ 0xBF
      else if a = 0xED then 0x80 ≤ b ∧ b ≤ 0x9F
      else if a = 0xF0 then 0x90 ≤ b ∧ b ≤ 0xBF
      else if a = 0xF4 then 0x80 ≤ b ∧ b ≤ 0x8F
      else 0xE1 ≤ a ∧ a ≤ 0xF3 ∧ isContinuation b
    if fits then
      match rest with
      | c :: _ => if 0xF0 ≤ a ∧ isContinuation c then 2 else 1
      | [] => 1
    else 0

/-- Characters of bytes in front of `input`, latest first, to which those of `input` are added. -/
def lossyChars (acc : List Char) : List UInt8 → List Char
  | [] => acc.reverse
  | b :: rest =>
    match _h : decode? (b :: rest) with
    | some (c, left) => lossyChars (c :: acc) left
    | none => lossyChars ('\uFFFD' :: acc) (rest.drop (faultTail b rest))
termination_by input => input.length
decreasing_by
  · exact length_decode?_lt _h
  · simp only [List.length_drop, List.length_cons]; omega

/-- Reads bytes as text, each ill-formed front as one replacement character. -/
def lossy (input : List UInt8) : String := String.ofList (lossyChars [] input)

/-- Reads bytes as text if all of them are UTF-8. -/
def strict? (input : List UInt8) : Option String := String.fromUTF8? input.toByteArray

end Catalogue.Utf8
