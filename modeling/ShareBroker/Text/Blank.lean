/-! # Blank characters

A blank is a character of the Unicode White_Space property: tab, line feed, vertical tab, form
feed, carriage return, space, U+0085, U+00A0, U+1680, U+2000 to U+200A, U+2028, U+2029,
U+202F, U+205F and U+3000.

`Text.splitBlank` cuts a text at runs of blanks and drops the empty pieces; `Text.trimBlank`
removes blanks at both ends.
-/

namespace ShareBroker

namespace Text

/-- Code point ranges (inclusive) of the White_Space property. -/
def blankRanges : List (Nat × Nat) :=
  [(0x9, 0xD), (0x20, 0x20), (0x85, 0x85), (0xA0, 0xA0), (0x1680, 0x1680), (0x2000, 0x200A),
   (0x2028, 0x2029), (0x202F, 0x202F), (0x205F, 0x205F), (0x3000, 0x3000)]

/-- Whether a character is blank. -/
def isBlank (c : Char) : Bool := blankRanges.any fun r => r.1 ≤ c.toNat ∧ c.toNat ≤ r.2

/-- Every blank of core's ASCII class is blank here. -/
example : ['\t', '\n', '\r', ' '].all isBlank = true := by decide

/-- The pieces of a text between runs of blanks, without empty pieces. -/
def splitBlankChars (cs : List Char) : List String :=
  ((cs.splitBy fun a b => isBlank a == isBlank b).filter fun g =>
    match g.head? with
    | some c => !isBlank c
    | none => false).map String.ofList

/-- The pieces of a text between runs of blanks, without empty pieces. -/
def splitBlank (s : String) : List String := splitBlankChars s.toList

/-- A text without blanks at either end. -/
def trimBlank (s : String) : String :=
  String.ofList ((s.toList.dropWhile isBlank).reverse.dropWhile isBlank).reverse

/-- Whether a text has a blank anywhere. -/
def hasBlank (s : String) : Bool := s.toList.any isBlank

end Text

end ShareBroker
