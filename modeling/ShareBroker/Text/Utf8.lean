/-! # UTF-8 bytes and text

`Utf8.encode` gives the bytes of a text. `Utf8.decodeLossy` reads bytes back as text, putting
U+FFFD in place of each maximal ill-formed part: the lead byte of a sequence together with the
continuation bytes that still fit it, or a single byte that cannot start a sequence. Well-formed
sequences follow the table of the standard: `C2..DF` takes one continuation byte, `E0` then
`A0..BF`, `ED` then `80..9F`, other `E1..EF` then `80..BF`, each with one more continuation byte,
`F0` then `90..BF`, `F4` then `80..8F`, `F1..F3` then `80..BF`, each with two more.
-/

namespace ShareBroker

namespace Utf8

/-- The bytes of a text. -/
def encode (s : String) : List UInt8 := s.toUTF8.toList

/-- Whether a byte lies in an inclusive range. -/
def inRange (lo hi : UInt8) (b : UInt8) : Bool := lo ≤ b ∧ b ≤ hi

/-- For a lead byte: the range of the first continuation byte, the number of continuation
bytes, and the payload bits of the lead; `none` for a byte that cannot start a sequence. -/
def lead (b : UInt8) : Option ((UInt8 × UInt8) × Nat × Nat) :=
  if inRange 0xC2 0xDF b then some ((0x80, 0xBF), 1, (b &&& 0x1F).toNat)
  else if b = 0xE0 then some ((0xA0, 0xBF), 2, 0)
  else if b = 0xED then some ((0x80, 0x9F), 2, 0xD)
  else if inRange 0xE1 0xEF b then some ((0x80, 0xBF), 2, (b &&& 0x0F).toNat)
  else if b = 0xF0 then some ((0x90, 0xBF), 3, 0)
  else if b = 0xF4 then some ((0x80, 0x8F), 3, 4)
  else if inRange 0xF1 0xF3 b then some ((0x80, 0xBF), 3, (b &&& 0x07).toNat)
  else none

/-- Reads `n` continuation bytes, the first within `first`. Returns the code point and the rest,
or the rest at the first byte that does not fit. -/
def continuation (first : UInt8 × UInt8) : Nat → Nat → List UInt8 → Bool → Option Nat × List UInt8
  | 0, acc, bs, _ => (some acc, bs)
  | n + 1, acc, b :: bs, isFirst =>
    let ok := if isFirst then inRange first.1 first.2 b else inRange 0x80 0xBF b
    if ok then continuation first n (acc * 64 + (b &&& 0x3F).toNat) bs false
    else (none, b :: bs)
  | _ + 1, _, [], _ => (none, [])

/-- Decodes bytes, replacing each maximal ill-formed part by U+FFFD. -/
def decodeChars : Nat → List UInt8 → List Char
  | 0, _ => []
  | _ + 1, [] => []
  | fuel + 1, b :: bs =>
    if b < 0x80 then Char.ofNat b.toNat :: decodeChars fuel bs
    else match lead b with
      | none => '�' :: decodeChars fuel bs
      | some (first, n, bits) =>
        match continuation first n bits bs true with
        | (some cp, rest) => Char.ofNat cp :: decodeChars fuel rest
        | (none, rest) => '�' :: decodeChars fuel rest

/-- Decodes bytes as text, replacing each maximal ill-formed part by U+FFFD. -/
def decodeLossy (bs : List UInt8) : String :=
  String.ofList (decodeChars (bs.length + 1) bs)

end Utf8

end ShareBroker
