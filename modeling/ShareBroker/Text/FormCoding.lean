import ShareBroker.Text.Utf8

/-! # Form encoding of query strings

A query string is a list of `name=value` pairs joined by `&`. Each name and value is written
byte by byte from its UTF-8 form: ASCII letters, digits and `* - . _` stand as they are, a
space becomes `+`, and every other byte becomes `%XX` in uppercase hex.

Reading splits the query at `&`, skips empty pieces, and splits each piece at its first `=`
(a piece without `=` has an empty value). A `+` reads as a space and `%XX` with two hex digits
of either case as that byte; a `%` not followed by two hex digits stays as it is. The bytes
are then read as UTF-8, each ill-formed part becoming U+FFFD.

The main statements are `FormCoding.encodePairs` and `FormCoding.decodePairs`.
-/

namespace ShareBroker

namespace FormCoding

/-- The uppercase hex digit of a value below 16. -/
def hexDigit (n : Nat) : Char :=
  if n < 10 then Char.ofNat ('0'.toNat + n) else Char.ofNat ('A'.toNat + n - 10)

/-- Whether a byte stands for itself in a query. -/
def unreserved (b : UInt8) : Bool :=
  let c := Char.ofNat b.toNat
  b < 0x80 ∧ (c.isAlphanum ∨ c = '*' ∨ c = '-' ∨ c = '.' ∨ c = '_')

/-- The written form of one byte. -/
def encodeByte (b : UInt8) : List Char :=
  if b = 0x20 then ['+']
  else if unreserved b then [Char.ofNat b.toNat]
  else ['%', hexDigit (b.toNat / 16), hexDigit (b.toNat % 16)]

/-- The written form of a name or value. -/
def encode (s : String) : String :=
  String.ofList ((Utf8.encode s).flatMap encodeByte)

/-- A query of `name=value` pairs in order. -/
def encodePairs (pairs : List (String × String)) : String :=
  "&".intercalate (pairs.map fun p => encode p.1 ++ "=" ++ encode p.2)

/-- The value of a hex digit of either case. -/
def hexValue (b : UInt8) : Option Nat :=
  let c := Char.ofNat b.toNat
  if c.isDigit then some (b.toNat - '0'.toNat)
  else if 'a' ≤ c ∧ c ≤ 'f' then some (b.toNat - 'a'.toNat + 10)
  else if 'A' ≤ c ∧ c ≤ 'F' then some (b.toNat - 'A'.toNat + 10)
  else none

/-- Turns `+` into a space and `%XX` into its byte. -/
def unescape : List UInt8 → List UInt8
  | [] => []
  | b :: h :: l :: more =>
    if b = 0x25 then
      match hexValue h, hexValue l with
      | some x, some y => (16 * x + y).toUInt8 :: unescape more
      | _, _ => b :: unescape (h :: l :: more)
    else (if b = 0x2B then 0x20 else b) :: unescape (h :: l :: more)
  | b :: rest => (if b = 0x2B then 0x20 else b) :: unescape rest

/-- Reads a name or value. -/
def decode (bs : List UInt8) : String := Utf8.decodeLossy (unescape bs)

/-- Splits bytes at every occurrence of a separator. -/
def splitBytes (sep : UInt8) (bs : List UInt8) : List (List UInt8) :=
  bs.splitOn sep

/-- Reads a query into its pairs, in order. -/
def decodePairs (query : String) : List (String × String) :=
  let pieces := (splitBytes 0x26 (Utf8.encode query)).filter (!·.isEmpty)
  pieces.map fun piece =>
    let name := piece.takeWhile (· ≠ 0x3D)
    let value := (piece.dropWhile (· ≠ 0x3D)).drop 1
    (decode name, decode value)

end FormCoding

end ShareBroker
