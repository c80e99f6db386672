import ShareBroker.Json.Basic
import ShareBroker.Decimal.Shortest

/-! # Compact JSON text

`Json.write` prints a value with no blank between tokens and the fields of an object in the
order they are held. A string is quoted with the short escapes `\" \\ \b \f \n \r \t`; every
other character below U+0020 is written `\u00xx` with lowercase hex digits, and all other
characters, including non-ASCII ones, stand as they are.

Integers are written in decimal. A double is written with its shortest digits
(`Decimal.shortest`) in the layout of `FloatLayout.record`: positional for decimal exponents
from -5 to 15, with `.0` after an integral value, and otherwise `d.ddde±X` with no padding of
the exponent. A double that is
not finite has no JSON form and is written `null`.
-/

namespace ShareBroker

/-- Where a double is written positionally and how its exponent is spelled. -/
structure FloatLayout where
  /-- The least decimal exponent written positionally. -/
  minPositional : Int
  /-- The greatest decimal exponent written positionally. -/
  maxPositional : Int
  /-- The mark before the exponent. -/
  mark : Char
  /-- Whether a positive exponent carries `+`. -/
  plusSign : Bool
  /-- The least number of exponent digits. -/
  expDigits : Nat
  /-- Whether an integral positional value ends in `.0`. -/
  pointZero : Bool
  /-- How a tie between two shortest candidates is broken. -/
  tie : Decimal.Tie

namespace FloatLayout

/-- JSON text writes doubles positionally from `1e-5` up to below `1e16`, keeps `.0` on
integral values, and otherwise uses a signed exponent: `1e+100`, `1.5e-7`. A tie between two
shortest candidates goes to the even one. -/
def record : FloatLayout := ⟨-5, 15, 'e', true, 1, true, .even⟩

/-- Diagnostics write doubles in plain decimal notation, never with an exponent, and keep
`.0` on integral values: `1.5`, `100.0`. A tie between two shortest candidates goes upwards:
`1729206042098319.25` is shown `1729206042098319.3`. -/
def plain : FloatLayout := ⟨-400, 400, 'e', false, 1, true, .up⟩

/-- Lays out shortest digits `ds` with scientific exponent `x` (`d₁.d₂… × 10 ^ x`). -/
def layout (f : FloatLayout) (ds : List Char) (x : Int) : List Char :=
  let n := ds.length
  if f.minPositional ≤ x ∧ x ≤ f.maxPositional then
    if 0 ≤ x then
      let whole := x.toNat + 1
      if n ≤ whole then
        ds ++ List.replicate (whole - n) '0' ++ (if f.pointZero then ['.', '0'] else [])
      else ds.take whole ++ '.' :: ds.drop whole
    else '0' :: '.' :: List.replicate ((-x).toNat - 1) '0' ++ ds
  else
    let mantissa := match ds with
      | [] => ['0']
      | [d] => [d]
      | d :: rest => d :: '.' :: rest
    let digits := Nat.toDigits 10 x.natAbs
    let padded := List.replicate (f.expDigits - digits.length) '0' ++ digits
    let sign := if x < 0 then ['-'] else if f.plusSign then ['+'] else []
    mantissa ++ f.mark :: sign ++ padded

/-- The text of a finite double in this layout; `none` for an infinity or NaN. -/
def render (f : FloatLayout) (x : Float) : Option String :=
  if x.isNaN ∨ x.isInf then none
  else
    let bits := x.toBits
    let negative := bits >>> 63 == 1
    let sign := if negative then ['-'] else []
    if bits &&& 0x7FFFFFFFFFFFFFFF == 0 then
      some (String.ofList (sign ++ ['0', '.', '0']))
    else
      let (ds, e) := Decimal.shortest f.tie bits
      some (String.ofList (sign ++ f.layout ds e))

end FloatLayout

namespace Json

/-- The four lowercase hex digits of a code unit below `0x10000`. -/
def hex4 (n : Nat) : List Char :=
  let d := Nat.toDigits 16 n
  List.replicate (4 - d.length) '0' ++ d

/-- One character of a quoted string. -/
def escapeChar (c : Char) : List Char :=
  match c with
  | '"' => ['\\', '"']
  | '\\' => ['\\', '\\']
  | '\n' => ['\\', 'n']
  | '\r' => ['\\', 'r']
  | '\t' => ['\\', 't']
  | '\x08' => ['\\', 'b']
  | '\x0c' => ['\\', 'f']
  | c => if c.toNat < 0x20 then '\\' :: 'u' :: hex4 c.toNat else [c]

/-- A string between double quotes, escaped. -/
def quote (s : String) : String :=
  String.ofList ('"' :: (s.toList.flatMap escapeChar ++ ['"']))

/-- The text of a number. -/
def JsonNumber.write : JsonNumber → String
  | .int i => toString i
  | .float x => (FloatLayout.record.render x).getD "null"

mutual

/-- Compact text of a value. -/
def write : Json → String
  | .null => "null"
  | .bool true => "true"
  | .bool false => "false"
  | .num n => JsonNumber.write n
  | .str s => quote s
  | .arr xs => "[" ++ writeItems xs ++ "]"
  | .obj fs => "\x7b" ++ writeFields fs ++ "\x7d"

/-- Compact text of array items, comma separated. -/
def writeItems : List Json → String
  | [] => ""
  | [x] => write x
  | x :: xs => write x ++ "," ++ writeItems xs

/-- Compact text of object fields, comma separated. -/
def writeFields : List (String × Json) → String
  | [] => ""
  | [(k, v)] => quote k ++ ":" ++ write v
  | (k, v) :: fs => quote k ++ ":" ++ write v ++ "," ++ writeFields fs

end

end Json

end ShareBroker
