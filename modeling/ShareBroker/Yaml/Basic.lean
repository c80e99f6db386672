import ShareBroker.Json.Read
import ShareBroker.Decode.Error

/-! # YAML values

`Yaml` is the value of a configuration document: null, booleans, integers, doubles, strings,
sequences and mappings (in insertion order; writing a key again replaces its value in place).

A plain (unquoted) scalar is resolved by its text (`Yaml.resolvePlain`), trying in order:

* `~` and `null` are null; `true` and `false` are booleans;
* `0x`, `0o`, `0b` with an optional sign are hexadecimal, octal and binary integers;
* a run of digits with a leading zero, such as `007`, stays a string;
* an unsigned or signed decimal integer that fits 64 bits is an integer, and one that fits
  128 bits is refused, since no value holds it;
* `.inf`, `-.inf`, `.nan` (also capitalised or in upper case) and a decimal number whose
  double is finite are doubles;
* anything else is a string.

Quoted scalars are always strings.
-/

namespace ShareBroker

/-- A YAML value. -/
inductive Yaml where
  | null
  | bool (b : Bool)
  | int (i : Int)
  | float (x : Float)
  | str (s : String)
  | seq (items : List Yaml)
  | map (entries : List (Yaml × Yaml))
  deriving Inhabited

namespace Yaml

/-- The value of a digit in a radix up to 16. -/
def digitIn (radix : Nat) (c : Char) : Option Nat :=
  let v :=
    if c.isDigit then some (c.toNat - '0'.toNat)
    else if 'a' ≤ c ∧ c ≤ 'f' then some (c.toNat - 'a'.toNat + 10)
    else if 'A' ≤ c ∧ c ≤ 'F' then some (c.toNat - 'A'.toNat + 10)
    else none
  v.bind fun d => if d < radix then some d else none

/-- A non-empty run of digits of a radix, with an optional leading `+`, as a number. -/
def natInRadix (radix : Nat) (cs : List Char) : Option Nat :=
  let cs := match cs with
    | '+' :: rest => rest
    | _ => cs
  if cs.isEmpty then none
  else cs.foldl (fun acc c => acc.bind fun n => (digitIn radix c).map (radix * n + ·)) (some 0)

/-- A whole text as a 64-bit unsigned integer in a radix. -/
def unsignedIn (radix : Nat) (cs : List Char) : Option Nat :=
  (natInRadix radix cs).bind fun n => if n < Nat.pow 2 64 then some n else none

/-- A whole text `-digits` as a 64-bit signed integer in a radix; the digits take no sign of
their own. -/
def negativeIn (radix : Nat) (cs : List Char) : Option Int :=
  if cs.head? = some '+' then none
  else (natInRadix radix cs).bind fun n => if n ≤ Nat.pow 2 63 then some (-(n : Int)) else none

/-- A whole text as a signed 64-bit decimal integer. -/
def signedDecimal (cs : List Char) : Option Int :=
  match cs with
  | '-' :: rest => if rest.isEmpty ∨ rest.head? = some '+' then none else negativeIn 10 rest
  | _ => (unsignedIn 10 cs).bind fun n => if n < Nat.pow 2 63 then some n else none

/-- Lowercase of ASCII letters. -/
def lower (cs : List Char) : List Char := cs.map Char.toLower

/-- A whole text as a double: an optional sign, then `inf`, `infinity`, `nan`, or digits with
an optional fraction and exponent (at least one digit before or after the point). -/
def decimalDouble (cs : List Char) : Option Float :=
  let (negative, body) := match cs with
    | '-' :: rest => (true, rest)
    | '+' :: rest => (false, rest)
    | _ => (false, cs)
  let signed (x : Float) : Float := if negative then -x else x
  let word := lower body
  if word = "inf".toList ∨ word = "infinity".toList then some (signed (1.0 / 0.0))
  else if word = "nan".toList then some (0.0 / 0.0)
  else
    let whole := body.takeWhile Char.isDigit
    let afterWhole := body.dropWhile Char.isDigit
    let (frac, afterFrac) := match afterWhole with
      | '.' :: rest => (rest.takeWhile Char.isDigit, rest.dropWhile Char.isDigit)
      | _ => ([], afterWhole)
    if whole.isEmpty ∧ frac.isEmpty then none
    else
      let expPart : Option Int := match afterFrac with
        | [] => some 0
        | e :: rest =>
          if e = 'e' ∨ e = 'E' then
            let (neg, ds) := match rest with
              | '-' :: ds => (true, ds)
              | '+' :: ds => (false, ds)
              | ds => (false, ds)
            if ds.isEmpty ∨ !ds.all Char.isDigit then none
            else
              let v := Json.Reader.digitsValue ds
              some (if neg then -(v : Int) else v)
          else none
      expPart.bind fun e =>
        let m := Json.Reader.digitsValue (whole ++ frac)
        let x := e - (frac.length : Int)
        some (signed (Decimal.nearest m x))

/-- Whether a text is a run of digits with a leading zero, after an optional sign. -/
def zeroPadded (cs : List Char) : Bool :=
  let body := match cs with
    | '-' :: rest => rest
    | '+' :: rest => rest
    | _ => cs
  1 < body.length ∧ body.head? = some '0' ∧ body.all Char.isDigit

/-- A whole text as a signed decimal integer of any size: an optional sign, then digits. -/
def wideDecimal (cs : List Char) : Option Int :=
  match cs with
  | '-' :: rest => if rest.head? = some '+' then none else (natInRadix 10 rest).map fun n => -(n : Int)
  | _ => (natInRadix 10 cs).map fun n => (n : Int)

/-- A whole text as a finite double: `.inf` and `.nan` in three spellings each, with an
optional `+` (`-` for infinity, none for NaN), or else a decimal number that stays finite. -/
def plainDouble (cs : List Char) : Option Float :=
  let unsigned := match cs with
    | '+' :: rest => rest
    | _ => cs
  if cs.head? = some '+' ∧ (unsigned.head? = some '+' ∨ unsigned.head? = some '-') then none
  else if [".inf", ".Inf", ".INF"].contains (String.ofList unsigned) then some (1.0 / 0.0)
  else if ["-.inf", "-.Inf", "-.INF"].contains (String.ofList cs) then some (-1.0 / 0.0)
  else if [".nan", ".NaN", ".NAN"].contains (String.ofList cs) then some (0.0 / 0.0)
  else (decimalDouble unsigned).filter fun x => !(x.isNaN || x.isInf)

/-- The value of a plain scalar. An integer of 65 to 128 bits has no value: it is refused
with its description, `integer N as u128` (or `as i128` when negative). -/
def resolvePlain (s : String) : Except Unexpected Yaml :=
  let cs := s.toList
  if s = "~" ∨ s = "null" then .ok .null
  else if s = "true" then .ok (.bool true)
  else if s = "false" then .ok (.bool false)
  else
    let radixForms : List (List Char × Nat) := [("0x".toList, 16), ("0o".toList, 8), ("0b".toList, 2)]
    let radixValue := radixForms.findSome? fun (pre, radix) =>
      if pre.isPrefixOf cs then (unsignedIn radix (cs.drop 2)).map (fun n => Yaml.int n)
      else if ('+' :: pre).isPrefixOf cs then (unsignedIn radix (cs.drop 3)).map (fun n => Yaml.int n)
      else if ('-' :: pre).isPrefixOf cs then (negativeIn radix (cs.drop 3)).map Yaml.int
      else none
    match radixValue with
    | some v => .ok v
    | none =>
      if zeroPadded cs then .ok (.str s)
      else match unsignedIn 10 cs with
        | some n => .ok (.int n)
        | none => match signedDecimal cs with
          | some i => .ok (.int i)
          | none =>
            let wide := (wideDecimal cs).filter fun i => -Int.pow 2 127 ≤ i ∧ i < Int.pow 2 128
            match wide with
            | some i =>
              .error (.other ("integer `" ++ toString i ++ "` as " ++
                (if i < 0 then "i128" else "u128")))
            | none => match plainDouble cs with
              | some x => .ok (.float x)
              | none => .ok (.str s)

/-- Puts a key into a mapping: a new key goes to the end; a key already present keeps its
place and the key as first written, and takes the new value. -/
def insertEntry (k v : Yaml) (keyEq : Yaml → Bool) (es : List (Yaml × Yaml)) : List (Yaml × Yaml) :=
  if es.any (fun e => keyEq e.1) then es.map fun e => if keyEq e.1 then (e.1, v) else e
  else es ++ [(k, v)]

/-- Equality of scalar keys: doubles compare as numbers, with all NaNs equal; collections are
never equal keys here. -/
def sameKey : Yaml → Yaml → Bool
  | .null, .null => true
  | .bool a, .bool b => a == b
  | .int a, .int b => a == b
  | .float a, .float b => a == b || (a.isNaN && b.isNaN)
  | .str a, .str b => a == b
  | _, _ => false

end Yaml

end ShareBroker
