/-! # Unsigned integers in decimal text

`Decimal.readUnsigned max s` reads a whole text as a natural number no greater than `max`:
an optional `+`, then at least one ASCII digit and nothing else. The digits are taken from
the left; the first one that is not a digit, or that takes the value past `max`, ends reading
with that error.
-/

namespace ShareBroker

namespace Decimal

/-- Why a text is not an unsigned integer in range. -/
inductive UnsignedError where
  | empty
  | invalidDigit
  | tooLarge

/-- The message of an unsigned-integer error. -/
def UnsignedError.message : UnsignedError → String
  | .empty => "cannot parse integer from empty string"
  | .invalidDigit => "invalid digit found in string"
  | .tooLarge => "number too large to fit in target type"

/-- Reads digits into `acc`, failing at the first non-digit or at the first digit that takes
the value past `max`. -/
def readDigits (max : Nat) : Nat → List Char → Except UnsignedError Nat
  | acc, [] => .ok acc
  | acc, c :: rest =>
    if c.isDigit then
      let v := 10 * acc + (c.toNat - '0'.toNat)
      if max < v then .error .tooLarge else readDigits max v rest
    else .error .invalidDigit

/-- Reads a whole text as an unsigned integer no greater than `max`. -/
def readUnsigned (max : Nat) (s : String) : Except UnsignedError Nat :=
  match s.toList with
  | [] => .error .empty
  | ['+'] => .error .invalidDigit
  | '+' :: rest => readDigits max 0 rest
  | cs => readDigits max 0 cs

end Decimal

end ShareBroker
