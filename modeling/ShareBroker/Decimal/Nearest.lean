/-! # The double nearest to a decimal

`Decimal.nearest m x` is the double nearest to `m × 10 ^ x`, a tie going to the even
significand; it is infinite when that value rounds past the largest finite double and zero
when it lies below half the least subnormal one.

The value is the exact rational `num / den`. Its 53-bit significand `q` and binary exponent
`e` (`q × 2 ^ e`) are found by integer division: `e` is first estimated from the bit lengths of
`num` and `den`, which leaves `q` within a factor of two of its range, and corrected once. The
remainder of the division decides the rounding. Below the normal range `e` is held at `-1074`,
so the same word formula `(e + 1074) × 2 ^ 52 + q` covers normal and subnormal doubles, and a
significand that rounds up into the next binade carries into the exponent field by itself.
-/

namespace ShareBroker

namespace Decimal

/-- The quotient and remainder of `num / (den × 2 ^ e)`, with the divisor. -/
def divPow2 (num den : Nat) (e : Int) : Nat × Nat × Nat :=
  let n := if e < 0 then num * Nat.pow 2 e.natAbs else num
  let d := if e < 0 then den else den * Nat.pow 2 e.natAbs
  (n / d, n % d, d)

/-- The bit pattern of the positive double nearest to `num / den`, for `0 < num` and
`0 < den`. -/
def nearestBits (num den : Nat) : UInt64 :=
  let e0 : Int := (num.log2 : Int) - (den.log2 : Int) - 52
  let e1 : Int := if (divPow2 num den e0).1 < Nat.pow 2 52 then e0 - 1 else e0
  let e : Int := if e1 < -1074 then -1074 else e1
  let (q, r, d) := divPow2 num den e
  let up : Bool := 2 * r > d || (2 * r = d && q % 2 = 1)
  let q := if up then q + 1 else q
  let (q, e) := if q = Nat.pow 2 53 then (Nat.pow 2 52, e + 1) else (q, e)
  if 972 ≤ e then 0x7FF0000000000000
  else UInt64.ofNat ((e + 1074).toNat * Nat.pow 2 52 + q)

/-- The double nearest to the positive rational `num / den`; zero when `num` is zero. -/
def ofFraction (num den : Nat) : Float :=
  if num = 0 ∨ den = 0 then 0.0 else Float.ofBits (nearestBits num den)

/-- The double nearest to `m × 10 ^ x`. A value of more than 310 integer digits is infinite
and one below `10 ^ -330` is zero, so huge exponents cost nothing. -/
def nearest (m : Nat) (x : Int) : Float :=
  if m = 0 then 0.0
  else
    let magnitude := x + ((Nat.toDigits 10 m).length : Int)
    if 310 < magnitude then Float.ofBits 0x7FF0000000000000
    else if magnitude < -330 then 0.0
    else if 0 ≤ x then ofFraction (m * Nat.pow 10 x.toNat) 1
    else ofFraction m (Nat.pow 10 x.natAbs)

/-- The double nearest to a natural number. -/
def toDouble (n : Nat) : Float := nearest n 0

/-- The double nearest to `10 ^ k`. -/
def pow10 (k : Nat) : Float := nearest 1 k

end Decimal

end ShareBroker
