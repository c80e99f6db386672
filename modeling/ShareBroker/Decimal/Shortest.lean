/-! # Shortest decimal digits of a double

A finite, non-zero double `v` is `m * 2 ^ e` for a natural `m` and an integer `e`. Every real
number within half a unit in the last place of `v` reads back as `v`; the ends of that interval
read back as `v` exactly when `m` is even (reading rounds ties to even). The shortest digits of
`v` are the fewest significant decimal digits of a number inside that interval, and of the
numbers with that many digits the one nearest to `v`.

`Decimal.shortest` finds them with exact natural-number arithmetic. For `n = 1, 2, …, 17` it
looks at the two neighbours of `v` on the grid of `n`-digit decimals: if a point of a grid lies
in the interval, so does one of the two neighbours of `v` on it, so the first grid with a
neighbour inside gives the fewest digits, and the nearer neighbour the digits. An exact tie
between the two neighbours is broken by a `Tie` rule: towards the even one, or upwards.

The result is `(digits, exp)` with `v = 0.d₁d₂… × 10 ^ (exp + 1)` in the usual scientific
reading `d₁.d₂… × 10 ^ exp`, the digits without trailing zeros.
-/

namespace ShareBroker

namespace Decimal

/-- A positive rational `num / den` with both parts natural. -/
structure Ratio where
  num : Nat
  den : Nat

/-- The decimal exponent `E` with `10 ^ E ≤ r < 10 ^ (E + 1)`, for `0 < r`. -/
def Ratio.log10 (r : Ratio) : Int :=
  if r.den ≤ r.num then
    ((Nat.toDigits 10 (r.num / r.den)).length : Int) - 1
  else
    -- the least `j` with `num * 10 ^ j ≥ den`; at most the digit count of `den`
    let bound := (Nat.toDigits 10 r.den).length + 1
    let j := ((List.range (bound + 1)).find? (fun j => r.den ≤ r.num * Nat.pow 10 j)).getD bound
    Int.neg (j : Int)

/-- `d * 10 ^ k` compared with the rational `num / den`. -/
def cmpScaled (d : Nat) (k : Int) (num den : Nat) : Ordering :=
  if 0 ≤ k then compare (d * Nat.pow 10 k.toNat * den) num
  else compare (d * den) (num * Nat.pow 10 (-k).toNat)

/-- The parts of a finite positive double: `v = m * 2 ^ e`, and whether the gap below `v` is
half the gap above (at a power of two, except at the least normal exponent). -/
structure Parts where
  m : Nat
  e : Int
  narrowBelow : Bool

/-- Splits the bit pattern of a finite double into `Parts`; the sign is ignored. -/
def Parts.ofBits (bits : UInt64) : Parts :=
  let frac := (bits &&& 0xFFFFFFFFFFFFF).toNat
  let biased := ((bits >>> 52) &&& 0x7FF).toNat
  if biased = 0 then ⟨frac, -1074, false⟩
  else ⟨frac + Nat.pow 2 52, (biased : Int) - 1075, frac = 0 ∧ 1 < biased⟩

/-- The value `4 * v` and the bounds `4 * low`, `4 * high` of the reading interval, all over
one common denominator. -/
structure Interval where
  value : Nat
  low : Nat
  high : Nat
  den : Nat
  closed : Bool

/-- The reading interval of a double. -/
def Parts.interval (p : Parts) : Interval :=
  let scale := if 0 ≤ p.e then Nat.pow 2 p.e.toNat else 1
  let den := if 0 ≤ p.e then 4 else 4 * Nat.pow 2 (-p.e).toNat
  let low := if p.narrowBelow then 4 * p.m - 1 else 4 * p.m - 2
  ⟨4 * p.m * scale, low * scale, (4 * p.m + 2) * scale, den, p.m % 2 == 0⟩

/-- Whether `d * 10 ^ k` lies in the interval. -/
def Interval.contains (iv : Interval) (d : Nat) (k : Int) : Bool :=
  let aboveLow := match cmpScaled d k iv.low iv.den with
    | .gt => true
    | .eq => iv.closed
    | .lt => false
  let belowHigh := match cmpScaled d k iv.high iv.den with
    | .lt => true
    | .eq => iv.closed
    | .gt => false
  aboveLow && belowHigh

/-- The distance from `d * 10 ^ k` to the value, as a numerator over a denominator that
depends on `k` only. -/
def Interval.distance (iv : Interval) (d : Nat) (k : Int) : Nat :=
  if 0 ≤ k then
    let a := d * Nat.pow 10 k.toNat * iv.den
    if a ≤ iv.value then iv.value - a else a - iv.value
  else
    let a := d * iv.den
    let b := iv.value * Nat.pow 10 (-k).toNat
    if a ≤ b then b - a else a - b

/-- How an exact tie between the two nearest candidates is broken. -/
inductive Tie where
  /-- Towards the candidate whose last digit is even. -/
  | even
  /-- Towards the candidate of larger magnitude. -/
  | up
  deriving DecidableEq, Inhabited

/-- The chosen neighbour on the grid `10 ^ k`, if one of the two lies in the interval. -/
def Interval.pick (tie : Tie) (iv : Interval) (k : Int) : Option Nat :=
  let lo := if 0 ≤ k then iv.value / (iv.den * Nat.pow 10 k.toNat)
    else iv.value * Nat.pow 10 (-k).toNat / iv.den
  let hi := lo + 1
  match iv.contains lo k, iv.contains hi k with
  | true, true =>
    let dl := iv.distance lo k
    let dh := iv.distance hi k
    if dl < dh then some lo else if dh < dl then some hi
    else match tie with
      | .even => if lo % 2 == 0 then some lo else some hi
      | .up => some hi
  | true, false => some lo
  | false, true => some hi
  | false, false => none

/-- Drops trailing zeros of `d`, counting them. -/
def stripZeros (d : Nat) (k : Int) : Nat → Nat × Int
  | 0 => (d, k)
  | fuel + 1 => if d ≠ 0 ∧ d % 10 = 0 then stripZeros (d / 10) (k + 1) fuel else (d, k)

/-- The shortest digits and the scientific exponent of a finite, non-zero double given by
its bits, a tie broken by `tie`. -/
def shortest (tie : Tie) (bits : UInt64) : List Char × Int :=
  let p := Parts.ofBits bits
  let iv := p.interval
  let big := Ratio.log10 ⟨iv.value, iv.den⟩
  let grids := (List.range 17).map (fun (i : Nat) => big - (i : Int))
  let chosen := grids.findSome? (fun k => (iv.pick tie k).map (fun d => (d, k)))
  let (d, k) := chosen.getD (iv.value / iv.den, 0)
  let (d', k') := stripZeros d k 40
  let ds := Nat.toDigits 10 d'
  (ds, k' + (ds.length : Int) - 1)

end Decimal

end ShareBroker
