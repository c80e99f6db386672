/-! # IPv6 address text

`Ipv6.isAddress` decides whether a text is an IPv6 address in the usual notation:

* eight groups of one to four hex digits (either case, leading zeros allowed), separated by `:`;
* or fewer groups with a single `::` standing for at least one group of zeros;
* the last two groups may be written as a dotted IPv4 address: four decimal numbers up to
  255 of at most three digits, none with a leading zero, and such an IPv4 part may not come
  before the `::`.

There are no brackets, no zone (`%eth0`) and no blanks: the whole text must be the address.
Reading is greedy and backs up a whole group at a time, which is what makes `1::2:3` read as
head `1`, `::`, tail `2:3`.
-/

namespace ShareBroker

namespace Ipv6

/-- The value of a digit in the given radix (at most 16). -/
def digitValue (radix : Nat) (c : Char) : Option Nat :=
  let v :=
    if c.isDigit then some (c.toNat - '0'.toNat)
    else if 'a' ≤ c ∧ c ≤ 'z' then some (c.toNat - 'a'.toNat + 10)
    else if 'A' ≤ c ∧ c ≤ 'Z' then some (c.toNat - 'A'.toNat + 10)
    else none
  v.bind fun d => if d < radix then some d else none

/-- Reads a number of at most `maxDigits` digits whose value is at most `bound`; without
`zeroPrefix`, a number of several digits may not start with `0`. -/
def readNumber (radix maxDigits bound : Nat) (zeroPrefix : Bool) (cs : List Char) :
    Option (List Char) :=
  let ds := cs.takeWhile fun c => (digitValue radix c).isSome
  let value := ds.foldl (fun n c => radix * n + (digitValue radix c).getD 0) 0
  if ds.isEmpty ∨ maxDigits < ds.length ∨ bound < value then none
  else if !zeroPrefix ∧ ds.head? = some '0' ∧ 1 < ds.length then none
  else some (cs.drop ds.length)

/-- Takes one expected character. -/
def expect (c : Char) : List Char → Option (List Char)
  | d :: rest => if d = c then some rest else none
  | [] => none

/-- Reads a dotted IPv4 address. -/
def readIpv4 (cs : List Char) : Option (List Char) :=
  let octet := readNumber 10 3 255 false
  octet cs >>= expect '.' >>= octet >>= expect '.' >>= octet >>= expect '.' >>= octet

/-- Reads up to `slots` groups, group `i` onward, out of `limit`. Returns the number of groups
read, whether the last two were an IPv4 address, and the rest. -/
def readGroups (limit : Nat) : Nat → Nat → List Char → Nat × Bool × List Char
  | 0, i, cs => (i, false, cs)
  | slots + 1, i, cs =>
    let afterSep := if i = 0 then some cs else expect ':' cs
    let asIpv4 := if i + 1 < limit then afterSep >>= readIpv4 else none
    match asIpv4 with
    | some rest => (i + 2, true, rest)
    | none =>
      match afterSep >>= readNumber 16 4 0xFFFF true with
      | some rest => readGroups limit slots (i + 1) rest
      | none => (i, false, cs)

/-- Whether a text is exactly one IPv6 address. -/
def isAddressChars (cs : List Char) : Bool :=
  match readGroups 8 8 0 cs with
  | (8, _, rest) => rest.isEmpty
  | (_, true, _) => false
  | (head, false, rest) =>
    match rest with
    | ':' :: ':' :: tail =>
      let limit := 8 - (head + 1)
      match readGroups limit limit 0 tail with
      | (_, _, rest') => rest'.isEmpty
    | _ => false

/-- Whether a text is exactly one IPv6 address. -/
def isAddress (s : String) : Bool := isAddressChars s.toList

end Ipv6

end ShareBroker
