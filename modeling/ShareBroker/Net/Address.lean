import ShareBroker.Net.Ipv6

/-! # Network addresses

A server address is written in one of these forms:

* a bare IPv6 address (`2001:db8::1`), taken whole, with no port, since its colons leave a
  port ambiguous;
* a host name or IPv4 address, a run of characters other than `:`, `[` and `]`, optionally
  followed by `:port`;
* a bracketed host (`[fe80::1%eth0]`), whatever stands up to the first `]`, optionally followed
  by `:port`.

A port is `:` and a run of ASCII digits whose value fits 16 bits. A `:` that is not followed
by such a port is left unread. Whatever is left unread makes the address invalid
(`AddressError.trailing`), and so does an empty host (`AddressError.emptyHost`), in that order.
-/

namespace ShareBroker

/-- Why a text is not a server address. -/
inductive AddressError where
  /-- `rest` was left after the host and port. -/
  | trailing (rest : String)
  /-- The host is empty. -/
  | emptyHost
  /-- The host carries a port, where the port belongs in a field of its own. -/
  | portInHost

namespace AddressError

/-- The reason shown in messages. -/
def reason : AddressError → String
  | .trailing rest => "unexpected trailing data `" ++ rest ++ "`"
  | .emptyHost => "empty host"
  | .portInHost => "the port must be given separately"

end AddressError

/-- A server address: a host and an optional port. -/
structure Address where
  host : String
  port : Option UInt16

namespace Address

/-- The value of a run of ASCII digits. -/
def digitsValue (ds : List Char) : Nat :=
  ds.foldl (fun n d => 10 * n + (d.toNat - '0'.toNat)) 0

/-- Reads an optional `:port`; on any failure nothing is read. -/
def readPort (cs : List Char) : Option UInt16 × List Char :=
  match cs with
  | ':' :: rest =>
    let ds := rest.takeWhile Char.isDigit
    if ds.isEmpty ∨ 65535 < digitsValue ds then (none, cs)
    else (some (digitsValue ds).toUInt16, rest.dropWhile Char.isDigit)
  | _ => (none, cs)

/-- Reads the host part: a bracketed host, or a run of characters other than `:`, `[`, `]`. -/
def readHost (cs : List Char) : List Char × List Char :=
  match cs with
  | '[' :: rest =>
    if rest.contains ']' then
      (rest.takeWhile (· ≠ ']'), (rest.dropWhile (· ≠ ']')).drop 1)
    else ([], cs)
  | _ =>
    let plain (c : Char) : Bool := c ≠ ':' ∧ c ≠ '[' ∧ c ≠ ']'
    (cs.takeWhile plain, cs.dropWhile plain)

/-- Reads a server address. -/
def parse (s : String) : Except AddressError Address :=
  if Ipv6.isAddress s then .ok ⟨s, none⟩
  else
    let (host, afterHost) := readHost s.toList
    let (port, rest) := readPort afterHost
    if !rest.isEmpty then .error (.trailing (String.ofList rest))
    else if host.isEmpty then .error .emptyHost
    else .ok ⟨String.ofList host, port⟩

end Address

end ShareBroker
