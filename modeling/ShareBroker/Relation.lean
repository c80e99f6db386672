import ShareBroker.Text.Quoted

/-! # Relation ids

A relation is named by its endpoint and a number, written `endpoint:id`, for example
`mount:3`. The grammar is exact:

* the endpoint is a non-empty run of characters other than `:`;
* a single `:` follows;
* the id is a non-empty run of ASCII digits (leading zeros allowed) whose value is below
  `2 ^ 32`;
* nothing follows.

`Relation.parse` reads that form and `Relation.toString` writes it back. A failure says where
reading stopped and which part was expected there (`RelationIdError.stopped`), or that text was
left over (`RelationIdError.trailing`).
-/

namespace ShareBroker

/-- A relation: its endpoint and its number. -/
structure Relation where
  endpoint : String
  id : UInt32
  deriving DecidableEq, Inhabited

namespace Relation

/-- The written form `endpoint:id`. -/
protected def toString (r : Relation) : String :=
  r.endpoint ++ ":" ++ toString r.id.toNat

instance : ToString Relation := ⟨Relation.toString⟩

/-- Relations in order of endpoint, then id. -/
def lt (a b : Relation) : Bool :=
  a.endpoint < b.endpoint ∨ (a.endpoint = b.endpoint ∧ a.id.toNat < b.id.toNat)

end Relation

/-- The part of a relation id that reading expected where it stopped. -/
inductive RelationPart where
  /-- the endpoint name (at least one character) -/
  | endpoint
  /-- the `:` separator -/
  | separator
  /-- the digits of the id -/
  | digits
  /-- an id below `2 ^ 32` -/
  | range

/-- Why a text is not a relation id. -/
inductive RelationIdError where
  /-- Reading stopped with `rest` left, expecting `part`. -/
  | stopped (rest : String) (part : RelationPart)
  /-- A whole relation id was read and `rest` was left over. -/
  | trailing (rest : String)

namespace RelationIdError

/-- The name under which a parser reports the part it expected. -/
def partName : RelationPart → String
  | .endpoint => "TakeTill1"
  | .separator => "Char"
  | .digits => "Digit"
  | .range => "MapRes"

/-- The message of a relation id error. -/
def message : RelationIdError → String
  | .stopped rest part =>
    "Couldn't parse relation id: Error((" ++ Text.quoted rest ++ ", " ++ partName part ++ "))"
  | .trailing rest => "Got extra data at end of relation id: `" ++ rest ++ "`"

end RelationIdError

namespace Relation

/-- The value of a run of ASCII digits. -/
def digitsValue (ds : List Char) : Nat :=
  ds.foldl (fun n d => 10 * n + (d.toNat - '0'.toNat)) 0

/-- Reads `endpoint:id` from a list of characters. -/
def parseChars (cs : List Char) : Except RelationIdError Relation :=
  let name := cs.takeWhile (· ≠ ':')
  let afterName := cs.dropWhile (· ≠ ':')
  if name.isEmpty then .error (.stopped (String.ofList cs) .endpoint)
  else match afterName with
    | ':' :: afterSep =>
      let ds := afterSep.takeWhile Char.isDigit
      let rest := afterSep.dropWhile Char.isDigit
      if ds.isEmpty then .error (.stopped (String.ofList afterSep) .digits)
      else if digitsValue ds < Nat.pow 2 32 then
        if rest.isEmpty then .ok ⟨String.ofList name, (digitsValue ds).toUInt32⟩
        else .error (.trailing (String.ofList rest))
      else .error (.stopped (String.ofList afterSep) .range)
    | _ => .error (.stopped (String.ofList afterName) .separator)

/-- Reads a relation id `endpoint:id`. -/
def parse (s : String) : Except RelationIdError Relation :=
  parseChars s.toList

end Relation

end ShareBroker
