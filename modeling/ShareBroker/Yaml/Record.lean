import ShareBroker.Yaml.Basic
import ShareBroker.Decode.Error

/-! # Records read from YAML values

A record is read from a YAML value field by field:

* from a mapping, entry by entry in the mapping's order: every key must be a string, a key
  that names a field has its value checked at once, and other keys are skipped;
* from a sequence holding the field values in declaration order; items beyond the fields are
  refused, and fields past the end are absent;
* any other value is refused as `struct <Name>`.

Every field may be absent; `Yaml.Met.get?` then answers `none` and the record supplies its
default. In messages, null is a `unit value`.
-/

namespace ShareBroker

namespace Yaml

/-- What a YAML value is, for a message. -/
def unexpected : Yaml → Unexpected
  | .null => .unit
  | .bool b => .bool b
  | .int i => .int i
  | .float x => .float x
  | .str s => .str s
  | .seq _ => .seq
  | .map _ => .map

/-- An optional text: null is absent. -/
def optString : Yaml → Except DecodeError (Option String)
  | .null => .ok none
  | .str s => .ok (some s)
  | v => .error (.invalidType v.unexpected "a string")

/-- An optional port: null is absent, and an integer must lie in `0 … 65535`. -/
def optPort : Yaml → Except DecodeError (Option UInt16)
  | .null => .ok none
  | .int i =>
    if 0 ≤ i ∧ i < 65536 then .ok (some i.toNat.toUInt16)
    else .error (.invalidValue (.int i) "u16")
  | v => .error (.invalidType v.unexpected "u16")

/-- A flag. -/
def flag : Yaml → Except DecodeError Bool
  | .bool b => .ok b
  | v => .error (.invalidType v.unexpected "a boolean")

/-- A field of a record: its key and the check its value must pass. -/
structure FieldRule where
  key : String
  check : Yaml → Except DecodeError Unit

namespace FieldRule

/-- A field holding an optional text. -/
def text (key : String) : FieldRule := ⟨key, fun v => (optString v).map fun _ => ()⟩

/-- A field holding an optional port. -/
def port (key : String) : FieldRule := ⟨key, fun v => (optPort v).map fun _ => ()⟩

/-- A field holding a flag. -/
def flag (key : String) : FieldRule := ⟨key, fun v => (Yaml.flag v).map fun _ => ()⟩

end FieldRule

/-- The fields met while reading a record, with their checked values. -/
abbrev Met := List (String × Yaml)

namespace Met

/-- The value met for a key. -/
def get? (met : Met) (key : String) : Option Yaml := (met.find? (·.1 == key)).map (·.2)

/-- The optional text of a field; absent when not met. -/
def text (met : Met) (key : String) : Except DecodeError (Option String) :=
  match met.get? key with
  | some v => optString v
  | none => .ok none

/-- The optional port of a field; absent when not met. -/
def port (met : Met) (key : String) : Except DecodeError (Option UInt16) :=
  match met.get? key with
  | some v => optPort v
  | none => .ok none

/-- The flag of a field; `false` when not met. -/
def flag (met : Met) (key : String) : Except DecodeError Bool :=
  match met.get? key with
  | some v => Yaml.flag v
  | none => .ok false

end Met

/-- Reads the fields of a record from mapping entries, in their order. -/
def fieldsOfEntries (rules : List FieldRule) : List (Yaml × Yaml) → Met → Except DecodeError Met
  | [], acc => .ok acc.reverse
  | (k, v) :: rest, acc =>
    match k with
    | .str name =>
      match rules.find? (·.key == name) with
      | some r => do
        r.check v
        fieldsOfEntries rules rest ((name, v) :: acc)
      | none => fieldsOfEntries rules rest acc
    | other => .error (.invalidType other.unexpected "field identifier")

/-- Reads the fields of a record from sequence items, in declaration order; `total` is the
number of items. -/
def fieldsOfItems (total : Nat) : List FieldRule → List Yaml → Met → Except DecodeError Met
  | _, [], acc => .ok acc.reverse
  | [], _ :: _, _ => .error (.invalidLength total "fewer elements in sequence")
  | r :: rs, x :: xs, acc => do
    r.check x
    fieldsOfItems total rs xs ((r.key, x) :: acc)

/-- Reads the fields of the record `name` from a value. -/
def fields (name : String) (rules : List FieldRule) : Yaml → Except DecodeError Met
  | .map es => fieldsOfEntries rules es []
  | .seq xs => fieldsOfItems xs.length rules xs []
  | other => .error (.invalidType other.unexpected ("struct " ++ name))

end Yaml

end ShareBroker
