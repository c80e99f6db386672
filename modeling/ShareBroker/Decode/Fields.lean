import ShareBroker.Json.Basic
import ShareBroker.Decode.Error

/-! # Decoding records from JSON objects

A record is decoded from a JSON object field by field, in the order the object holds its
fields. A field of the schema is checked when it is met, so the first ill-typed field in the
object's order is the error reported; a field met twice is an error; a field outside the schema
is skipped, or refused for a closed schema. Only when every field has been met are absent
required fields reported, the first in the schema's order.

`Fields.collect` does the walk and returns each schema field's value, if present.
`Json.decodeString`, `Json.decodeBool` and `Json.decodeStrings` check one field.
-/

namespace ShareBroker

namespace Json

/-- A string field. -/
def decodeString (j : Json) : Except DecodeError String :=
  match j with
  | .str s => .ok s
  | other => .error (.invalidType (Unexpected.ofJson other) "a string")

/-- A boolean field. -/
def decodeBool (j : Json) : Except DecodeError Bool :=
  match j with
  | .bool b => .ok b
  | other => .error (.invalidType (Unexpected.ofJson other) "a boolean")

/-- A list of strings. -/
def decodeStrings (j : Json) : Except DecodeError (List String) :=
  match j with
  | .arr xs => xs.mapM decodeString
  | other => .error (.invalidType (Unexpected.ofJson other) "a sequence")

/-- An optional string: `null` is none. -/
def decodeOptString (j : Json) : Except DecodeError (Option String) :=
  match j with
  | .null => .ok none
  | other => (decodeString other).map some

end Json

/-- One field of a record schema: its name and the check of its value. -/
structure FieldSpec where
  name : String
  check : Json → Except DecodeError Unit

namespace Fields

/-- Walks an object's fields in order, checking each schema field once; returns the values
met, by schema field name. A field outside the schema is refused when `closed`. -/
def collect (schema : List FieldSpec) (closed : Bool) :
    Json.Fields → List (String × Json) → Except DecodeError (List (String × Json))
  | [], acc => .ok acc.reverse
  | (k, v) :: rest, acc =>
    match schema.find? (·.name == k) with
    | some spec =>
      if acc.any (·.1 == k) then .error (.duplicateField k)
      else match spec.check v with
        | .ok () => collect schema closed rest ((k, v) :: acc)
        | .error e => .error e
    | none =>
      if closed then .error (.unknownField k (schema.map (·.name)))
      else collect schema closed rest acc

/-- The value met for a field, if any. -/
def lookup (met : List (String × Json)) (k : String) : Option Json :=
  (met.find? (·.1 == k)).map (·.2)

/-- The value of a required field, or the missing-field error. -/
def required (met : List (String × Json)) (k : String) : Except DecodeError Json :=
  match lookup met k with
  | some v => .ok v
  | none => .error (.missingField k)

end Fields

/-- The check of a string field. -/
def FieldSpec.string (name : String) : FieldSpec := ⟨name, fun j => (Json.decodeString j).map fun _ => ()⟩

/-- The check of a boolean field. -/
def FieldSpec.bool (name : String) : FieldSpec := ⟨name, fun j => (Json.decodeBool j).map fun _ => ()⟩

/-- The check of a list-of-strings field. -/
def FieldSpec.strings (name : String) : FieldSpec :=
  ⟨name, fun j => (Json.decodeStrings j).map fun _ => ()⟩

/-- The check of an optional string field. -/
def FieldSpec.optString (name : String) : FieldSpec :=
  ⟨name, fun j => (Json.decodeOptString j).map fun _ => ()⟩

end ShareBroker
