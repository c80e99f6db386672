import ShareBroker.Record.Types
import ShareBroker.Transaction
import ShareBroker.Error
import ShareBroker.Json.Read

/-! # Records stored one field per key

A record is stored in a databag one field per key, each value the compact JSON text of the
field, so that the other side can read a single field without decoding the whole record.

* `Record.save` flattens a JSON object; anything but an object is refused.
* `Record.fields` reads the fields back, skipping reserved keys; a value that is not JSON text
  fails with the reading error of that field.
* `Record.load` decodes a typed record from them.
* `Record.flag` is how a boolean is published: `true` or `false`.
-/

namespace ShareBroker

namespace Record

/-- Flattens a JSON object into databag entries. -/
def save (j : Json) : Outcome Databag :=
  match j with
  | .obj fs => .ok (Databag.ofList (fs.map fun kv => (kv.1, kv.2.write)))
  | other => .error (.invalidRecord ("expected a record, got `" ++ other.write ++ "`"))

/-- Reads the non-reserved entries of a databag back into a JSON object. -/
def fields (d : Databag) : Outcome Json := do
  let fs ← (dataOnly d).entries.mapM fun kv =>
    match Json.read kv.2 with
    | .ok v => .ok (kv.1, v)
    | .error e => .error (.invalidRecord ("field `" ++ kv.1 ++ "`: " ++ e.message))
  pure (.obj fs)

/-- Decodes a typed record from databag entries. -/
def load {α : Type} (decode : Json → Except DecodeError α) (d : Databag) : Outcome α := do
  match decode (← fields d) with
  | .ok v => .ok v
  | .error e => .error (.invalidRecord e.message)

/-- How a boolean is published. -/
def flag (b : Bool) : String := if b then "true" else "false"

end Record

end ShareBroker
