import ShareBroker.Yaml.Record
import ShareBroker.Error

/-! # Charm configuration

A charm's configuration is one YAML value, null until it is first set. `Config.load` reads a
record out of it: null counts as an empty mapping, so that every field takes its default, and
a value that does not fit the record is a YAML error.
-/

namespace ShareBroker

namespace Config

/-- Reads the fields of the record `name` from a configuration value. -/
def load {α : Type} (name : String) (rules : List Yaml.FieldRule)
    (build : Yaml.Met → Except DecodeError α) (config : Yaml) : Outcome α :=
  let value := match config with
    | .null => .map []
    | v => v
  match Yaml.fields name rules value >>= build with
  | .ok r => .ok r
  | .error e => .error (.yaml e.message)

end Config

end ShareBroker
