import ShareBroker.Json.Write
import ShareBroker.Text.Quoted

/-! # Errors of typed decoding

Reading a typed record out of a JSON or YAML value fails for a handful of reasons, each with a
fixed message:

* a value of the wrong kind: `invalid type: integer `5`, expected a string`;
* a value of the right kind out of range: `invalid value: integer `70000`, expected u16`;
* a required field absent: ``missing field `app` ``;
* a field or variant name not in the schema, listed with the names allowed;
* a field given twice;
* a rule of the record itself, with its own text.

Name lists read `` `a` `` for one name, `` `a` or `b` `` for two, and `one of `a`, `b`, `c`` for
more.
-/

namespace ShareBroker

/-- What a decoder found where it expected something else. A null and a double are named
in two ways: as JSON text names them (`null`, `1e-7`), and in the generic way of YAML
documents (`unit value`, `0.0000001`). -/
inductive Unexpected where
  /-- A JSON null. -/
  | null
  /-- A YAML null. -/
  | unit
  | bool (b : Bool)
  | int (i : Int)
  /-- A double of a YAML document. -/
  | float (x : Float)
  /-- A double of JSON text. -/
  | jsonFloat (x : Float)
  | str (s : String)
  | seq
  | map
  /-- Any other description, given in full. -/
  | other (text : String)

namespace Unexpected

/-- A double as messages show it: plain decimal digits with a point (`1.5`, `100.0`), or
`NaN`, `inf`, `-inf`. -/
def showFloat (x : Float) : String :=
  match FloatLayout.plain.render x with
  | some s => s
  | none => if x.isNaN then "NaN" else if x < 0 then "-inf" else "inf"

/-- A double as JSON text writes it (`1e-7`, `0.00001`, `1e+16`), or `NaN`, `inf`, `-inf`. -/
def showJsonFloat (x : Float) : String :=
  match FloatLayout.record.render x with
  | some s => s
  | none => if x.isNaN then "NaN" else if x < 0 then "-inf" else "inf"

/-- The description used in messages. -/
def describe : Unexpected → String
  | .null => "null"
  | .unit => "unit value"
  | .bool b => "boolean `" ++ (if b then "true" else "false") ++ "`"
  | .int i => "integer `" ++ toString i ++ "`"
  | .float x => "floating point `" ++ showFloat x ++ "`"
  | .jsonFloat x => "floating point `" ++ showJsonFloat x ++ "`"
  | .str s => "string " ++ Text.quoted s
  | .seq => "sequence"
  | .map => "map"
  | .other t => t

/-- What a JSON value is, for a message. -/
def ofJson : Json → Unexpected
  | .null => .null
  | .bool b => .bool b
  | .num (.int i) => .int i
  | .num (.float x) => .jsonFloat x
  | .str s => .str s
  | .arr _ => .seq
  | .obj _ => .map

end Unexpected

/-- A list of allowed names, as messages show it. -/
def oneOf (names : List String) : String :=
  match names with
  | [a] => "`" ++ a ++ "`"
  | [a, b] => "`" ++ a ++ "` or `" ++ b ++ "`"
  | _ => "one of " ++ ", ".intercalate (names.map fun n => "`" ++ n ++ "`")

/-- Why a typed record could not be decoded. -/
inductive DecodeError where
  | invalidType (found : Unexpected) (expected : String)
  | invalidValue (found : Unexpected) (expected : String)
  | missingField (name : String)
  | unknownField (name : String) (allowed : List String)
  | unknownVariant (name : String) (allowed : List String)
  | duplicateField (name : String)
  | invalidLength (length : Nat) (expected : String)
  | custom (text : String)

namespace DecodeError

/-- The message of a decoding error. -/
def message : DecodeError → String
  | .invalidType u e => "invalid type: " ++ u.describe ++ ", expected " ++ e
  | .invalidValue u e => "invalid value: " ++ u.describe ++ ", expected " ++ e
  | .missingField n => "missing field `" ++ n ++ "`"
  | .unknownField n [] => "unknown field `" ++ n ++ "`, there are no fields"
  | .unknownField n ns => "unknown field `" ++ n ++ "`, expected " ++ oneOf ns
  | .unknownVariant n [] => "unknown variant `" ++ n ++ "`, there are no variants"
  | .unknownVariant n ns => "unknown variant `" ++ n ++ "`, expected " ++ oneOf ns
  | .duplicateField n => "duplicate field `" ++ n ++ "`"
  | .invalidLength n e => "invalid length " ++ toString n ++ ", expected " ++ e
  | .custom t => t

end DecodeError

end ShareBroker
