/-! # JSON values

`Json` is the value type behind every structured text this library reads or writes: records
stored one field per databag key, cached scope snapshots, inline secrets and the tagged form
of host events.

Numbers keep the distinction a reader makes between integers and floating-point values:
an integer that fits a machine word stays exact, anything else is a double. Objects are
association lists. The reader hands out objects with sorted, distinct keys (the order of a
sorted map, the last duplicate winning); records built by hand keep the field order they are
given, which is the order their writer emits.

The main operations are

* `Json.Fields.insert` — put a field into a sorted object, replacing an equal key;
* `Json.Fields.normalize` — the sorted, duplicate-free form of an object read from text;
* `Json.Fields.find?` — look a field up.
-/

namespace ShareBroker

/-- A JSON number: an integer that fits a 64-bit word (signed or unsigned), or a double. -/
inductive JsonNumber where
  | int (i : Int)
  | float (x : Float)

/-- A JSON value. -/
inductive Json where
  | null
  | bool (b : Bool)
  | num (n : JsonNumber)
  | str (s : String)
  | arr (items : List Json)
  | obj (fields : List (String × Json))

namespace Json

instance : Inhabited Json := ⟨.null⟩

/-- The fields of a JSON object, in the order they are held. -/
abbrev Fields := List (String × Json)

namespace Fields

/-- Puts `k ↦ v` into a key-sorted field list, replacing the value of an equal key. -/
def insert (k : String) (v : Json) : Fields → Fields
  | [] => [(k, v)]
  | (k', v') :: rest =>
    if k < k' then (k, v) :: (k', v') :: rest
    else if k = k' then (k, v) :: rest
    else (k', v') :: insert k v rest

/-- The sorted map of a field list read in order: keys sorted, a later duplicate winning. -/
def normalize (fs : Fields) : Fields :=
  fs.foldl (fun acc kv => insert kv.1 kv.2 acc) []

/-- The value held under `k`, if any (the first one, for a list that repeats keys). -/
def find? (fs : Fields) (k : String) : Option Json :=
  (List.find? (fun kv => kv.1 == k) fs).map (·.2)

end Fields

/-- An integer value. -/
def ofInt (i : Int) : Json := .num (.int i)

/-- An array of strings. -/
def ofStrings (xs : List String) : Json := .arr (xs.map .str)

/-- A string, or `null` for none. -/
def ofOption (o : Option String) : Json := match o with
  | some s => .str s
  | none => .null

/-- Field `k` of an object, or `none` for a missing field or a value that is not an object. -/
def field? (j : Json) (k : String) : Option Json := match j with
  | .obj fs => Fields.find? fs k
  | _ => none

/-- The string held, if this is a string. -/
def str? : Json → Option String
  | .str s => some s
  | _ => none

end Json

end ShareBroker
