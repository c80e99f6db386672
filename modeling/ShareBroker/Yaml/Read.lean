import ShareBroker.Yaml.Event
import ShareBroker.Yaml.Basic
import ShareBroker.Decode.Error

/-! # Reading configuration documents

`Yaml.read` reads a text into one value:

* the whole text is parsed first (`Yaml.events`), so a malformed text fails with the parser's
  message and place even past the first document;
* a text with no document at all is `EOF while parsing a value`, and a text with more than one
  document is refused;
* the value is built from the events of the first document: a scalar tagged `!!bool`,
  `!!int`, `!!float` or `!!null` must read as one (any other tag gives a string), an untagged
  plain scalar is resolved by `Yaml.resolvePlain`, and other scalars are strings;
* an alias stands for the node its anchor names;
* collections nest at most 128 deep.

An error about a value names the path to it and its place.
-/

namespace ShareBroker

namespace Yaml

/-- Why a document could not be read. -/
inductive ReadError where
  /-- The text is malformed. -/
  | malformed (e : ScanError)
  /-- The text holds no document. -/
  | endOfStream
  /-- There is more than one document. -/
  | severalDocuments
  /-- Collections nest too deep. -/
  | recursionLimit
  /-- A tagged scalar does not read as its tag says, at a place and path. -/
  | invalid (what : String) (mark : Mark) (path : String)

/-- The message of a reading error. -/
def ReadError.message : ReadError → String
  | .malformed e => e.message
  | .endOfStream => "EOF while parsing a value"
  | .severalDocuments =>
    "deserializing from YAML containing more than one document is not supported"
  | .recursionLimit => "recursion limit exceeded"
  | .invalid what m path =>
    (if path = "." then what else path ++ ": " ++ what) ++ " at line " ++ toString m.line ++
      " column " ++ toString (m.col + 1)

/-- Where a value sits in a document. -/
inductive Path where
  | root
  | seq (parent : Path) (index : Nat)
  | map (parent : Path) (key : String)
  | alias (parent : Path)
  | unknown (parent : Path)

/-- The text of a path: `.` for the root, keys joined by `.`, and `[index]` right after the
path of its sequence (`.[0]` at the root, `a[1]` below a key). -/
def Path.render : Path → String
  | .root => "."
  | .seq p i => p.render ++ "[" ++ toString i ++ "]"
  | .map p k => (match p with | .root => "" | _ => p.render ++ ".") ++ k
  | .alias p => p.render
  | .unknown p => (match p with | .root => "" | _ => p.render ++ ".") ++ "?"

/-- A whole text as a signed 64-bit decimal integer, with an optional sign. -/
def signed64 (cs : List Char) : Option Int :=
  let (negative, ds) := match cs with
    | '-' :: rest => (true, rest)
    | '+' :: rest => (false, rest)
    | _ => (false, cs)
  if ds.isEmpty || !ds.all Char.isDigit then none
  else
    let n := Json.Reader.digitsValue ds
    if negative then (if n ≤ Nat.pow 2 63 then some (-(n : Int)) else none)
    else if n < Nat.pow 2 63 then some n else none

/-- The value of a scalar, from its text, style and tag. A tag `!!bool`, `!!int`, `!!float`
or `!!null` says how to read the text, whatever its style, and the text must read so; any
other tag gives a string. An untagged plain scalar is resolved by `resolvePlain`; other
untagged scalars are strings. -/
def scalarValue (text : String) (style : ScalarStyle) (tag : Option (String × String))
    (mark : Mark) (path : Path) : Except ReadError Yaml :=
  let refuse (e : DecodeError) : Except ReadError Yaml :=
    .error (.invalid e.message mark path.render)
  let expecting (what : String) : Except ReadError Yaml := refuse (.invalidValue (.str text) what)
  match tag with
  | none =>
    if style ≠ .plain then .ok (.str text)
    else match resolvePlain text with
      | .ok v => .ok v
      | .error u => refuse (.invalidType u "any YAML value")
  | some (handle, suffix) =>
    if handle ≠ "!!" then .ok (.str text)
    else if suffix = "bool" then
      if text = "true" then .ok (.bool true)
      else if text = "false" then .ok (.bool false)
      else expecting "a boolean"
    else if suffix = "int" then
      match signed64 text.toList with
      | some i => .ok (.int i)
      | none => expecting "an integer"
    else if suffix = "float" then
      match decimalDouble text.toList with
      | some x => .ok (.float x)
      | none => expecting "a float"
    else if suffix = "null" then
      if text = "~" || text = "null" then .ok .null else expecting "null"
    else .ok (.str text)

/-- The events of a text and, for each anchor number, where its node starts. -/
structure Loaded where
  events : Array (Event × Mark)
  anchors : List (Nat × Nat)

/-- The anchor number of an event that starts a node; `0` for none. -/
def Event.anchor : Event → Nat
  | .scalar _ _ a _ => a
  | .sequenceStart a => a
  | .mappingStart a => a
  | _ => 0

/-- Indexes the anchors of a list of events. -/
def Loaded.of (evs : List (Event × Mark)) : Loaded :=
  let indexed : List (Nat × (Event × Mark)) := (List.range evs.length).zip evs
  { events := evs.toArray,
    anchors := indexed.filterMap fun ie =>
      if ie.2.1.anchor = 0 then none else some (ie.2.1.anchor, ie.1) }

mutual

/-- The value of the node whose event is at `pos`, and the position after it. `depth` is how
many more collections may open. -/
def node (ld : Loaded) : Nat → Nat → Path → Nat → Except ReadError (Yaml × Nat)
  | 0, _, _, _ => .error .recursionLimit
  | fuel + 1, pos, path, depth =>
    match ld.events[pos]? with
    | some (.alias a, _) =>
      match ld.anchors.lookup a with
      | some target => do
        let (v, _) ← node ld fuel target (.alias path) depth
        pure (v, pos + 1)
      | none => .error .endOfStream
    | some (.scalar text style _ tag, mark) => do
      pure (← scalarValue text style tag mark path, pos + 1)
    | some (.sequenceStart _, _) =>
      if depth = 0 then .error .recursionLimit else items ld fuel (pos + 1) path (depth - 1) 0 []
    | some (.mappingStart _, _) =>
      if depth = 0 then .error .recursionLimit else entries ld fuel (pos + 1) path (depth - 1) []
    | _ => .error .endOfStream

/-- The items of a sequence from `pos` to its end. -/
def items (ld : Loaded) : Nat → Nat → Path → Nat → Nat → List Yaml → Except ReadError (Yaml × Nat)
  | 0, _, _, _, _, _ => .error .recursionLimit
  | fuel + 1, pos, path, depth, i, acc =>
    match ld.events[pos]? with
    | some (.sequenceEnd, _) => .ok (.seq acc.reverse, pos + 1)
    | some _ => do
      let (v, next) ← node ld fuel pos (.seq path i) depth
      items ld fuel next path depth (i + 1) (v :: acc)
    | none => .error .endOfStream

/-- The entries of a mapping from `pos` to its end; a key written again replaces its value. -/
def entries (ld : Loaded) : Nat → Nat → Path → Nat → List (Yaml × Yaml) →
    Except ReadError (Yaml × Nat)
  | 0, _, _, _, _ => .error .recursionLimit
  | fuel + 1, pos, path, depth, acc =>
    match ld.events[pos]? with
    | some (.mappingEnd, _) => .ok (.map acc, pos + 1)
    | some (e, _) => do
      let valuePath := match e with
        | .scalar t _ _ _ => Path.map path t
        | _ => .unknown path
      let (k, next) ← node ld fuel pos path depth
      let (v, next) ← node ld fuel next valuePath depth
      entries ld fuel next path depth (insertEntry k v (sameKey k) acc)
    | none => .error .endOfStream

end

/-- Reads a text holding one document. -/
def read (s : String) : Except ReadError Yaml := do
  let evs ← match events s with
    | .ok evs => pure evs
    | .error e => throw (.malformed e)
  if evs.isEmpty then throw .endOfStream
  let (v, next) ← node (Loaded.of evs) (130 * (evs.length + 2)) 0 .root 128
  if next = evs.length then pure v else throw .severalDocuments

end Yaml

end ShareBroker
