import ShareBroker.Relation
import ShareBroker.Error
import ShareBroker.Decode.Fields

/-! # Host events

The host delivers one event per hook: a lifecycle event, or a relation event naming the
relation and the remote application (and for some kinds the remote unit).

`HostEvent.ofHook` classifies a hook name. The six lifecycle hooks have fixed names; any other
name is a relation hook when the text after its last `-relation-` is `created`, `joined`,
`changed`, `departed` or `broken`. The relation id is required and read before the kind is
looked at; the remote application is the one given, or else the part of the remote unit
before its first `/`. Other names are no event.

The tagged JSON form of an event (`HostEvent.toJson`, `HostEvent.ofJson`) names the kind under
`event` in kebab case and the other fields beside it; relation events refuse fields outside
their kind, lifecycle events ignore them. An array is read positionally: the kind, then the
fields of the kind in order, where an optional field may be left out at the end and no item
may follow the fields.
-/

namespace ShareBroker

/-- An event delivered by the host. -/
inductive HostEvent where
  | install
  | start
  | configChanged
  | updateStatus
  | upgradeCharm
  | leaderElected
  | relationCreated (relation : Relation) (app : String)
  | relationJoined (relation : Relation) (app : String) (unit : String)
  | relationChanged (relation : Relation) (app : String) (unit : Option String)
  | relationDeparted (relation : Relation) (app : String) (unit : String)
  | relationBroken (relation : Relation) (app : Option String)
  deriving DecidableEq, Inhabited

/-- The values the host sets for a relation hook. -/
structure HookEnv where
  relationId : Option String := none
  remoteUnit : Option String := none
  remoteApp : Option String := none

namespace HookEnv

/-- The remote application: the one given, or the remote unit's application. -/
def app (env : HookEnv) : Option String :=
  match env.remoteApp with
  | some a => some a
  | none => env.remoteUnit.map fun u => String.ofList (u.toList.takeWhile (· ≠ '/'))

/-- The relation of a relation hook. -/
def relation (env : HookEnv) (hook : String) : Outcome Relation :=
  match env.relationId with
  | none => .error (.invalidRecord ("`" ++ hook ++ "` hook without JUJU_RELATION_ID"))
  | some id => match Relation.parse id with
    | .ok r => .ok r
    | .error e => .error (.invalidRecord e.message)

/-- The remote application, which the hook requires. -/
def requireApp (env : HookEnv) (hook : String) : Outcome String :=
  match env.app with
  | some a => .ok a
  | none => .error (.invalidRecord ("`" ++ hook ++ "` hook without a remote application"))

/-- The remote unit, which the hook requires. -/
def requireUnit (env : HookEnv) (hook : String) : Outcome String :=
  match env.remoteUnit with
  | some u => .ok u
  | none => .error (.invalidRecord ("`" ++ hook ++ "` hook without JUJU_REMOTE_UNIT"))

end HookEnv

namespace HostEvent

/-- The text after the last occurrence of `-relation-`, if any. -/
def relationKind (hook : String) : Option String :=
  let marker := "-relation-".toList
  let rec go : List Char → Option (List Char) → Option (List Char)
    | [], found => found
    | c :: rest, found =>
      let found' := if marker.isPrefixOf (c :: rest) then some (rest.drop (marker.length - 1))
        else found
      go rest found'
  (go hook.toList none).map String.ofList

/-- The event of the relation hook `hook` of kind `kind` on the relation `r`, or none for a
kind no charm reacts to. -/
def ofRelationHook (hook kind : String) (env : HookEnv) (r : Relation) :
    Outcome (Option HostEvent) :=
  match kind with
  | "created" => do pure (some (.relationCreated r (← env.requireApp hook)))
  | "joined" => do
    let a ← env.requireApp hook
    pure (some (.relationJoined r a (← env.requireUnit hook)))
  | "changed" => do pure (some (.relationChanged r (← env.requireApp hook) env.remoteUnit))
  | "departed" => do
    let a ← env.requireApp hook
    pure (some (.relationDeparted r a (← env.requireUnit hook)))
  | "broken" => pure (some (.relationBroken r env.app))
  | _ => pure none

/-- The event of a hook, or none for a hook no charm reacts to. -/
def ofHook (hook : String) (env : HookEnv) : Outcome (Option HostEvent) :=
  match hook with
  | "install" => .ok (some .install)
  | "start" => .ok (some .start)
  | "config-changed" => .ok (some .configChanged)
  | "update-status" => .ok (some .updateStatus)
  | "upgrade-charm" => .ok (some .upgradeCharm)
  | "leader-elected" => .ok (some .leaderElected)
  | _ =>
    match relationKind hook with
    | none => .ok none
    | some kind => do ofRelationHook hook kind env (← env.relation hook)

/-- The relation an event concerns, if any. -/
def relation? : HostEvent → Option Relation
  | .relationCreated r _ | .relationJoined r _ _ | .relationChanged r _ _
  | .relationDeparted r _ _ | .relationBroken r _ => some r
  | _ => none

/-- The relation an event concerns, if it is on `endpoint`. -/
def relationOn (e : HostEvent) (endpoint : String) : Option Relation :=
  (e.relation?).filter (·.endpoint == endpoint)

/-- The names of the kinds, in order. -/
def kindNames : List String :=
  ["install", "start", "config-changed", "update-status", "upgrade-charm", "leader-elected",
   "relation-created", "relation-joined", "relation-changed", "relation-departed",
   "relation-broken"]

/-- The tagged JSON form. -/
def toJson : HostEvent → Json
  | .install => .obj [("event", .str "install")]
  | .start => .obj [("event", .str "start")]
  | .configChanged => .obj [("event", .str "config-changed")]
  | .updateStatus => .obj [("event", .str "update-status")]
  | .upgradeCharm => .obj [("event", .str "upgrade-charm")]
  | .leaderElected => .obj [("event", .str "leader-elected")]
  | .relationCreated r a =>
    .obj [("event", .str "relation-created"), ("relation", .str r.toString), ("app", .str a)]
  | .relationJoined r a u => .obj [("event", .str "relation-joined"),
      ("relation", .str r.toString), ("app", .str a), ("unit", .str u)]
  | .relationChanged r a u => .obj [("event", .str "relation-changed"),
      ("relation", .str r.toString), ("app", .str a), ("unit", Json.ofOption u)]
  | .relationDeparted r a u => .obj [("event", .str "relation-departed"),
      ("relation", .str r.toString), ("app", .str a), ("unit", .str u)]
  | .relationBroken r a => .obj [("event", .str "relation-broken"),
      ("relation", .str r.toString), ("app", Json.ofOption a)]

/-- A string field of a relation event. -/
def fieldString (j : Json) : Except DecodeError String :=
  match j with
  | .str s => .ok s
  | other => .error (.invalidType (Unexpected.ofJson other) "a string")

/-- An optional string field of a relation event. -/
def fieldOptString (j : Json) : Except DecodeError (Option String) :=
  match j with
  | .null => .ok none
  | other => (fieldString other).map some

/-- The relation field of a relation event. -/
def fieldRelation (j : Json) : Except DecodeError Relation := do
  let s ← fieldString j
  match Relation.parse s with
  | .ok r => pure r
  | .error e => .error (.custom ("Error deserializing Relation: " ++ e.message))

/-- Checks the fields of a relation event, in the object's order; returns the fields met.
`optional` names the fields that may be `null`. -/
def collectFields (names optional : List String) : Json.Fields → List (String × Json) →
    Except DecodeError (List (String × Json))
  | [], acc => .ok acc.reverse
  | (k, v) :: rest, acc =>
    if names.contains k then
      if acc.any (·.1 == k) then .error (.duplicateField k)
      else
        let checked : Except DecodeError Unit :=
          if k == "relation" then (fieldRelation v).map fun _ => ()
          else if optional.contains k then (fieldOptString v).map fun _ => ()
          else (fieldString v).map fun _ => ()
        match checked with
        | .ok () => collectFields names optional rest ((k, v) :: acc)
        | .error e => .error e
    else .error (.unknownField k names)

/-- The variant named by the tag value; only a string names one. -/
def variantOf (tag : Json) : Except DecodeError Nat :=
  match tag with
  | .str s => match kindNames.idxOf? s with
    | some i => .ok i
    | none => .error (.unknownVariant s kindNames)
  | other => .error (.invalidType (Unexpected.ofJson other) "variant identifier")

/-- A field of a relation event in the positional form: its check, and whether it may be
left out at the end. -/
structure Slot where
  check : Json → Except DecodeError Unit
  optional : Bool

/-- The relation field. -/
def Slot.relation : Slot := ⟨fun j => (fieldRelation j).map fun _ => (), false⟩

/-- A required string field. -/
def Slot.text : Slot := ⟨fun j => (fieldString j).map fun _ => (), false⟩

/-- A string field that may be `null` or left out. -/
def Slot.optText : Slot := ⟨fun j => (fieldOptString j).map fun _ => (), true⟩

/-- How many items a sequence was expected to hold. -/
def itemsExpected (n : Nat) : String :=
  if n = 1 then "1 element in sequence" else toString n ++ " elements in sequence"

/-- Checks the items after the tag against the slots of a kind, in order: a missing item is
refused unless its slot is optional, and items beyond the slots are refused. Returns the
items given, one per slot, `null` for those left out. -/
def fillSlots (variant : String) (slots : List Slot) (items : List Json) :
    Except DecodeError (List Json) :=
  let n := slots.length
  let expected := "struct variant HostEvent::" ++ variant ++ " with " ++ toString n ++
    (if n = 1 then " element" else " elements")
  let rec go : List Slot → List Json → Nat → List Json → Except DecodeError (List Json)
    | [], [], _, acc => .ok acc.reverse
    | [], extra, i, _ => .error (.invalidLength (i + extra.length) (itemsExpected i))
    | s :: rest, [], i, acc =>
      if s.optional then go rest [] (i + 1) (.null :: acc)
      else .error (.invalidLength i expected)
    | s :: rest, x :: xs, i, acc => do
      s.check x
      go rest xs (i + 1) (x :: acc)
  go slots items 0 []

/-- Decodes an event from its positional form: the tag, then the fields of its kind in
order. A lifecycle kind takes no more items. -/
def ofItems (tag : Json) (items : List Json) : Except DecodeError HostEvent := do
  let slot (vs : List Json) (i : Nat) : Json := vs.getD i .null
  match ← variantOf tag with
  | 6 => do
    let vs ← fillSlots "RelationCreated" [.relation, .text] items
    pure (.relationCreated (← fieldRelation (slot vs 0)) (← fieldString (slot vs 1)))
  | 7 => do
    let vs ← fillSlots "RelationJoined" [.relation, .text, .text] items
    pure (.relationJoined (← fieldRelation (slot vs 0)) (← fieldString (slot vs 1))
      (← fieldString (slot vs 2)))
  | 8 => do
    let vs ← fillSlots "RelationChanged" [.relation, .text, .optText] items
    pure (.relationChanged (← fieldRelation (slot vs 0)) (← fieldString (slot vs 1))
      (← fieldOptString (slot vs 2)))
  | 9 => do
    let vs ← fillSlots "RelationDeparted" [.relation, .text, .text] items
    pure (.relationDeparted (← fieldRelation (slot vs 0)) (← fieldString (slot vs 1))
      (← fieldString (slot vs 2)))
  | 10 => do
    let vs ← fillSlots "RelationBroken" [.relation, .optText] items
    pure (.relationBroken (← fieldRelation (slot vs 0)) (← fieldOptString (slot vs 1)))
  | i =>
    if items.isEmpty then
      match i with
      | 0 => pure .install
      | 1 => pure .start
      | 2 => pure .configChanged
      | 3 => pure .updateStatus
      | 4 => pure .upgradeCharm
      | _ => pure .leaderElected
    else .error (.invalidLength items.length (itemsExpected 0))

/-- Decodes an event from the fields of its tagged form. -/
def ofFields (fs : Json.Fields) : Except DecodeError HostEvent := do
  let tag ← match List.find? (fun kv => kv.1 == "event") fs with
    | some (_, t) => variantOf t
    | none => .error (.missingField "event")
  let rest := List.filter (fun kv => kv.1 != "event") fs
  let need (met : List (String × Json)) (k : String) : Except DecodeError Json :=
    Fields.required met k
  let optional (met : List (String × Json)) (k : String) : Except DecodeError (Option String) :=
    match Fields.lookup met k with
    | some v => fieldOptString v
    | none => .ok none
  match tag with
  | 0 => pure .install
  | 1 => pure .start
  | 2 => pure .configChanged
  | 3 => pure .updateStatus
  | 4 => pure .upgradeCharm
  | 5 => pure .leaderElected
  | 6 => do
    let met ← collectFields ["relation", "app"] [] rest []
    let r ← fieldRelation (← need met "relation")
    let a ← fieldString (← need met "app")
    pure (.relationCreated r a)
  | 7 => do
    let met ← collectFields ["relation", "app", "unit"] [] rest []
    let r ← fieldRelation (← need met "relation")
    let a ← fieldString (← need met "app")
    let u ← fieldString (← need met "unit")
    pure (.relationJoined r a u)
  | 8 => do
    let met ← collectFields ["relation", "app", "unit"] ["unit"] rest []
    let r ← fieldRelation (← need met "relation")
    let a ← fieldString (← need met "app")
    pure (.relationChanged r a (← optional met "unit"))
  | 9 => do
    let met ← collectFields ["relation", "app", "unit"] [] rest []
    let r ← fieldRelation (← need met "relation")
    let a ← fieldString (← need met "app")
    let u ← fieldString (← need met "unit")
    pure (.relationDeparted r a u)
  | _ => do
    let met ← collectFields ["relation", "app"] ["app"] rest []
    let r ← fieldRelation (← need met "relation")
    pure (.relationBroken r (← optional met "app"))

/-- Decodes an event from its tagged JSON form, or from its positional form. -/
def ofJson : Json → Except DecodeError HostEvent
  | .obj fs => ofFields fs
  | .arr [] => .error (.missingField "event")
  | .arr (tag :: items) => ofItems tag items
  | other => .error (.invalidType (Unexpected.ofJson other) "internally tagged enum HostEvent")

end HostEvent

end ShareBroker
