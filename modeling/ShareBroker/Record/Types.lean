import ShareBroker.Decode.Fields
import ShareBroker.Databag

/-! # Records exchanged over relations

* `MountInfo`: where and how a workload wants its filesystem mounted. Only the mountpoint is
  required; the four flags default to `false`.
* `ShareInfo`: a shared CephFS filesystem: cluster id, filesystem name, path and monitors.
* `AuthInfo`: the CephX user name and key of a share.

Each record has a JSON form with its fields in declaration order (`toJson`) and a decoder from
JSON (`ofJson`). A record is decoded from an object, by the rules of `Fields.collect`, or from
an array holding the fields in declaration order, where trailing fields with a default may be
left out.
-/

namespace ShareBroker

/-- Decodes a record from an array of its fields in order: `fields` names the schema, with
`true` for a field that has a default. Returns the values present. -/
def decodeSeq (what : String) (schema : List FieldSpec) (defaults : List Bool) (xs : List Json) :
    Except DecodeError (List (String × Json)) := do
  let n := schema.length
  let expected := what ++ " with " ++ toString n ++ (if n = 1 then " element" else " elements")
  let rec go : List FieldSpec → List Bool → List Json → Nat → List (String × Json) →
      Except DecodeError (List (String × Json))
    | [], _, [], _, acc => .ok acc.reverse
    | [], _, _ :: _, _, _ => .error (.invalidLength (xs.length) "fewer elements in array")
    | _ :: specs, d :: ds, [], i, acc =>
      if d then go specs ds [] (i + 1) acc else .error (.invalidLength i expected)
    | _ :: _, [], [], i, _ => .error (.invalidLength i expected)
    | spec :: specs, ds, x :: rest, i, acc => do
      spec.check x
      go specs ds.tail rest (i + 1) ((spec.name, x) :: acc)
  go schema defaults xs 0 []

/-- Where and how to mount a filesystem. -/
structure MountInfo where
  mountpoint : String
  noexec : Bool := false
  nosuid : Bool := false
  nodev : Bool := false
  readOnly : Bool := false
  deriving DecidableEq, Inhabited

namespace MountInfo

/-- The fields of a mount request. -/
def schema : List FieldSpec :=
  [.string "mountpoint", .bool "noexec", .bool "nosuid", .bool "nodev", .bool "read_only"]

/-- The JSON form, fields in declaration order. -/
def toJson (m : MountInfo) : Json :=
  .obj [("mountpoint", .str m.mountpoint), ("noexec", .bool m.noexec), ("nosuid", .bool m.nosuid),
    ("nodev", .bool m.nodev), ("read_only", .bool m.readOnly)]

/-- Builds a mount request from the fields met. -/
def ofMet (met : List (String × Json)) : Except DecodeError MountInfo := do
  let mp ← Json.decodeString (← Fields.required met "mountpoint")
  let flag (k : String) : Except DecodeError Bool :=
    match Fields.lookup met k with
    | some v => Json.decodeBool v
    | none => .ok false
  pure ⟨mp, ← flag "noexec", ← flag "nosuid", ← flag "nodev", ← flag "read_only"⟩

/-- Decodes a mount request. -/
def ofJson (j : Json) : Except DecodeError MountInfo :=
  match j with
  | .obj fs => Fields.collect schema false fs [] >>= ofMet
  | .arr xs => decodeSeq "struct MountInfo" schema [false, true, true, true, true] xs >>= ofMet
  | other => .error (.invalidType (Unexpected.ofJson other) "struct MountInfo")

end MountInfo

/-- A shared CephFS filesystem. -/
structure ShareInfo where
  fsid : String
  name : String
  path : String
  monitors : List String
  deriving DecidableEq, Inhabited

namespace ShareInfo

/-- The fields of a share. -/
def schema : List FieldSpec :=
  [.string "fsid", .string "name", .string "path", .strings "monitor_hosts"]

/-- The JSON form, fields in declaration order. -/
def toJson (s : ShareInfo) : Json :=
  .obj [("fsid", .str s.fsid), ("name", .str s.name), ("path", .str s.path),
    ("monitor_hosts", .ofStrings s.monitors)]

/-- Builds a share from the fields met. -/
def ofMet (met : List (String × Json)) : Except DecodeError ShareInfo := do
  let fsid ← Json.decodeString (← Fields.required met "fsid")
  let name ← Json.decodeString (← Fields.required met "name")
  let path ← Json.decodeString (← Fields.required met "path")
  let mons ← Json.decodeStrings (← Fields.required met "monitor_hosts")
  pure ⟨fsid, name, path, mons⟩

/-- Decodes a share. -/
def ofJson (j : Json) : Except DecodeError ShareInfo :=
  match j with
  | .obj fs => Fields.collect schema false fs [] >>= ofMet
  | .arr xs => decodeSeq "struct CephfsShareInfo" schema [false, false, false, false] xs >>= ofMet
  | other => .error (.invalidType (Unexpected.ofJson other) "struct CephfsShareInfo")

end ShareInfo

/-- The CephX credentials of a share. -/
structure AuthInfo where
  username : String
  key : String
  deriving DecidableEq, Inhabited

namespace AuthInfo

/-- The fields of credentials. -/
def schema : List FieldSpec := [.string "username", .string "key"]

/-- The JSON form, fields in declaration order. -/
def toJson (a : AuthInfo) : Json := .obj [("username", .str a.username), ("key", .str a.key)]

/-- Builds credentials from the fields met. -/
def ofMet (met : List (String × Json)) : Except DecodeError AuthInfo := do
  let u ← Json.decodeString (← Fields.required met "username")
  let k ← Json.decodeString (← Fields.required met "key")
  pure ⟨u, k⟩

/-- Decodes credentials. -/
def ofJson (j : Json) : Except DecodeError AuthInfo :=
  match j with
  | .obj fs => Fields.collect schema false fs [] >>= ofMet
  | .arr xs => decodeSeq "struct CephfsAuthInfo" schema [false, false] xs >>= ofMet
  | other => .error (.invalidType (Unexpected.ofJson other) "struct CephfsAuthInfo")

/-- The databag a secret holds for credentials. -/
def toDatabag (a : AuthInfo) : Databag := Databag.ofList [("username", a.username), ("key", a.key)]

/-- Credentials from a secret's databag, when both keys are present. -/
def ofDatabag (d : Databag) : Option AuthInfo := do
  pure ⟨← d.get? "username", ← d.get? "key"⟩

end AuthInfo

end ShareBroker
