import ShareBroker.Config.Basic
import ShareBroker.Filesystem.Info
import ShareBroker.Record.Types
import ShareBroker.Text.Blank
import ShareBroker.Status

/-! # Configuration of the server proxies

A proxy publishes a filesystem that is managed elsewhere; its configuration names it.

* `NfsConfig`: `hostname`, `path` and an optional `port`. Host and path must be non-empty, and
  the record they make must pass `FsInfo.validate`.
* `LustreConfig`: `mgs-nids`, the blank-separated NIDs of the management servers, and
  `fs-name`; both must be non-empty.
* `CephfsConfig`: `fsid`, `sharepoint` (`<name>:<path>`), `monitor-hosts` (blank-separated
  addresses) and `auth-info` (`<user>:<key>`). A value made of blanks counts as missing, and
  all missing keys are named at once; both pairs must have two non-empty sides, and every
  monitor must read as a network address.

A configuration that cannot be used yields the blocked status to show instead.
-/

namespace ShareBroker

/-- The configuration of an NFS proxy. -/
structure NfsConfig where
  hostname : Option String := none
  path : Option String := none
  port : Option UInt16 := none
  deriving DecidableEq, Inhabited

namespace NfsConfig

/-- The fields of the configuration. -/
def rules : List Yaml.FieldRule := [.text "hostname", .text "path", .port "port"]

/-- Reads the configuration from the charm's configuration value. -/
def load (config : Yaml) : Outcome NfsConfig :=
  Config.load "NfsConfig" rules (fun met => do
    pure ⟨← met.text "hostname", ← met.text "path", ← met.port "port"⟩) config

/-- The export the configuration names. -/
def toInfo (c : NfsConfig) : Except Status FsInfo := do
  let hostname ← match c.hostname with
    | some h => if h.isEmpty then .error (.blocked "No configured hostname") else pure h
    | none => .error (.blocked "No configured hostname")
  let path ← match c.path with
    | some p => if p.isEmpty then .error (.blocked "No configured path") else pure p
    | none => .error (.blocked "No configured path")
  let info := FsInfo.nfs hostname c.port path
  match info.validate with
  | .ok () => pure info
  | .error e => .error (.blocked ("Invalid configuration: " ++ e.message))

end NfsConfig

/-- The configuration of a Lustre proxy. -/
structure LustreConfig where
  mgsNids : Option String := none
  fsName : Option String := none
  deriving DecidableEq, Inhabited

namespace LustreConfig

/-- The fields of the configuration. -/
def rules : List Yaml.FieldRule := [.text "mgs-nids", .text "fs-name"]

/-- Reads the configuration from the charm's configuration value. -/
def load (config : Yaml) : Outcome LustreConfig :=
  Config.load "LustreConfig" rules (fun met => do
    pure ⟨← met.text "mgs-nids", ← met.text "fs-name"⟩) config

/-- The filesystem the configuration names. -/
def toInfo (c : LustreConfig) : Except Status FsInfo := do
  let mgs := (c.mgsNids.map Text.splitBlank).getD []
  if mgs.isEmpty then .error (.blocked "No configured mgs-nids")
  else
    let fsName ← match c.fsName with
      | some f => if f.isEmpty then .error (.blocked "No configured fs-name") else pure f
      | none => .error (.blocked "No configured fs-name")
    pure (.lustre mgs fsName)

end LustreConfig

/-- The configuration of a CephFS proxy. -/
structure CephfsConfig where
  fsid : Option String := none
  sharepoint : Option String := none
  monitorHosts : Option String := none
  authInfo : Option String := none
  deriving DecidableEq, Inhabited

/-- Splits `left:right` at the first `:`; both sides must be non-empty. -/
def splitPair (s : String) : Option (String × String) :=
  let cs := s.toList
  let left := cs.takeWhile (· ≠ ':')
  match cs.dropWhile (· ≠ ':') with
  | _ :: right =>
    if left.isEmpty ∨ right.isEmpty then none else some (String.ofList left, String.ofList right)
  | [] => none

namespace CephfsConfig

/-- The fields of the configuration. -/
def rules : List Yaml.FieldRule :=
  [.text "fsid", .text "sharepoint", .text "monitor-hosts", .text "auth-info"]

/-- Reads the configuration from the charm's configuration value. -/
def load (config : Yaml) : Outcome CephfsConfig :=
  Config.load "CephfsConfig" rules (fun met => do
    pure ⟨← met.text "fsid", ← met.text "sharepoint", ← met.text "monitor-hosts",
      ← met.text "auth-info"⟩) config

/-- A value that is present and not made of blanks only. -/
def given (v : Option String) : Option String := v.filter fun s => !(Text.trimBlank s).isEmpty

/-- The share and credentials the configuration names. -/
def toShare (c : CephfsConfig) : Except Status (ShareInfo × AuthInfo) := do
  let values := [("fsid", given c.fsid), ("sharepoint", given c.sharepoint),
    ("monitor-hosts", given c.monitorHosts), ("auth-info", given c.authInfo)]
  match values.map (·.2) with
  | [some fsid, some sharepoint, some monitors, some auth] =>
    let (name, path) ← match splitPair sharepoint with
      | some p => pure p
      | none => .error (.blocked ("Invalid sharepoint `" ++ sharepoint ++ "`"))
    let (username, key) ← match splitPair auth with
      | some p => pure p
      | none => .error (.blocked ("Invalid auth-info `" ++ auth ++ "`"))
    let hosts := Text.splitBlank monitors
    match hosts.find? fun h => (Address.parse h).toBool == false with
    | some h => .error (.blocked ("Invalid monitor host `" ++ h ++ "`"))
    | none => pure (⟨fsid, name, path, hosts⟩, ⟨username, key⟩)
  | _ =>
    let missing := (values.filter (·.2.isNone)).map fun kv => "`" ++ kv.1 ++ "`"
    .error (.blocked ("Missing required configuration for " ++ ", ".intercalate missing))

end CephfsConfig

end ShareBroker
