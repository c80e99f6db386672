import ShareBroker.Config.Basic

/-! # Configuration of the clients

* `ClientConfig`, of the filesystem client: an optional `mountpoint` and the four mount
  flags `noexec`, `nosuid`, `nodev`, `read-only`, each `false` unless set.
* `MountClientConfig`, of a workload that asks for a mount: an optional `mountpoint`.
-/

namespace ShareBroker

/-- The configuration of the filesystem client. -/
structure ClientConfig where
  mountpoint : Option String := none
  noexec : Bool := false
  nosuid : Bool := false
  nodev : Bool := false
  readOnly : Bool := false
  deriving DecidableEq, Inhabited

namespace ClientConfig

/-- The fields of the configuration. -/
def rules : List Yaml.FieldRule :=
  [.text "mountpoint", .flag "noexec", .flag "nosuid", .flag "nodev", .flag "read-only"]

/-- Reads the configuration from the charm's configuration value. -/
def load (config : Yaml) : Outcome ClientConfig :=
  Config.load "ClientConfig" rules (fun met => do
    pure ⟨← met.text "mountpoint", ← met.flag "noexec", ← met.flag "nosuid", ← met.flag "nodev",
      ← met.flag "read-only"⟩) config

end ClientConfig

/-- The configuration of a workload that asks for a mount. -/
structure MountClientConfig where
  mountpoint : Option String := none
  deriving DecidableEq, Inhabited

namespace MountClientConfig

/-- The fields of the configuration. -/
def rules : List Yaml.FieldRule := [.text "mountpoint"]

/-- Reads the configuration from the charm's configuration value. -/
def load (config : Yaml) : Outcome MountClientConfig :=
  Config.load "MountClientConfig" rules (fun met => do pure ⟨← met.text "mountpoint"⟩) config

end MountClientConfig

end ShareBroker
