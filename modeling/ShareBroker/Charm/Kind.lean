import ShareBroker.Charm.FilesystemClient
import ShareBroker.Charm.MountClient
import ShareBroker.Charm.ServerProxy

/-! # The charms

The five charms of the suite, and how each reacts to an event. `CharmKind.run` is one
dispatch of an event to a charm, deferred events first.
-/

namespace ShareBroker

/-- A charm of the suite. -/
inductive CharmKind where
  | filesystemClient
  | mountClient
  | nfsServerProxy
  | cephfsServerProxy
  | lustreServerProxy
  deriving DecidableEq, Inhabited

namespace CharmKind

/-- How the charm reacts to one event. -/
def handle : CharmKind → HostEvent → CharmM Handled
  | .filesystemClient, e => FilesystemClient.handle e
  | .mountClient, e => CharmM.host (MountClient.handle e)
  | .nfsServerProxy, e => CharmM.host (NfsProxy.handle e)
  | .cephfsServerProxy, e => CharmM.host (CephfsProxy.handle e)
  | .lustreServerProxy, e => CharmM.host (LustreProxy.handle e)

/-- One dispatch of an event to the charm. -/
def run (k : CharmKind) (e : HostEvent) : CharmM Unit := dispatch k.handle e

/-- Whether the charm mounts filesystems on its machine. -/
def usesMachine : CharmKind → Bool
  | .filesystemClient => true
  | _ => false

end CharmKind

end ShareBroker
