import ShareBroker.Charm.Dispatch
import ShareBroker.Interface.Filesystem
import ShareBroker.Interface.Share
import ShareBroker.Config.Server

/-! # Proxies for filesystems managed elsewhere

A proxy publishes, on its `filesystem` endpoint, a filesystem named by its configuration; the
URI is kept in the `server-peers` relation for relations that come later.

On a configuration change, a leadership change or an upgrade, a proxy reads its
configuration: an unusable one sets the blocked status it yields, a usable one is published
(by the leader) and the status becomes active with an empty message.

The CephFS proxy also answers share requests on `cephfs-share`. A request that arrives while
the configuration is unusable sets `blocked: No configured filesystem info` and is deferred,
to be served once the configuration is valid; a broken `cephfs-share` relation makes it read
its configuration again, to drop a status left behind by that relation's request.
-/

namespace ShareBroker

/-- The publishing side shared by the proxies. -/
def proxyFilesystem : FilesystemProvides := ⟨"filesystem", "server-peers"⟩

/-- Publishes a record when the configuration yields one. -/
def publishConfigured (info : Except Status FsInfo) : HostM Unit := do
  match info with
  | .error status => HostM.setStatus status
  | .ok info =>
    match ← HostM.leadership with
    | some token => proxyFilesystem.setInfo token info
    | none => pure ()
    HostM.setStatus (.active "")

/-- Whether an event asks a proxy to read its configuration again. -/
def reconfigures : HostEvent → Bool
  | .configChanged | .leaderElected | .upgradeCharm => true
  | _ => false

namespace NfsProxy

/-- Reacts to one event. -/
def handle (e : HostEvent) : HostM Handled := do
  if reconfigures e then
    let config ← HostM.ofOutcome (NfsConfig.load (← HostM.config))
    publishConfigured config.toInfo
  proxyFilesystem.handle e
  pure .done

end NfsProxy

namespace LustreProxy

/-- Reacts to one event. -/
def handle (e : HostEvent) : HostM Handled := do
  if reconfigures e then
    let config ← HostM.ofOutcome (LustreConfig.load (← HostM.config))
    publishConfigured config.toInfo
  proxyFilesystem.handle e
  pure .done

end LustreProxy

namespace CephfsProxy

/-- The side that answers share requests. -/
def share : ShareProvides := ⟨"cephfs-share"⟩

/-- The record published for a share and its credentials. -/
def toInfo (s : ShareInfo) (a : AuthInfo) : FsInfo :=
  .cephfs s.fsid s.name s.path s.monitors a.username a.key

/-- Reads the configuration and publishes it. -/
def configure : HostM Unit := do
  let config ← HostM.ofOutcome (CephfsConfig.load (← HostM.config))
  publishConfigured (config.toShare.map fun (s, a) => toInfo s a)

/-- Answers a share request, or defers it while the configuration is unusable. -/
def serveShare : ShareProvidesEvent → HostM Handled
  | .shareRequested r _ => do
    let config ← HostM.ofOutcome (CephfsConfig.load (← HostM.config))
    match config.toShare with
    | .error _ =>
      HostM.setStatus (.blocked "No configured filesystem info")
      pure .defer
    | .ok (s, a) =>
      match ← HostM.leadership with
      | some token => share.setShare token r s a
      | none => pure ()
      pure .done

/-- Reacts to one event. -/
def handle (e : HostEvent) : HostM Handled := do
  match e with
  | .relationBroken r _ => if r.endpoint == "cephfs-share" then configure
  | _ => if reconfigures e then configure
  proxyFilesystem.handle e
  let mut handled := Handled.done
  for ev in ← share.handle e do
    if (← serveShare ev) == .defer then handled := .defer
  pure handled

end CephfsProxy

end ShareBroker
