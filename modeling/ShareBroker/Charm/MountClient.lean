import ShareBroker.Charm.Dispatch
import ShareBroker.Interface.Mount
import ShareBroker.Config.Client

/-! # A workload that asks for a mount

The workload asks every filesystem client on its `mount` endpoint to mount at the configured
mountpoint, when its configuration changes and when a client connects. It shows:

* `blocked: No configured mountpoint` while no mountpoint is configured;
* `blocked: <reason>` when a relation already asks for another mountpoint;
* `active: Mounted filesystem`, `waiting: Unmounted filesystem` and
  `blocked: Waiting for mount provider` as the clients report.
-/

namespace ShareBroker

namespace MountClient

/-- The workload's side of the `mount` endpoint. -/
def mount : MountRequires := ⟨"mount"⟩

/-- Publishes a request on each relation in turn; returns the reason of the first conflict. -/
def publishAll (token : LeadershipToken) (info : MountInfo) : List Relation → HostM (Option String)
  | [] => pure none
  | r :: rest => do
    match ← HostM.attempt (mount.setMountInfo token r info) with
    | .ok () => publishAll token info rest
    | .error (.relationConflict _ reason) => pure (some reason)
    | .error e => throw e

/-- Sends the configured mountpoint to every provider. -/
def requestMount : HostM Unit := do
  let config ← HostM.ofOutcome (MountClientConfig.load (← HostM.config))
  match config.mountpoint.filter (!·.isEmpty) with
  | none => HostM.setStatus (.blocked "No configured mountpoint")
  | some mountpoint =>
    let conflict ← match ← HostM.leadership with
      | some token => do publishAll token { mountpoint := mountpoint } (← HostM.relationsOn "mount")
      | none => pure none
    match conflict with
    | some reason => HostM.setStatus (.blocked reason)
    | none => HostM.setStatus (.active "")

/-- Reacts to one event. -/
def handle (e : HostEvent) : HostM Handled := do
  if e = .configChanged then requestMount
  for ev in ← mount.handle e do
    match ev with
    | .providerConnected _ => requestMount
    | .mountedFilesystem _ => HostM.setStatus (.active "Mounted filesystem")
    | .unmountedFilesystem _ => HostM.setStatus (.waiting "Unmounted filesystem")
    | .providerDisconnected _ => HostM.setStatus (.blocked "Waiting for mount provider")
  pure .done

end MountClient

end ShareBroker
