import ShareBroker.Charm.Dispatch
import ShareBroker.Interface.Filesystem
import ShareBroker.Interface.Mount
import ShareBroker.Config.Client

/-! # The filesystem client

A subordinate that mounts the filesystem of its provider on its machine. It does not react to
an event as such: any event that matters recomputes the whole wanted state from the
configuration and the relation data (`converge`):

1. the platform must support mounting, and the packages and autofs files are installed when
   missing;
2. exactly one provider endpoint is used, the first by filesystem kind;
3. the mountpoint comes either from the `mountpoint` option, with the four flags, or from the
   one workload related over `mount`, never both;
4. the mount table of that single mount is applied, the workloads are told it is mounted,
   and the status names the mountpoint.

When a step cannot go on, the workloads are told nothing is mounted and the status says why;
for reasons that concern the whole application, the leader shows it as the application's
status too.
-/

namespace ShareBroker

namespace FilesystemClient

/-- The side that reads the provider's endpoint. -/
def filesystem : FilesystemRequires := ⟨"filesystem"⟩

/-- The side that serves workloads. -/
def mount : MountProvides := ⟨"mount"⟩

/-- Why nothing can be mounted now: the status to show, and whether the application's
status shows it too. -/
structure Stop where
  status : Status
  app : Bool

/-- A blocked stop. -/
def Stop.blocked (message : String) (app : Bool) : Stop := ⟨.blocked message, app⟩

/-- The provider endpoint to mount. -/
def endpoint : HostM (Except Stop Endpoint) := do
  match ← HostM.attempt filesystem.endpointsByType with
  | .error (.relationConflict _ reason) => pure (.error (.blocked reason true))
  | .error e => throw e
  | .ok byKind =>
    match byKind.head? with
    | some (_, ep) => pure (.ok ep)
    | none => pure (.error (.blocked "Waiting for an integration with a filesystem provider" true))

/-- Where and how to mount, from the configuration or the `mount` relation. -/
def mountInfo : HostM (Except Stop MountInfo) := do
  let config ← HostM.ofOutcome (ClientConfig.load (← HostM.config))
  let relations ← HostM.relationsOn mount.endpoint
  match config.mountpoint.filter (!·.isEmpty) with
  | none =>
    match relations with
    | [] => pure (.error (.blocked "Missing `mountpoint` config or `mount` integration" true))
    | [r] =>
      match ← mount.mountInfo r with
      | some info => pure (.ok info)
      | none => pure (.error ⟨.waiting "Waiting for mountpoint from `mount` integration", false⟩)
    | _ => pure (.error (.blocked "Cannot mount using more than one relation at the same time" true))
  | some mountpoint =>
    if !relations.isEmpty then
      pure (.error (.blocked
        "Cannot mount using both the `mountpoint` config and the `mount` integration" true))
    else
      pure (.ok ⟨mountpoint, config.noexec, config.nosuid, config.nodev, config.readOnly⟩)

/-- Tells the workloads nothing is mounted and shows why. -/
def stop (s : Stop) : HostM Unit := do
  mount.setMountStatus false
  if s.app then
    match ← HostM.leadership with
    | some token => HostM.setAppStatus s.status token
    | none => pure ()
  HostM.setStatus s.status

/-- Recomputes and applies the wanted mounts. -/
def converge : CharmM Unit := do
  HostM.setStatus (.maintenance "Updating status")
  if !(← CharmM.observe Executor.supported) then
    HostM.setStatus (.blocked "Cannot mount filesystems on LXD containers")
    return
  if !(← CharmM.observe Executor.installed) then
    HostM.setStatus (.maintenance "Installing required packages")
    CharmM.change Executor.install
  match ← (endpoint : HostM _) with
  | .error s => stop s
  | .ok ep =>
    match ← HostM.leadership with
    | some token =>
      HostM.setAppStatus (.active ("Integrated with `" ++ ep.info.kind.scheme ++ "` provider")) token
    | none => pure ()
    match ← (mountInfo : HostM _) with
    | .error s => stop s
    | .ok info =>
      HostM.setStatus (.maintenance "Mounting filesystem")
      match MountTable.empty.add ep.info info.mountpoint (MountOptions.ofMountInfo info) with
      | .error err => stop (.blocked err.message false)
      | .ok table =>
        let _ ← CharmM.machine fun x => x.reconcile table false
        mount.setMountStatus true
        HostM.setStatus (.active ("Mounted filesystem at `" ++ info.mountpoint ++ "`"))

/-- Whether an event makes the client converge whatever the interfaces make of it. -/
def lifecycle : HostEvent → Bool
  | .upgradeCharm | .updateStatus | .configChanged => true
  | _ => false

/-- Reacts to one event. -/
def handle (e : HostEvent) : CharmM Handled := do
  let fsEvents ← filesystem.handle e
  let mountEvents ← mount.handle e
  if lifecycle e || !fsEvents.isEmpty || !mountEvents.isEmpty then converge
  pure .done

end FilesystemClient

end ShareBroker
