import ShareBroker.Host.Change
import ShareBroker.Negotiation
import ShareBroker.Record.Codec

/-! # Asking for a filesystem to be mounted

A workload (the requirer) asks the filesystem client beside it (the provider) to mount its
filesystem at a mountpoint. The request is a `MountInfo` saved one field per key in the
requirer's application scope; the provider answers with a `mounted` flag in its unit scope.

* `MountRequires.handle` turns host events into what the workload must do: the leader
  connects on relation creation and disconnects on breakage, and a change of a provider unit's
  `mounted` flag mounts or unmounts, following `Negotiation.RequirerState`.
* `MountRequires.setMountInfo` publishes a request, refused when another live relation of the
  endpoint already requests a different mountpoint.
* `MountProvides.handle` compares the requirer's scope with its snapshot: a new mountpoint is
  a request, a removed one a withdrawal, and any other change asks for the mount to be redone,
  following `Negotiation.ProviderState`; a request is only reported once it can be read.
-/

namespace ShareBroker

/-- The key of the requested mountpoint. -/
def mountpointKey : String := "mountpoint"

/-- The key of the provider's mount flag. -/
def mountedKey : String := "mounted"

/-- What the workload side learns from an event. -/
inductive MountRequiresEvent where
  | providerConnected (r : Relation)
  | mountedFilesystem (r : Relation)
  | unmountedFilesystem (r : Relation)
  | providerDisconnected (r : Relation)
  deriving DecidableEq

/-- The workload side of an endpoint. -/
structure MountRequires where
  endpoint : String

namespace MountRequires

open Negotiation

/-- The signal for a change of a provider unit's scope, if any. -/
def providerChanged (r : Relation) (unit : String) : HostM (Option RequirerSignal) := do
  let own ← HostM.ownUnit
  let observed := Scope.unit unit
  let previous ← HostM.cached r own observed
  let state := RequirerState.observe ((previous.get? mountedKey).map (· == "true"))
  let t ← HostM.diff r own observed
  let input ←
    if t.deleted.contains mountedKey then pure (some RequirerInput.notReady)
    else if t.touched mountedKey then do
      match (← HostM.read r observed).get? mountedKey with
      | some "true" => pure (some RequirerInput.ready)
      | _ => pure (some RequirerInput.notReady)
    else pure none
  pure (input.bind fun i => (state.step i).2)

/-- What an event means for the workload. -/
def handle (side : MountRequires) (e : HostEvent) : HostM (List MountRequiresEvent) := do
  match e.relationOn side.endpoint with
  | none => pure []
  | some r =>
    let signal ← match e with
      | .relationCreated .. => do
        if (← HostM.leadership).isSome then pure (RequirerState.disconnected.step .created).2
        else pure none
      | .relationBroken .. => do
        if (← HostM.leadership).isSome then pure (RequirerState.connected.step .broken).2
        else pure none
      | .relationChanged _ _ (some unit) => providerChanged r unit
      | _ => pure none
    pure <| match signal with
      | some .connected => [.providerConnected r]
      | some .mounted => [.mountedFilesystem r]
      | some .unmounted => [.unmountedFilesystem r]
      | some .disconnected => [.providerDisconnected r]
      | none => []

/-- Publishes a mount request on `r`. -/
def setMountInfo (side : MountRequires) (token : LeadershipToken) (r : Relation) (info : MountInfo) :
    HostM Unit := do
  let data ← HostM.ofOutcome (Record.save info.toJson)
  let wanted := (data.get? mountpointKey).getD ""
  let ownApp ← HostM.ownApp
  for other in ← HostM.relationsOn side.endpoint do
    if other != r then
      let existing ← HostM.read other ownApp
      match existing.get? mountpointKey with
      | some mp =>
        if mp != wanted then
          throw (.relationConflict side.endpoint
            ("`" ++ other.toString ++ "` already requests mountpoint " ++ mp))
      | none => pure ()
  HostM.updateApp r data token

end MountRequires

/-- What the filesystem client learns from an event. -/
inductive MountProvidesEvent where
  | mountRequested (r : Relation)
  | mountUnrequested (r : Relation)
  deriving DecidableEq

/-- The filesystem client side of an endpoint. -/
structure MountProvides where
  endpoint : String

namespace MountProvides

open Negotiation

/-- The mount requested over `r`, once the requirer has published a mountpoint. -/
def mountInfo (_ : MountProvides) (r : Relation) : HostM (Option MountInfo) := do
  match ← HostM.remoteApp r with
  | none => pure none
  | some app =>
    let data ← HostM.read r (.app app)
    match data.get? mountpointKey with
    | some m =>
      if m.isEmpty then pure none
      else pure (some (← HostM.ofOutcome (Record.load MountInfo.ofJson data)))
    | none => pure none

/-- What an event means for the filesystem client. -/
def handle (side : MountProvides) (e : HostEvent) : HostM (List MountProvidesEvent) := do
  match e with
  | .relationChanged r app _ =>
    if r.endpoint != side.endpoint then pure []
    else
      let own ← HostM.ownUnit
      let observed := Scope.app app
      let previous ← HostM.cached r own observed
      let served := (← HostM.read r own).contains mountedKey
      let state := ProviderState.observe (previous.contains mountpointKey) served
      let t ← HostM.diff r own observed
      let input :=
        if t.added.contains mountpointKey then ProviderInput.requestAdded
        else if t.deleted.contains mountpointKey then ProviderInput.requestWithdrawn
        else if !t.isEmpty then ProviderInput.requestChanged
        else ProviderInput.retry
      match (state.step input).2 with
      | some .requested =>
        if (← side.mountInfo r).isSome then pure [.mountRequested r] else pure []
      | some .unrequested => pure [.mountUnrequested r]
      | none => pure []
  | _ => pure []

/-- Reports the mount state to every requirer. -/
def setMountStatus (side : MountProvides) (mounted : Bool) : HostM Unit := do
  let data := Databag.ofList [(mountedKey, Record.flag mounted)]
  for r in ← HostM.relationsOn side.endpoint do
    HostM.updateUnit r data

end MountProvides

end ShareBroker
