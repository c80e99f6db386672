import ShareBroker.Host.Change
import ShareBroker.Negotiation
import ShareBroker.Record.Types

/-! # Sharing a CephFS filesystem

The client asks for a share by `name` in its application scope. The server answers with
`share_info`, the JSON text of a `ShareInfo`, and `auth`, a pointer to the CephX credentials,
kept in the secret `auth-info-<relation id>` when the host supports secrets.

* `ShareProvides.handle` (leader only) reports a request when the client's `name` is added or
  changed, or when a request is still waiting to be served; on a broken relation it revokes
  the relation's secret.
* `ShareRequires.handle` connects a joining relation (leader only), mounts when `share_info`
  appears and unmounts when it is removed or the server departs.
* `ShareRequires.shareInfo` and `ShareRequires.authInfo` read the answer; a malformed record
  or pointer counts as absent, but failing to fetch a well-formed secret is an error.
-/

namespace ShareBroker

/-- The key of the requested share name. -/
def shareNameKey : String := "name"

/-- The key of the published share record. -/
def shareInfoKey : String := "share_info"

/-- The key of the credentials pointer. -/
def authKey : String := "auth"

/-- The label of the secret holding a relation's credentials. -/
def authSecretLabel (r : Relation) : String := "auth-info-" ++ toString r.id.toNat

/-- What the server learns from an event. -/
inductive ShareProvidesEvent where
  | shareRequested (r : Relation) (name : String)
  deriving DecidableEq

/-- The server side of an endpoint. -/
structure ShareProvides where
  endpoint : String

namespace ShareProvides

open Negotiation

/-- What an event means for the server. -/
def handle (side : ShareProvides) (e : HostEvent) : HostM (List ShareProvidesEvent) := do
  match e.relationOn side.endpoint with
  | none => pure []
  | some r =>
    if (← HostM.leadership).isNone then return []
    let app ← match e with
      | .relationChanged _ app _ => pure (some app)
      | .relationBroken .. => do
        match ← HostM.lookupSecret (authSecretLabel r) with
        | some id => HostM.revokeSecret id r
        | none => pure ()
        pure none
      | _ => pure none
    match app with
    | none => pure []
    | some app =>
      let own ← HostM.ownUnit
      let observed := Scope.app app
      let previous ← HostM.cached r own observed
      let served := (← HostM.read r (← HostM.ownApp)).contains shareInfoKey
      let state := ProviderState.observe (previous.contains shareNameKey) served
      let t ← HostM.diff r own observed
      let input :=
        if t.added.contains shareNameKey then some ProviderInput.requestAdded
        else if t.changed.contains shareNameKey then some ProviderInput.requestChanged
        else if t.deleted.contains shareNameKey then some ProviderInput.requestWithdrawn
        else if t.isEmpty then some ProviderInput.retry
        else none
      match input.bind fun i => (state.step i).2 with
      | some .requested =>
        let name := ((← HostM.read r observed).get? shareNameKey).getD ""
        pure [.shareRequested r name]
      | _ => pure []

/-- Answers the request on `r`. -/
def setShare (_ : ShareProvides) (token : LeadershipToken) (r : Relation) (share : ShareInfo)
    (auth : AuthInfo) : HostM Unit := do
  let pointer ← HostM.conceal auth.toDatabag (authSecretLabel r)
  match pointer with
  | .secret id => HostM.grantSecret id r
  | .plain _ => pure ()
  HostM.updateApp r
    (Databag.ofList [(shareInfoKey, share.toJson.write), (authKey, pointer.toString)]) token

end ShareProvides

/-- What the client learns from an event. -/
inductive ShareRequiresEvent where
  | serverConnected (r : Relation)
  | mountShare (r : Relation)
  | umountShare (r : Relation)
  deriving DecidableEq

/-- The client side of an endpoint. -/
structure ShareRequires where
  endpoint : String

namespace ShareRequires

open Negotiation

/-- What an event means for the client. -/
def handle (side : ShareRequires) (e : HostEvent) : HostM (List ShareRequiresEvent) := do
  match e.relationOn side.endpoint with
  | none => pure []
  | some r =>
    let signal ← match e with
      | .relationJoined .. => do
        if (← HostM.leadership).isSome then pure (RequirerState.disconnected.step .created).2
        else pure none
      | .relationChanged _ app _ => do
        let own ← HostM.ownUnit
        let observed := Scope.app app
        let previous ← HostM.cached r own observed
        let state := RequirerState.observe ((previous.get? shareInfoKey).map fun _ => true)
        let t ← HostM.diff r own observed
        if t.added.contains shareInfoKey then pure (state.step .ready).2
        else if t.deleted.contains shareInfoKey then pure (state.step .notReady).2
        else pure none
      | .relationDeparted .. => pure (some RequirerSignal.unmounted)
      | _ => pure none
    pure <| match signal with
      | some .connected => [.serverConnected r]
      | some .mounted => [.mountShare r]
      | some .unmounted => [.umountShare r]
      | _ => []

/-- Asks the server on `r` for the share `name`; only one server may be asked at a time. -/
def requestShare (side : ShareRequires) (token : LeadershipToken) (r : Relation) (name : String) :
    HostM Unit := do
  if (← HostM.relationsOn side.endpoint).any (· != r) then
    throw (.relationConflict side.endpoint
      "Cannot request a share using more than one relation at the same time")
  HostM.updateApp r (Databag.ofList [(shareNameKey, name)]) token

/-- The server's application scope of `r`; empty when the server is unknown. -/
def serverData (r : Relation) : HostM Databag := do
  match ← HostM.remoteApp r with
  | some app => HostM.read r (.app app)
  | none => pure .empty

/-- The share published on `r`, if any can be read. -/
def shareInfo (_ : ShareRequires) (r : Relation) : HostM (Option ShareInfo) := do
  match (← serverData r).get? shareInfoKey with
  | some raw =>
    if raw.isEmpty then pure none
    else match Json.readRecord (ShareInfo.schema.map (·.name)) raw with
      | .ok j => pure (ShareInfo.ofJson j).toOption
      | .error _ => pure none
  | none => pure none

/-- The credentials published on `r`, if any. -/
def authInfo (_ : ShareRequires) (r : Relation) : HostM (Option AuthInfo) := do
  match (← serverData r).get? authKey with
  | some raw =>
    if raw.isEmpty then pure none
    else match SecretRef.parseLenient raw with
      | some pointer => pure (AuthInfo.ofDatabag (← HostM.resolve pointer))
      | none => pure none
  | none => pure none

end ShareRequires

end ShareBroker
