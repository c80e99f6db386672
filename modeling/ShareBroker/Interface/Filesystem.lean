import ShareBroker.Host.Change
import ShareBroker.Negotiation
import ShareBroker.Filesystem.Uri

/-! # Publishing a filesystem

A filesystem provider publishes one endpoint URI under `endpoint` in its application scope.
The URI is also kept, with the id of the secret behind it, in the provider's peer relation,
so that relations created later are served without rebuilding it from configuration.

* `FilesystemProvides.setInfo` refuses a record that fails `FsInfo.validate`; otherwise it
  keeps the CephFS credentials in the secret `filesystem-info-auth` when the host supports
  secrets (inline in the URI otherwise), stores URI and secret id in the first peer relation,
  and publishes the URI on every live relation, granting the secret to each.
* `FilesystemProvides.handle` serves a joining relation from the peer data and revokes the
  secret from a broken one; only the leader acts.
* `FilesystemRequires.handle` mounts when the provider's `endpoint` appears or changes and
  unmounts when it is removed or the relation goes away.
* `FilesystemRequires.endpoints` reads every usable endpoint, skipping those that cannot be
  decoded; `endpointsByType` allows one relation per filesystem kind.
-/

namespace ShareBroker

/-- The key of the published URI. -/
def endpointKey : String := "endpoint"

/-- The key of the secret id kept beside the URI in the peer relation. -/
def secretKey : String := "secret"

/-- The label of the secret holding the published credentials. -/
def infoSecretLabel : String := "filesystem-info-auth"

/-- A provider's endpoint as a requirer sees it. -/
structure Endpoint where
  info : FsInfo
  uri : String
  relation : Relation
  deriving DecidableEq

/-- The provider side of an endpoint, with the peer relation that keeps its URI. -/
structure FilesystemProvides where
  endpoint : String
  peers : String

namespace FilesystemProvides

/-- The URI and secret id kept in the first peer relation, if a URI is kept. -/
def stored (side : FilesystemProvides) : HostM (Option (String × Option String)) := do
  match (← HostM.relationsOn side.peers).head? with
  | none => pure none
  | some peer =>
    let data ← HostM.read peer (← HostM.ownApp)
    pure ((data.get? endpointKey).map fun uri => (uri, data.get? secretKey))

/-- Publishes a URI on one relation, granting the secret behind it. -/
def publish (token : LeadershipToken) (r : Relation) (uri : String) (secret : Option String) :
    HostM Unit := do
  match secret with
  | some id => HostM.grantSecret id r
  | none => pure ()
  HostM.updateApp r (Databag.ofList [(endpointKey, uri)]) token

/-- Publishes a record to every current and future relation. -/
def setInfo (side : FilesystemProvides) (token : LeadershipToken) (info : FsInfo) : HostM Unit := do
  HostM.ofOutcome info.validate
  let (uri, secret) ← match info.secretContent with
    | some content => do
      match ← HostM.conceal content infoSecretLabel with
      | .secret id => pure (info.toUriSealed id, some id)
      | .plain _ => pure (info.toUri, none)
    | none => pure (info.toUri, none)
  match (← HostM.relationsOn side.peers).head? with
  | some peer =>
    HostM.updateApp peer (Databag.ofList [(endpointKey, uri), (secretKey, secret.getD "")]) token
  | none => pure ()
  for r in ← HostM.relationsOn side.endpoint do
    publish token r uri secret

/-- Serves joining relations and releases the secret of broken ones. -/
def handle (side : FilesystemProvides) (e : HostEvent) : HostM Unit := do
  match e.relationOn side.endpoint with
  | none => pure ()
  | some r =>
    match ← HostM.leadership with
    | none => pure ()
    | some token =>
      match e with
      | .relationJoined .. =>
        match ← side.stored with
        | some (uri, secret) => publish token r uri secret
        | none => pure ()
      | .relationBroken .. =>
        match ← side.stored with
        | some (_, some id) => HostM.revokeSecret id r
        | _ => pure ()
      | _ => pure ()

end FilesystemProvides

/-- What a filesystem requirer learns from an event. -/
inductive FilesystemRequiresEvent where
  | mountFilesystem (r : Relation)
  | umountFilesystem (r : Relation)
  deriving DecidableEq

/-- The requirer side of an endpoint. -/
structure FilesystemRequires where
  endpoint : String

namespace FilesystemRequires

open Negotiation

/-- What an event means for the requirer. -/
def handle (side : FilesystemRequires) (e : HostEvent) : HostM (List FilesystemRequiresEvent) := do
  match e.relationOn side.endpoint with
  | none => pure []
  | some r =>
    let signal ← match e with
      | .relationChanged _ app _ => do
        let own ← HostM.ownUnit
        let observed := Scope.app app
        let previous ← HostM.cached r own observed
        let state := RequirerState.observe ((previous.get? endpointKey).map fun _ => true)
        let t ← HostM.diff r own observed
        if t.touched endpointKey then pure (state.step .ready).2
        else if t.deleted.contains endpointKey then pure (state.step .notReady).2
        else pure none
      | .relationDeparted .. | .relationBroken .. => pure (some RequirerSignal.unmounted)
      | _ => pure none
    pure <| match signal with
      | some .mounted => [.mountFilesystem r]
      | some .unmounted => [.umountFilesystem r]
      | _ => []

/-- The endpoints published over every live relation, skipping unusable ones. -/
def endpoints (side : FilesystemRequires) : HostM (List Endpoint) := do
  let mut found : List Endpoint := []
  for r in ← HostM.relationsOn side.endpoint do
    match ← HostM.remoteApp r with
    | none => pure ()
    | some app =>
      match (← HostM.read r (.app app)).get? endpointKey with
      | some uri =>
        if !uri.isEmpty then
          match FsInfo.fromUriWith uri (← get).vault.content with
          | .ok info => found := found ++ [⟨info, uri, r⟩]
          | .error _ => pure ()
      | none => pure ()
  pure found

/-- Puts an endpoint into a list ordered by filesystem kind. -/
def insertByKind (e : Endpoint) : List (FsKind × Endpoint) → List (FsKind × Endpoint)
  | [] => [(e.info.kind, e)]
  | (k, e') :: rest =>
    if e.info.kind.rank < k.rank then (e.info.kind, e) :: (k, e') :: rest
    else (k, e') :: insertByKind e rest

/-- The endpoints by filesystem kind, in kind order; two of one kind conflict. -/
def endpointsByType (side : FilesystemRequires) : HostM (List (FsKind × Endpoint)) := do
  let mut byKind : List (FsKind × Endpoint) := []
  for e in ← side.endpoints do
    if byKind.any (·.1 == e.info.kind) then
      throw (.relationConflict side.endpoint
        ("Too many relations for mount type `" ++ e.info.kind.scheme ++ "`"))
    byKind := insertByKind e byKind
  pure byKind

end FilesystemRequires

end ShareBroker
