import ShareBroker.Session.Step
import ShareBroker.Yaml.Read

/-! # Running a session

A session holds named simulated units (`Site`s), the first named `main`. Each site has the
host's model of the unit, its machine, the charm it runs (if any), a leadership token kept by
`grabToken`, and the relations and secret labels the session has named for it.

`Session.step` performs one step on one site:

* steps that write the application's scope or status need a leadership token: a fresh one
  when the unit is the leader, otherwise the kept one; with neither, the step answers
  `noToken` and changes nothing;
* a step that names a relation or a secret label makes it known to the site, even when the
  host does not know it; `mirror` creates a new site on the other side of a relation, which
  knows that relation and no label;
* a failing step answers its error and keeps what it did before failing.

`Site.view` is what a site shows after a step. It shows the relations the site knows, and the
secrets among those labelled `filesystem-info-auth`, `auth-info-<id>` for a relation it
knows, or with a label it knows, in label order.
-/

namespace ShareBroker

/-- One simulated unit of a session. -/
structure Site where
  host : Host
  machine : Executor := {}
  charm : Option CharmKind := none
  token : Option LeadershipToken := none
  /-- The relations named so far, in relation order. -/
  known : List Relation := []
  /-- The secret labels named so far, in order of first mention. -/
  labels : List String := []

namespace Site

/-- Makes a relation known. -/
def mention (s : Site) (r : Relation) : Site := { s with known := Vault.insertRelation r s.known }

/-- Makes a secret label known. -/
def mentionLabel (s : Site) (label : String) : Site :=
  if s.labels.contains label then s else { s with labels := s.labels ++ [label] }

/-- Makes known what a step names. -/
def notice (s : Site) (st : Step) : Site :=
  let s := match st.relation? with
    | some r => s.mention r
    | none => s
  match st.label? with
  | some l => s.mentionLabel l
  | none => s

/-- Runs a host action on the site. -/
def onHost {α : Type} (s : Site) (m : HostM α) : Outcome α × Site :=
  let (r, h) := m.run.run s.host
  (r, { s with host := h })

/-- The reply to an outcome. -/
def answer {α : Type} (r : Outcome α) (f : α → Reply) : Reply :=
  match r with
  | .ok a => f a
  | .error e => .failed e

/-- Runs a host action and replies from its outcome. -/
def ask {α : Type} (s : Site) (m : HostM α) (f : α → Reply) : Reply × Site :=
  let (r, s') := s.onHost m
  (answer r f, s')

/-- The token a step may use: a fresh one for the leader, otherwise the kept one. -/
def usableToken (s : Site) : Option LeadershipToken :=
  if s.host.leader then some ⟨⟩ else s.token

/-- Runs an action that needs a leadership token. -/
def withToken (s : Site) (m : LeadershipToken → HostM Unit) : Reply × Site :=
  match s.usableToken with
  | some t => s.ask (m t) fun _ => .done
  | none => (.noToken, s)

/-- Replaces the host. -/
def setHost (s : Site) (h : Host) : Site := { s with host := h }

/-- The notices of an interface side for an event. -/
def notices (side : InterfaceSide) (endpoint peers : String) (e : HostEvent) :
    HostM (Option (List Notice)) :=
  match side with
  | .mountRequires => do pure (some ((← (⟨endpoint⟩ : MountRequires).handle e).map .mountRequires))
  | .mountProvides => do pure (some ((← (⟨endpoint⟩ : MountProvides).handle e).map .mountProvides))
  | .filesystemRequires => do
    pure (some ((← (⟨endpoint⟩ : FilesystemRequires).handle e).map .filesystemRequires))
  | .filesystemProvides => do
    (⟨endpoint, peers⟩ : FilesystemProvides).handle e
    pure none
  | .shareRequires => do pure (some ((← (⟨endpoint⟩ : ShareRequires).handle e).map .shareRequires))
  | .shareProvides => do pure (some ((← (⟨endpoint⟩ : ShareProvides).handle e).map .shareProvides))

/-- Performs a step that stays on this site. -/
def perform (s : Site) : Step → Reply × Site
  | .setLeader b => (.done, s.setHost (s.host.setLeader b))
  | .grabToken =>
    let t : Option LeadershipToken := if s.host.leader then some ⟨⟩ else none
    (.token t.isSome, { s with token := t })
  | .dropToken => (.done, { s with token := none })
  | .setConfig yaml =>
    match Yaml.read yaml with
    | .ok v => (.done, s.setHost { s.host with config := v })
    | .error e => (.failed (.yaml e.message), s)
  | .setSecretsAvailable b => (.done, s.setHost (s.host.setSecretsAvailable b))
  | .addRelation endpoint app =>
    let (r, h) := s.host.addRelation endpoint app
    (.relation r, (s.setHost h).mention r)
  | .addRelationUnit r u => (.done, s.setHost (s.host.addRelationUnit r u))
  | .removeRelationUnit r u => (.done, s.setHost (s.host.removeRelationUnit r u))
  | .remoteUpdate r scope data => (.done, s.setHost (s.host.remoteUpdate r scope data))
  | .breakRelation r => (.done, s.setHost (s.host.breakRelation r))
  | .mirror .. => (.done, s)
  | .run e =>
    match s.charm with
    | none => (.noCharm, s)
    | some k =>
      let (r, h, x) := ((k.run e).run.run (s.host, s.machine))
      (answer r fun _ => .done, { s with host := h, machine := x })
  | .handle side endpoint peers e =>
    s.ask (notices side endpoint peers e) fun
      | some ns => .notices ns
      | none => .done
  | .setMountInfo endpoint r info =>
    s.withToken fun t => (⟨endpoint⟩ : MountRequires).setMountInfo t r info
  | .mountInfo endpoint r => s.ask ((⟨endpoint⟩ : MountProvides).mountInfo r) .mountInfo
  | .setMountStatus endpoint mounted =>
    s.ask ((⟨endpoint⟩ : MountProvides).setMountStatus mounted) fun _ => .done
  | .setInfo endpoint peers info =>
    s.withToken fun t => (⟨endpoint, peers⟩ : FilesystemProvides).setInfo t info
  | .endpoints endpoint => s.ask (⟨endpoint⟩ : FilesystemRequires).endpoints .endpoints
  | .endpointsByKind endpoint =>
    s.ask (⟨endpoint⟩ : FilesystemRequires).endpointsByType .endpointsByKind
  | .requestShare endpoint r name =>
    s.withToken fun t => (⟨endpoint⟩ : ShareRequires).requestShare t r name
  | .setShare endpoint r share auth =>
    s.withToken fun t => (⟨endpoint⟩ : ShareProvides).setShare t r share auth
  | .shareInfo endpoint r => s.ask ((⟨endpoint⟩ : ShareRequires).shareInfo r) .shareInfo
  | .authInfo endpoint r => s.ask ((⟨endpoint⟩ : ShareRequires).authInfo r) .authInfo
  | .diff r own observed => s.ask (HostM.diff r own observed) .transaction
  | .cached r own observed => s.ask (HostM.cached r own observed) .databag
  | .read r scope => s.ask (HostM.read r scope) .databag
  | .updateUnit r data => s.ask (HostM.updateUnit r data) fun _ => .done
  | .updateApp r data => s.withToken fun t => HostM.updateApp r data t
  | .relations endpoint => s.ask (HostM.relationsOn endpoint) .relations
  | .remoteUnits r => s.ask (HostM.remoteUnits r) .units
  | .ensureSecret label content => s.ask (HostM.ensureSecret content label) .secretId
  | .lookupSecret label => s.ask (HostM.lookupSecret label) .lookup
  | .grantSecret id r => s.ask (HostM.grantSecret id r) fun _ => .done
  | .revokeSecret id r => s.ask (HostM.revokeSecret id r) fun _ => .done
  | .secretContent id => s.ask (HostM.secretContent id) .databag
  | .conceal label content => s.ask (HostM.conceal content label) .sealed
  | .resolve pointer =>
    s.ask (do HostM.resolve (← HostM.ofOutcome (SecretRef.parse pointer))) .databag
  | .fromUriWith uri => s.ask (do HostM.ofOutcome (FsInfo.fromUriWith uri (← get).vault.content)) .info
  | .defer e => s.ask (HostM.defer e) fun _ => .done
  | .takeDeferred => s.ask HostM.takeDeferred .events
  | .setStatus status app =>
    if app then s.withToken fun t => HostM.setAppStatus status t
    else s.ask (HostM.setStatus status) fun _ => .done

end Site

/-- Named simulated units, the first named `main`. -/
structure Session where
  sites : List (String × Site)

namespace Session

/-- A session with one unit, `main`. -/
def start (app unit : String) (charm : Option CharmKind) (machine : Executor) : Session :=
  ⟨[("main", { host := Host.new app unit, machine := machine, charm := charm })]⟩

/-- The site of a name. -/
def site? (ss : Session) (name : String) : Option Site :=
  (ss.sites.find? (·.1 == name)).map (·.2)

/-- Sets the site of a name, adding it at the end when new. -/
def put (ss : Session) (name : String) (s : Site) : Session :=
  if ss.sites.any (·.1 == name) then
    ⟨ss.sites.map fun e => if e.1 == name then (name, s) else e⟩
  else ⟨ss.sites ++ [(name, s)]⟩

/-- Performs a step on the site `on`; returns the reply, the site to show and the session.
None when there is no such site. -/
def step (ss : Session) (on : String) (st : Step) : Option (Reply × Site × Session) :=
  (ss.site? on).map fun found =>
    let s := found.notice st
    match st with
    | .mirror name app unit r charm machine =>
      let other : Site :=
        { host := s.host.mirror app unit r, machine := machine, charm := charm, known := [r] }
      (.done, other, (ss.put on s).put name other)
    | _ =>
      let (reply, s') := s.perform st
      (reply, s', ss.put on s')

end Session

/-- What a site shows of one relation. -/
structure RelationView where
  relation : Relation
  live : Bool
  remoteApp : Option String
  /-- None when the relation is not live. -/
  remoteUnits : Option (List String)
  /-- The scopes that are not empty, in scope order. -/
  bags : List (Scope × Databag)

/-- What a site shows of one secret. -/
structure SecretView where
  label : String
  id : String
  content : Databag
  grants : List Relation

/-- What a site shows after a step. -/
structure SiteView where
  leader : Bool
  unitStatus : Option Status
  appStatus : Option Status
  deferred : List HostEvent
  relations : List RelationView
  /-- The secrets, by label. -/
  secrets : List SecretView
  /-- The machine, for a charm that mounts filesystems. -/
  machine : Option Executor

/-- Inserts a label into an ordered list without repeats. -/
def insertLabel (l : String) : List String → List String
  | [] => [l]
  | m :: rest => if l < m then l :: m :: rest else if l = m then m :: rest else m :: insertLabel l rest

namespace Site

/-- What the site shows of a relation. -/
def relationView (s : Site) (r : Relation) : RelationView :=
  let st := s.host.state? r
  let live := s.host.isLive r
  { relation := r, live := live, remoteApp := st.map (·.remoteApp),
    remoteUnits := if live then st.map (·.remoteUnits) else none,
    bags := ((st.map (·.bags)).getD []).filter fun e => !e.2.isEmpty }

/-- The labels of the secrets the site shows, in order: the published credentials, the
credentials of each relation it knows, and the labels it knows. -/
def secretLabels (s : Site) : List String :=
  (infoSecretLabel :: s.known.map authSecretLabel ++ s.labels).foldr insertLabel []

/-- What the site shows. -/
def view (s : Site) : SiteView where
  leader := s.host.leader
  unitStatus := s.host.unitStatus
  appStatus := s.host.appStatus
  deferred := s.host.deferred
  relations := s.known.map s.relationView
  secrets := s.secretLabels.filterMap fun l =>
    (s.host.vault.entries.find? (·.2.label == l)).map fun e =>
      ⟨l, e.1, e.2.content, e.2.grants⟩
  machine := if (s.charm.map CharmKind.usesMachine).getD false then some s.machine else none

end Site

end ShareBroker
