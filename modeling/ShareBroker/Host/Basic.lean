import ShareBroker.Host.Vault
import ShareBroker.Event
import ShareBroker.Status
import ShareBroker.Yaml.Basic

/-! # The host's model of a unit

Everything a unit can see of its model is held by the host: the relations with their scopes,
leadership, the application's secrets, the statuses, the configuration and the events a charm
asked to see again. `Host` is that model, kept in memory, and `HostM` is how charms and
relation interfaces act on it.

Relations:

* `Host.addRelation` creates a relation with the next id, counting from 0 across endpoints;
* a relation that has been broken stays known but is no longer live: `Host.relationsOn` skips
  it, and reading or writing its scopes fails with `RelationBroken`;
* a write merges an update into a scope, where an empty value deletes its key
  (`Databag.merge`); the application's scope may only be written by the leader.

Secrets are created only when the host supports them (`secrets are not supported` otherwise);
`Host.mirror` builds the unit on the other side of a relation, which sees this unit's scopes
of it as remote data and shares its secrets.

An action of `HostM` that fails keeps what it wrote before failing, as the host does.
-/

namespace ShareBroker

/-- What the host holds about one relation. -/
structure RelationState where
  remoteApp : String
  remoteUnits : List String := []
  /-- The scopes written so far, in scope order. -/
  bags : List (Scope × Databag) := []
  broken : Bool := false
  deriving Inhabited

namespace RelationState

/-- The contents of a scope; empty when it was never written. -/
def bag (r : RelationState) (s : Scope) : Databag :=
  ((r.bags.find? (·.1 == s)).map (·.2)).getD .empty

/-- Puts a scope's contents into a scope-ordered list, replacing an equal scope. -/
def putBag (s : Scope) (d : Databag) : List (Scope × Databag) → List (Scope × Databag)
  | [] => [(s, d)]
  | (s', d') :: rest =>
    if Scope.lt s s' then (s, d) :: (s', d') :: rest
    else if s = s' then (s, d) :: rest
    else (s', d') :: putBag s d rest

/-- Merges an update into a scope. -/
def merge (r : RelationState) (s : Scope) (update : Databag) : RelationState :=
  { r with bags := putBag s ((r.bag s).merge update) r.bags }

/-- Forgets a scope. -/
def dropBag (r : RelationState) (s : Scope) : RelationState :=
  { r with bags := r.bags.filter (·.1 != s) }

end RelationState

/-- Proof that the unit was the leader when it was handed out. Writers still check leadership
when it is used, since it can be lost in between. -/
structure LeadershipToken where

/-- The host's model of one unit. -/
structure Host where
  app : String
  unit : String
  leader : Bool := false
  config : Yaml := .null
  secretsAvailable : Bool := false
  /-- The relations, in relation order. -/
  relations : List (Relation × RelationState) := []
  vault : Vault := Vault.empty
  /-- How many relation ids have been handed out. The source keeps the id of the next relation
  in a 32-bit word; that word is `Host.counter`, the count taken to 32 bits, so it steps and
  wraps as the source's does. -/
  nextId : Nat := 0
  unitStatus : Option Status := none
  appStatus : Option Status := none
  /-- The events to deliver again, oldest first. -/
  deferred : List HostEvent := []
  deriving Inhabited

/-- Acting on the host: an action may fail, and keeps what it did before failing. -/
abbrev HostM := ExceptT Error (StateM Host)

/-- Puts a relation into a relation-ordered list, replacing an equal relation. -/
def putRelation (r : Relation) (st : RelationState) :
    List (Relation × RelationState) → List (Relation × RelationState)
  | [] => [(r, st)]
  | (r', st') :: rest =>
    if Relation.lt r r' then (r, st) :: (r', st') :: rest
    else if r = r' then (r, st) :: rest
    else (r', st') :: putRelation r st rest

namespace Host

/-- A unit with no relations, secrets or configuration, not the leader. -/
def new (app unit : String) : Host := { app := app, unit := unit }

/-- The unit's own scope. -/
def ownUnit (h : Host) : Scope := .unit h.unit

/-- The application's own scope. -/
def ownApp (h : Host) : Scope := .app h.app

/-- What the host holds about a relation, broken or not. -/
def state? (h : Host) (r : Relation) : Option RelationState :=
  (h.relations.find? (·.1 == r)).map (·.2)

/-- Changes what the host holds about a relation, if it knows it. -/
def modifyRelation (h : Host) (r : Relation) (f : RelationState → RelationState) : Host :=
  match h.state? r with
  | some st => { h with relations := putRelation r (f st) h.relations }
  | none => h

/-- Whether a relation is known and not broken. -/
def isLive (h : Host) (r : Relation) : Bool :=
  match h.state? r with
  | some st => !st.broken
  | none => false

/-! ## Setting up the model -/

/-- Gives or takes leadership. -/
def setLeader (h : Host) (leader : Bool) : Host := { h with leader := leader }

/-- Says whether the host supports secrets. -/
def setSecretsAvailable (h : Host) (available : Bool) : Host :=
  { h with secretsAvailable := available }

/-- The id the next relation gets: the count of ids handed out, as a 32-bit word. -/
def counter (h : Host) : UInt32 := h.nextId.toUInt32

/-- Creates a relation on `endpoint` with the application `remoteApp`. -/
def addRelation (h : Host) (endpoint remoteApp : String) : Relation × Host :=
  let r : Relation := ⟨endpoint, h.counter⟩
  (r, { h with relations := putRelation r { remoteApp := remoteApp } h.relations,
               nextId := h.nextId + 1 })

/-- A remote unit joins a relation. -/
def addRelationUnit (h : Host) (r : Relation) (unit : String) : Host :=
  h.modifyRelation r fun st => { st with remoteUnits := st.remoteUnits ++ [unit] }

/-- A remote unit leaves a relation, and its scope goes with it. -/
def removeRelationUnit (h : Host) (r : Relation) (unit : String) : Host :=
  h.modifyRelation r fun st =>
    { (st.dropBag (.unit unit)) with remoteUnits := st.remoteUnits.filter (· != unit) }

/-- Writes into a scope as its owner on the remote side would. -/
def remoteUpdate (h : Host) (r : Relation) (s : Scope) (update : Databag) : Host :=
  h.modifyRelation r fun st => st.merge s update

/-- The current contents of a scope, whoever owns it, broken relation or not. -/
def bag (h : Host) (r : Relation) (s : Scope) : Databag :=
  ((h.state? r).map (·.bag s)).getD .empty

/-- Tears a relation down, as seen from within its broken hook. -/
def breakRelation (h : Host) (r : Relation) : Host :=
  h.modifyRelation r fun st => { st with broken := true }

/-- The unit `unit` of `app` on the other side of `r`: it sees this unit's scopes of `r` that
are not empty as remote data, shares this unit's secrets, and numbers its own relations
after `r`. -/
def mirror (h : Host) (app unit : String) (r : Relation) : Host :=
  let bags := [h.ownApp, h.ownUnit].filterMap fun s =>
    let d := h.bag r s
    if d.isEmpty then none else some (s, d)
  let st : RelationState :=
    { remoteApp := h.app, remoteUnits := [h.unit],
      bags := bags.foldl (fun acc sd => RelationState.putBag sd.1 sd.2 acc) [] }
  { Host.new app unit with
    secretsAvailable := h.secretsAvailable, vault := h.vault, nextId := r.id.toNat + 1,
    relations := [(r, st)] }

end Host

namespace HostM

/-- The state of a live relation; fails when it is broken or unknown. -/
def live (r : Relation) : HostM RelationState := do
  match (← get).state? r with
  | some st => if st.broken then throw (.relationBroken r) else pure st
  | none => throw (.relationBroken r)

/-- The live relations on an endpoint, in order. -/
def relationsOn (endpoint : String) : HostM (List Relation) := do
  pure (((← get).relations.filter fun e => e.1.endpoint == endpoint && !e.2.broken).map (·.1))

/-- The application on the other side of a relation, broken or not. -/
def remoteApp (r : Relation) : HostM (Option String) := do
  pure (((← get).state? r).map (·.remoteApp))

/-- The remote units that joined a live relation. -/
def remoteUnits (r : Relation) : HostM (List String) := do
  pure (← live r).remoteUnits

/-- Reads a whole scope of a live relation. -/
def read (r : Relation) (s : Scope) : HostM Databag := do
  pure ((← live r).bag s)

/-- Merges an update into the unit's own scope of a live relation. -/
def updateUnit (r : Relation) (update : Databag) : HostM Unit := do
  let st ← live r
  modify fun h => { h with relations := putRelation r (st.merge h.ownUnit update) h.relations }

/-- Merges an update into the application's scope of a live relation; only the leader may. -/
def updateApp (r : Relation) (update : Databag) (_ : LeadershipToken) : HostM Unit := do
  let h ← get
  if !h.leader then throw (.notLeader h.unit)
  let st ← live r
  modify fun h => { h with relations := putRelation r (st.merge h.ownApp update) h.relations }

/-- The unit's own scope. -/
def ownUnit : HostM Scope := do pure (← get).ownUnit

/-- The application's own scope. -/
def ownApp : HostM Scope := do pure (← get).ownApp

/-- A token when, and only when, the unit is the leader. -/
def leadership : HostM (Option LeadershipToken) := do
  pure (if (← get).leader then some ⟨⟩ else none)

/-- Sets the unit's status. -/
def setStatus (s : Status) : HostM Unit := modify fun h => { h with unitStatus := some s }

/-- Sets the application's status; only the leader may. -/
def setAppStatus (s : Status) (_ : LeadershipToken) : HostM Unit := do
  let h ← get
  if !h.leader then throw (.notLeader h.unit)
  set { h with appStatus := some s }

/-- The configuration value. -/
def config : HostM Yaml := do pure (← get).config

/-- Asks for an event to be delivered again later. -/
def defer (e : HostEvent) : HostM Unit := modify fun h => { h with deferred := h.deferred ++ [e] }

/-- Removes and returns the events to deliver again, oldest first. -/
def takeDeferred : HostM (List HostEvent) := do
  let h ← get
  set { h with deferred := [] }
  pure h.deferred

/-! ## Secrets -/

/-- Whether the host supports secrets. -/
def secretsAvailable : HostM Bool := do pure (← get).secretsAvailable

/-- Stores content under a label: the secret with that label gets it, or a new one is made. -/
def ensureSecret (content : Databag) (label : String) : HostM String := do
  let h ← get
  if !h.secretsAvailable then throw (.secret "secrets are not supported")
  let (id, v) := h.vault.ensure content label
  set { h with vault := v }
  pure id

/-- The id of the secret with a label, if any. -/
def lookupSecret (label : String) : HostM (Option String) := do pure ((← get).vault.lookup label)

/-- Lifts a change of the vault that may fail. -/
def withVault (f : Vault → Outcome Vault) : HostM Unit := do
  let h ← get
  match f h.vault with
  | .ok v => set { h with vault := v }
  | .error e => throw e

/-- Grants a secret to a relation. -/
def grantSecret (id : String) (r : Relation) : HostM Unit := withVault (·.grant id r)

/-- Revokes a secret from a relation. -/
def revokeSecret (id : String) (r : Relation) : HostM Unit := withVault (·.revoke id r)

/-- The content of a secret. -/
def secretContent (id : String) : HostM Databag := do
  match (← get).vault.content id with
  | .ok d => pure d
  | .error e => throw e

/-- Lifts an outcome. -/
def ofOutcome {α : Type} (r : Outcome α) : HostM α :=
  match r with
  | .ok a => pure a
  | .error e => throw e

end HostM

end ShareBroker
