import ShareBroker.Proofs.Host.Views

/-!
# Reachable hosts

A charm acts on its host only through the actions of `HostM`, and the model is set up and
driven from the remote side by the operations of `Host`. This file gives each action that
writes the host its run equation (`HostM.run_updateUnit`, `HostM.run_updateApp`, ...), or says
that it leaves the relations alone (`HostM.KeepsRelations`), collects all of them in `HostOp`,
and defines the hosts `Host.Reachable` from `Host.new` and `Host.mirror` by them.

`Host.Reachable.wellFormed`: no scope of a reachable host holds an empty value, so statements
about scopes may assume it of any host a unit can be in. `HostOp.relations_apply` says once what
an operation does to the relations and to the count of ids, and the invariants on them are read
off it.
-/

namespace ShareBroker

/-! ## Running actions

The host's actions and the charm's are both state actions that may fail, kept apart only by
the state they carry, so chaining them is stated once for any state. -/

section Chaining

variable {σ α β : Type}

/-- A first action that succeeds hands its result and its state to the rest. -/
theorem run_bind_ok {x : ExceptT Error (StateM σ) α} {s s' : σ} {a : α}
    (hx : x.run.run s = (.ok a, s')) (f : α → ExceptT Error (StateM σ) β) :
    (x >>= f).run.run s = (f a).run.run s' := by
  simp only [ExceptT.run_bind, StateT.run_bind, hx]
  rfl

/-- A first action that fails ends the run with its error and its state. -/
theorem run_bind_error {x : ExceptT Error (StateM σ) α} {s s' : σ} {e : Error}
    (hx : x.run.run s = (.error e, s')) (f : α → ExceptT Error (StateM σ) β) :
    (x >>= f).run.run s = (.error e, s') := by
  simp only [ExceptT.run_bind, StateT.run_bind, hx]
  rfl

end Chaining

namespace HostM

@[simp] theorem id_pure {α : Type} (a : α) : (pure a : Id α) = a := rfl

@[simp] theorem run_get_bind {α : Type} (f : Host → HostM α) (h : Host) :
    (get >>= f : HostM α).run.run h = (f h).run.run h := rfl

@[simp] theorem run_pure {α : Type} (a : α) (h : Host) :
    (pure a : HostM α).run.run h = (.ok a, h) := rfl

@[simp] theorem run_throw {α : Type} (e : Error) (h : Host) :
    (throw e : HostM α).run.run h = (.error e, h) := rfl

@[simp] theorem run_throw_bind {α β : Type} (e : Error) (f : α → HostM β) (h : Host) :
    (throw e >>= f : HostM β).run.run h = (.error e, h) := rfl

@[simp] theorem run_set (h' h : Host) : (set h' : HostM PUnit).run.run h = (.ok ⟨⟩, h') := rfl

@[simp] theorem run_modify (f : Host → Host) (h : Host) :
    (modify f : HostM PUnit).run.run h = (.ok ⟨⟩, f h) := rfl

section Relations

variable {h : Host} {r : Relation}

theorem run_live_of_isLive (hr : h.isLive r = true) :
    ∃ st, h.state? r = some st ∧ (live r).run.run h = (.ok st, h) := by
  obtain ⟨st, hst, hb⟩ := (Host.isLive_iff h r).1 hr
  refine ⟨st, hst, ?_⟩
  simp only [live, run_get_bind, hst, hb, Bool.false_eq_true, ↓reduceIte, run_pure]

theorem run_live_of_not_isLive (hr : h.isLive r = false) :
    (live r).run.run h = (.error (.relationBroken r), h) := by
  cases hst : h.state? r with
  | none => simp only [live, run_get_bind, hst, run_throw]
  | some st =>
    have hb : st.broken = true := by simpa [Host.isLive, hst] using hr
    simp only [live, run_get_bind, hst, hb, ↓reduceIte, run_throw]

/-- Reading a scope of a live relation gives its contents and changes nothing. -/
theorem run_read_of_isLive (hr : h.isLive r = true) (s : Scope) :
    (read r s).run.run h = (.ok (h.bag r s), h) := by
  obtain ⟨st, hst, hlive⟩ := run_live_of_isLive hr
  rw [read, run_bind_ok hlive]
  simp [Host.bag_eq, hst]

theorem run_read_of_not_isLive (hr : h.isLive r = false) (s : Scope) :
    (read r s).run.run h = (.error (.relationBroken r), h) := by
  rw [read, run_bind_error (run_live_of_not_isLive hr)]

/-- Writing the unit's own scope of a live relation merges the update into it, as the remote
side's write into that scope would; otherwise nothing changes. -/
theorem run_updateUnit (r : Relation) (u : Databag) (h : Host) :
    (updateUnit r u).run.run h =
      if h.isLive r then (.ok (), h.remoteUpdate r h.ownUnit u)
      else (.error (.relationBroken r), h) := by
  cases hr : h.isLive r with
  | true =>
    obtain ⟨st, hst, hlive⟩ := run_live_of_isLive hr
    rw [updateUnit, run_bind_ok hlive]
    simp [Host.remoteUpdate, Host.modifyRelation, hst]
  | false => rw [updateUnit, run_bind_error (run_live_of_not_isLive hr), if_neg (by simp)]

/-- Writing the application's scope: only the leader may, and only into a live relation. -/
theorem run_updateApp (r : Relation) (u : Databag) (t : LeadershipToken) (h : Host) :
    (updateApp r u t).run.run h =
      if h.leader then
        if h.isLive r then (.ok (), h.remoteUpdate r h.ownApp u)
        else (.error (.relationBroken r), h)
      else (.error (.notLeader h.unit), h) := by
  cases hl : h.leader with
  | false =>
    simp only [updateApp, run_get_bind, hl, Bool.not_false, Bool.false_eq_true, ↓reduceIte,
      run_throw_bind]
  | true =>
    cases hr : h.isLive r with
    | true =>
      obtain ⟨st, hst, hlive⟩ := run_live_of_isLive hr
      simp only [updateApp, run_get_bind, hl, Bool.not_true, Bool.false_eq_true, ↓reduceIte]
      rw [run_bind_ok hlive]
      simp [Host.remoteUpdate, Host.modifyRelation, hst]
    | false =>
      simp only [updateApp, run_get_bind, hl, Bool.not_true, Bool.false_eq_true, ↓reduceIte]
      rw [run_bind_error (run_live_of_not_isLive hr)]

end Relations

/-! ## Actions that leave the relations alone -/

/-- Changing the application's status: only the leader may. -/
theorem run_setAppStatus (s : Status) (t : LeadershipToken) (h : Host) :
    (setAppStatus s t).run.run h =
      if h.leader then (.ok (), { h with appStatus := some s })
      else (.error (.notLeader h.unit), h) := by
  cases hl : h.leader
  · simp only [setAppStatus, run_get_bind, hl, Bool.not_false, Bool.false_eq_true, ↓reduceIte,
      run_throw_bind]
  · simp only [setAppStatus, run_get_bind, hl, Bool.not_true, Bool.false_eq_true, ↓reduceIte,
      run_set]

/-- Storing a secret: only a host with secrets may, and the vault stores it under its label. -/
theorem run_ensureSecret (content : Databag) (label : String) (h : Host) :
    (ensureSecret content label).run.run h =
      if h.secretsAvailable then
        (.ok (h.vault.ensure content label).1, { h with vault := (h.vault.ensure content label).2 })
      else (.error (.secret "secrets are not supported"), h) := by
  cases ha : h.secretsAvailable
  · simp only [ensureSecret, run_get_bind, ha, Bool.not_false, Bool.false_eq_true, ↓reduceIte,
      run_throw_bind]
  · simp only [ensureSecret, run_get_bind, ha, Bool.not_true, Bool.false_eq_true, ↓reduceIte]
    rw [run_bind_ok (run_set _ _)]
    rfl

/-- The action leaves the relations as they are, whatever it does and whether it fails. -/
def KeepsRelations {α : Type} (m : HostM α) : Prop :=
  ∀ h : Host, (m.run.run h).2.relations = h.relations

theorem keepsRelations_setStatus (s : Status) : KeepsRelations (setStatus s) := fun _ => rfl

theorem keepsRelations_setAppStatus (s : Status) (t : LeadershipToken) :
    KeepsRelations (setAppStatus s t) := by
  intro h
  rw [run_setAppStatus]
  split <;> rfl

theorem keepsRelations_defer (e : HostEvent) : KeepsRelations (defer e) := fun _ => rfl

theorem keepsRelations_takeDeferred : KeepsRelations takeDeferred := fun _ => rfl

theorem keepsRelations_ensureSecret (content : Databag) (label : String) :
    KeepsRelations (ensureSecret content label) := by
  intro h
  rw [run_ensureSecret]
  split <;> rfl

theorem keepsRelations_withVault (f : Vault → Outcome Vault) : KeepsRelations (withVault f) := by
  intro h
  cases hf : f h.vault with
  | error e => simp only [withVault, run_get_bind, hf, run_throw]
  | ok v => simp only [withVault, run_get_bind, hf, run_set]

end HostM

/-! ## Operations and reachable hosts -/

/-- What changes a host: setting up the model, the remote side's writes, and the actions a
charm takes through `HostM`. -/
inductive HostOp where
  | setLeader (leader : Bool)
  | setConfig (config : Yaml)
  | setSecretsAvailable (available : Bool)
  | addRelation (endpoint remoteApp : String)
  | addRelationUnit (r : Relation) (unit : String)
  | removeRelationUnit (r : Relation) (unit : String)
  | remoteUpdate (r : Relation) (s : Scope) (update : Databag)
  | breakRelation (r : Relation)
  | updateUnit (r : Relation) (update : Databag)
  | updateApp (r : Relation) (update : Databag)
  | setStatus (status : Status)
  | setAppStatus (status : Status)
  | defer (e : HostEvent)
  | takeDeferred
  | ensureSecret (content : Databag) (label : String)
  | grantSecret (id : String) (r : Relation)
  | revokeSecret (id : String) (r : Relation)

namespace HostOp

/-- The host after the operation; a charm's action leaves what it did before it failed. -/
def apply : HostOp → Host → Host
  | .setLeader b, h => h.setLeader b
  | .setConfig c, h => { h with config := c }
  | .setSecretsAvailable b, h => h.setSecretsAvailable b
  | .addRelation e a, h => (h.addRelation e a).2
  | .addRelationUnit r u, h => h.addRelationUnit r u
  | .removeRelationUnit r u, h => h.removeRelationUnit r u
  | .remoteUpdate r s u, h => h.remoteUpdate r s u
  | .breakRelation r, h => h.breakRelation r
  | .updateUnit r u, h => ((HostM.updateUnit r u).run.run h).2
  | .updateApp r u, h => ((HostM.updateApp r u ⟨⟩).run.run h).2
  | .setStatus s, h => ((HostM.setStatus s).run.run h).2
  | .setAppStatus s, h => ((HostM.setAppStatus s ⟨⟩).run.run h).2
  | .defer e, h => ((HostM.defer e).run.run h).2
  | .takeDeferred, h => (HostM.takeDeferred.run.run h).2
  | .ensureSecret c l, h => ((HostM.ensureSecret c l).run.run h).2
  | .grantSecret id r, h => ((HostM.grantSecret id r).run.run h).2
  | .revokeSecret id r, h => ((HostM.revokeSecret id r).run.run h).2

/-- Whether the operation adds a relation, the one operation that hands out an id. -/
def addsRelation : HostOp → Bool
  | .addRelation .. => true
  | _ => false

end HostOp

/-- The hosts a unit can be in: a new unit, or the unit on the other side of a relation of a
reachable host, after any sequence of operations. -/
inductive Host.Reachable : Host → Prop
  | new (app unit : String) : (Host.new app unit).Reachable
  | mirror {h : Host} (app unit : String) (r : Relation) :
      h.Reachable → (h.mirror app unit r).Reachable
  | step {h : Host} (op : HostOp) : h.Reachable → (op.apply h).Reachable

namespace Host

theorem wellFormed_new (app unit : String) : (Host.new app unit).WellFormed := by
  intro r st hst
  simp [Host.new, state?] at hst

/-- Every operation keeps every scope free of empty values. -/
theorem WellFormed.apply {h : Host} (hh : h.WellFormed) (op : HostOp) :
    (op.apply h).WellFormed := by
  -- a write merges into one scope or drops one, keeping it free of empty values; the other
  -- operations change no scope
  cases op with
  | setLeader b => exact hh.of_relations_eq rfl
  | setConfig c => exact hh.of_relations_eq rfl
  | setSecretsAvailable b => exact hh.of_relations_eq rfl
  | addRelation e a => exact hh.putRelation _ (RelationState.wellFormed_of_mem (by simp))
  | addRelationUnit r u => exact hh.modifyRelation r fun _ hst => hst
  | removeRelationUnit r u => exact hh.modifyRelation r fun _ hst => hst.dropBag _
  | remoteUpdate r s u => exact hh.remoteUpdate r s u
  | breakRelation r => exact hh.modifyRelation r fun _ hst => hst
  | updateUnit r u =>
    simp only [HostOp.apply, HostM.run_updateUnit]
    split
    · exact hh.remoteUpdate r _ u
    · exact hh
  | updateApp r u =>
    simp only [HostOp.apply, HostM.run_updateApp]
    split
    · split
      · exact hh.remoteUpdate r _ u
      · exact hh
    · exact hh
  | setStatus s => exact hh.of_relations_eq (HostM.keepsRelations_setStatus s h)
  | setAppStatus s => exact hh.of_relations_eq (HostM.keepsRelations_setAppStatus s ⟨⟩ h)
  | defer e => exact hh.of_relations_eq (HostM.keepsRelations_defer e h)
  | takeDeferred => exact hh.of_relations_eq (HostM.keepsRelations_takeDeferred h)
  | ensureSecret c l => exact hh.of_relations_eq (HostM.keepsRelations_ensureSecret c l h)
  | grantSecret id r => exact hh.of_relations_eq (HostM.keepsRelations_withVault _ h)
  | revokeSecret id r => exact hh.of_relations_eq (HostM.keepsRelations_withVault _ h)

/-- No scope of a reachable host holds an empty value. -/
theorem Reachable.wellFormed {h : Host} (hr : h.Reachable) : h.WellFormed := by
  induction hr with
  | new app unit => exact wellFormed_new app unit
  | mirror app unit r _ ih => exact ih.mirror app unit r
  | step op _ ih => exact ih.apply op

theorem nextId_modifyRelation (h : Host) (r : Relation) (f : RelationState → RelationState) :
    (h.modifyRelation r f).nextId = h.nextId := by
  unfold Host.modifyRelation
  split <;> rfl

end Host

namespace HostOp

/-- What one operation does to the relations and to the count of ids handed out: it adds a
relation, or it keeps the count and changes at most one relation's state, through
`modifyRelation`. -/
theorem relations_apply (op : HostOp) (h : Host) :
    (∃ e a, op = .addRelation e a) ∨
    op.addsRelation = false ∧ (op.apply h).nextId = h.nextId ∧
      ((op.apply h).relations = h.relations ∨
        ∃ r f, (op.apply h).relations = (h.modifyRelation r f).relations) := by
  -- a write of a scope goes through `modifyRelation`, and may be refused; the actions on status
  -- and secrets leave the relations alone (`HostM.KeepsRelations`)
  cases op with
  | addRelation e a => exact .inl ⟨e, a, rfl⟩
  | setLeader | setConfig | setSecretsAvailable | setStatus | defer | takeDeferred =>
    exact .inr ⟨rfl, rfl, .inl rfl⟩
  | addRelationUnit r u | removeRelationUnit r u | remoteUpdate r _ u | breakRelation r =>
    exact .inr ⟨rfl, Host.nextId_modifyRelation .., .inr ⟨r, _, rfl⟩⟩
  | updateUnit r u =>
    refine .inr ⟨rfl, ?_⟩
    simp only [apply, HostM.run_updateUnit]
    split
    · exact ⟨Host.nextId_modifyRelation .., .inr ⟨r, _, rfl⟩⟩
    · exact ⟨rfl, .inl rfl⟩
  | updateApp r u =>
    refine .inr ⟨rfl, ?_⟩
    simp only [apply, HostM.run_updateApp]
    split
    · split
      · exact ⟨Host.nextId_modifyRelation .., .inr ⟨r, _, rfl⟩⟩
      · exact ⟨rfl, .inl rfl⟩
    · exact ⟨rfl, .inl rfl⟩
  | setAppStatus s =>
    refine .inr ⟨rfl, ?_, .inl (HostM.keepsRelations_setAppStatus s ⟨⟩ h)⟩
    simp only [apply, HostM.run_setAppStatus]
    split <;> rfl
  | ensureSecret c l =>
    refine .inr ⟨rfl, ?_, .inl (HostM.keepsRelations_ensureSecret c l h)⟩
    simp only [apply, HostM.run_ensureSecret]
    split <;> rfl
  | grantSecret id r | revokeSecret id r =>
    refine .inr ⟨rfl, ?_, .inl (HostM.keepsRelations_withVault _ h)⟩
    simp only [apply, HostM.grantSecret, HostM.revokeSecret, HostM.withVault, HostM.run_get_bind]
    split <;> rfl

end HostOp

end ShareBroker
