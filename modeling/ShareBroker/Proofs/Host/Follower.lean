import ShareBroker.Proofs.Host.Invariant

/-!
# What a unit that is not the leader can change

Only the leader may write the application's scope of a relation or the application's status:
`HostM.updateApp` and `HostM.setAppStatus` check leadership when they run, whatever token they
are handed. This file states what that check buys, for every action of `HostM`.

`Host.appView` is the application's part of a host: its name, its status and its scope of every
relation, broken or not. `Host.Follower v n h` says that `h` is not the leader, shows `v`, has
counted `n` relations and knows none whose id is not below that count, so that a relation it
adds later never replaces one it knows.

Each write of `HostM` keeps `Follower v n` whether it succeeds or fails, so the followers that
show `v` with `n` relations counted form an invariant of the host, `Host.Invariant.follower v n`,
which the `spec` lemmas of `HostM.Preserves` carry through every action.
-/

namespace ShareBroker

/-! ## The application's view of a host -/

/-- What a host shows of its application: the name, the status and the application's scope of
every relation. -/
structure AppView where
  app : String
  status : Option Status
  scope : Relation → Databag

namespace Host

/-- The application's part of a host. -/
def appView (h : Host) : AppView := ⟨h.app, h.appStatus, fun r => h.bag r h.ownApp⟩

/-- Every relation the host knows has an id below its count of relations. -/
def IdsBelow (h : Host) : Prop := ∀ r, (h.state? r).isSome → r.id.toNat < h.nextId

/-! ### Relation ids

A relation is added with the host's count of ids, taken to 32 bits, as its id (`Host.counter`).
The counter steps by one, as a 32-bit word, with each relation added and with no other
operation (`counter_apply`), and the unit on the other side of `r` counts from `r.id + 1`
(`counter_mirror`): the count is the number of relations added (`nextId_foldl_apply`). A host
that reached its state through its operations knows no relation whose id is not below the count
(`Reachable.idsBelow`), so while the count fits in 32 bits the next relation is new
(`state?_addRelation_new`). -/

section Ids

variable {h h' : Host}

theorem IdsBelow.of_eq (hh : h.IdsBelow) (hrel : h'.relations = h.relations)
    (hnext : h'.nextId = h.nextId) : h'.IdsBelow := by
  intro r hr
  rw [hnext]
  exact hh r (by simpa only [state?, hrel] using hr)

theorem IdsBelow.modifyRelation (hh : h.IdsBelow) (r : Relation)
    (f : RelationState → RelationState) : (h.modifyRelation r f).IdsBelow := by
  intro r' hr'
  rw [nextId_modifyRelation]
  rw [state?_modifyRelation] at hr'
  split at hr'
  · rename_i heq
    subst heq
    exact hh r (by simpa using hr')
  · exact hh r' hr'

theorem id_addRelation (h : Host) (endpoint remoteApp : String) :
    (h.addRelation endpoint remoteApp).1 = ⟨endpoint, h.counter⟩ := rfl

/-- The unit on the other side of `r` counts from just after `r`, wrapping as a 32-bit word. -/
theorem counter_mirror (h : Host) (app unit : String) (r : Relation) :
    (h.mirror app unit r).counter = r.id + 1 := by
  simp [Host.counter, Host.mirror]

/-- While the count fits in 32 bits, the counter is the count. -/
theorem toNat_counter (hlt : h.nextId < 2 ^ 32) : h.counter.toNat = h.nextId := by
  simp only [Host.counter, Nat.toUInt32_eq, UInt32.toNat_ofNat']
  omega

/-- What a host knows after adding a relation: the new one, and every one it knew. -/
theorem state?_addRelation (h : Host) (endpoint remoteApp : String) (r : Relation) :
    (h.addRelation endpoint remoteApp).2.state? r =
      if (⟨endpoint, h.counter⟩ : Relation) = r then some { remoteApp := remoteApp }
      else h.state? r := by
  simp only [Host.addRelation, state?, putRelation_eq, find?_assocPut]

/-- The new relation's id is the old count taken to 32 bits, below the new count. -/
theorem IdsBelow.addRelation (hh : h.IdsBelow) (endpoint remoteApp : String) :
    (h.addRelation endpoint remoteApp).2.IdsBelow := by
  intro r hr
  have hnext : (h.addRelation endpoint remoteApp).2.nextId = h.nextId + 1 := rfl
  rw [hnext]
  rw [state?_addRelation] at hr
  split at hr
  · rename_i heq
    subst heq
    have hmod : h.nextId % 2 ^ 32 ≤ h.nextId := Nat.mod_le _ _
    simp only [Host.counter, UInt32.toNat_ofNat']
    omega
  · have := hh r hr
    omega

/-- While the count fits in an id, the relation a host adds is one it does not know. -/
theorem state?_addRelation_new (hh : h.IdsBelow) (hlt : h.nextId < 2 ^ 32) (endpoint : String) :
    h.state? ⟨endpoint, h.counter⟩ = none := by
  cases hs : h.state? ⟨endpoint, h.counter⟩ with
  | none => rfl
  | some st =>
    -- its id would be below the count, yet it is the count itself
    have hbelow : h.counter.toNat < h.nextId := hh ⟨endpoint, h.counter⟩ (by rw [hs]; rfl)
    rw [toNat_counter hlt] at hbelow
    exact absurd hbelow (Nat.lt_irrefl _)

/-- Every operation keeps the ids of the known relations below the count. -/
theorem IdsBelow.apply (hh : h.IdsBelow) (op : HostOp) : (op.apply h).IdsBelow := by
  -- only `addRelation` moves the count; every other operation changes at most one relation's
  -- state, which keeps its id
  rcases op.relations_apply h with ⟨e, a, rfl⟩ | ⟨-, hnext, hrel | ⟨r, f, hrel⟩⟩
  · exact hh.addRelation e a
  · exact hh.of_eq hrel hnext
  · exact (hh.modifyRelation r f).of_eq hrel (hnext.trans (nextId_modifyRelation h r f).symm)

/-- Only adding a relation hands out an id: every other operation keeps the count. -/
theorem nextId_apply (op : HostOp) (h : Host) :
    (op.apply h).nextId = h.nextId + if op.addsRelation then 1 else 0 := by
  rcases op.relations_apply h with ⟨e, a, rfl⟩ | ⟨hadds, hnext, -⟩
  · rfl
  · rw [hadds, hnext, if_neg Bool.false_ne_true, Nat.add_zero]

/-- The counter moves as the source's does: by one, as a 32-bit word, when a relation is added,
and not at all otherwise. -/
theorem counter_apply (op : HostOp) (h : Host) :
    (op.apply h).counter = h.counter + if op.addsRelation then 1 else 0 := by
  rw [Host.counter, nextId_apply, Host.counter]
  split <;> simp

/-- Over any run of operations the count grows by the number of relations added, so a count
that fits in 32 bits bounds the relations added on the way. -/
theorem nextId_foldl_apply (ops : List HostOp) (h : Host) :
    (ops.foldl (fun h op => op.apply h) h).nextId =
      h.nextId + (ops.filter (·.addsRelation)).length := by
  induction ops generalizing h with
  | nil => rfl
  | cons op ops ih =>
    rw [List.foldl_cons, ih, nextId_apply, List.filter_cons]
    split <;> simp
    omega

/-- Every host a unit can be in knows no relation whose id is not below its count. -/
theorem Reachable.idsBelow (hr : h.Reachable) : h.IdsBelow := by
  induction hr with
  | new app unit =>
    intro r hr
    simp [Host.new, state?] at hr
  | mirror app unit r _ _ =>
    -- the unit on the other side knows `r` alone, and counts from just after it
    intro r' hr'
    by_cases heq : r = r'
    · subst heq
      show r.id.toNat < r.id.toNat + 1
      omega
    · simp [Host.mirror, state?, heq] at hr'
  | step op _ ih => exact ih.apply op

end Ids

/-- `h` is not the leader, shows `v` and has counted `n` relations, each below the count. -/
structure Follower (v : AppView) (n : Nat) (h : Host) : Prop where
  leader : h.leader = false
  view : h.appView = v
  count : h.nextId = n
  idsBelow : h.IdsBelow

variable {v : AppView} {n : Nat} {h h' : Host}

/-- A host that agrees with a follower on leadership, name, application status, relations and
count is the same follower. -/
theorem Follower.congr (hf : h.Follower v n) (hleader : h'.leader = h.leader)
    (happ : h'.app = h.app) (hstatus : h'.appStatus = h.appStatus)
    (hrel : h'.relations = h.relations) (hnext : h'.nextId = h.nextId) : h'.Follower v n := by
  have hstate : ∀ r, h'.state? r = h.state? r := fun r => by simp only [state?, hrel]
  refine ⟨hleader.trans hf.leader, ?_, hnext.trans hf.count, fun r hr => ?_⟩
  · rw [← hf.view]
    simp only [appView, bag, ownApp, hstate, happ, hstatus]
  · rw [hnext]
    exact hf.idsBelow r (hstate r ▸ hr)

/-- A change of the secrets keeps a follower. -/
theorem Follower.setVault (hf : h.Follower v n) (w : Vault) :
    ({ h with vault := w } : Host).Follower v n :=
  hf.congr rfl rfl rfl rfl rfl

/-- Changing what the host holds about one relation keeps a follower, as long as the change
leaves the application's scope alone: the relations keep their ids. -/
theorem Follower.modifyRelation (hf : h.Follower v n) (r : Relation)
    {f : RelationState → RelationState} (hfa : ∀ st, (f st).bag h.ownApp = st.bag h.ownApp) :
    (h.modifyRelation r f).Follower v n := by
  -- `modifyRelation` changes the relations only
  have hfields : (h.modifyRelation r f).leader = h.leader ∧ (h.modifyRelation r f).app = h.app ∧
      (h.modifyRelation r f).appStatus = h.appStatus ∧
      (h.modifyRelation r f).nextId = h.nextId := by
    unfold Host.modifyRelation
    split <;> exact ⟨rfl, rfl, rfl, rfl⟩
  obtain ⟨hleader, happ, hstatus, hnext⟩ := hfields
  refine ⟨hleader.trans hf.leader, ?_, hnext.trans hf.count, hf.idsBelow.modifyRelation r f⟩
  rw [← hf.view]
  simp only [appView, happ, hstatus, AppView.mk.injEq, true_and]
  funext r'
  rw [bag_eq, bag_eq, state?_modifyRelation, ownApp, happ]
  split
  · rename_i heq
    subst heq
    cases h.state? r with
    | none => rfl
    | some st => exact hfa st
  · rfl

/-- A write into a scope other than the application's keeps a follower. -/
theorem Follower.remoteUpdate (hf : h.Follower v n) (r : Relation) {s : Scope}
    (hs : s ≠ h.ownApp) (u : Databag) : (h.remoteUpdate r s u).Follower v n :=
  hf.modifyRelation r fun st => by rw [RelationState.bag_merge, if_neg hs]

end Host

/-! ## A follower is an invariant

Each write of `HostM` keeps `Follower v n`, on success and on failure: the writes touch the
unit's own scope, the unit's status, the queue of deferred events or the secrets, and the two
writes of the application's data fail with `NotLeader` before writing. -/

namespace HostM

/-- The unit's own scope is never the application's. -/
theorem ownUnit_ne_ownApp (h : Host) : h.ownUnit ≠ h.ownApp := by
  simp [Host.ownUnit, Host.ownApp]

/-- A unit that is not the leader is refused a write of the application's scope, and the host
is left as it was. -/
theorem run_updateApp_of_follower {h : Host} (hl : h.leader = false) (r : Relation) (u : Databag)
    (t : LeadershipToken) : (updateApp r u t).run.run h = (.error (.notLeader h.unit), h) := by
  rw [run_updateApp, hl]
  rfl

/-- A unit that is not the leader is refused a change of the application's status. -/
theorem run_setAppStatus_of_follower {h : Host} (hl : h.leader = false) (s : Status)
    (t : LeadershipToken) : (setAppStatus s t).run.run h = (.error (.notLeader h.unit), h) := by
  rw [run_setAppStatus, hl]
  rfl

end HostM

namespace Host

/-- A change of the secrets, done or refused, keeps a follower. -/
theorem Follower.withVault (hf : h.Follower v n) (f : Vault → Outcome Vault) :
    ((HostM.withVault f).run.run h).2.Follower v n := by
  cases hv : f h.vault with
  | error e =>
    simp only [HostM.withVault, HostM.run_get_bind, hv, HostM.run_throw]
    exact hf
  | ok w =>
    simp only [HostM.withVault, HostM.run_get_bind, hv, HostM.run_set]
    exact hf.setVault w

/-- Storing a secret, done or refused, keeps a follower. -/
theorem Follower.ensureSecret (hf : h.Follower v n) (content : Databag) (label : String) :
    ((HostM.ensureSecret content label).run.run h).2.Follower v n := by
  rw [HostM.run_ensureSecret]
  split
  · exact hf.setVault _
  · exact hf

/-- A unit that is not the leader, showing `v` with `n` relations counted, as an invariant of
the host. -/
def Invariant.follower (v : AppView) (n : Nat) : Host.Invariant where
  holds := Host.Follower v n
  updateUnit r u hf := by
    rw [HostM.run_updateUnit]
    split
    · exact hf.remoteUpdate r (HostM.ownUnit_ne_ownApp _) u
    · exact hf
  updateApp r u t hf := by
    rw [HostM.run_updateApp_of_follower hf.leader]
    exact hf
  setStatus _ hf := hf.congr rfl rfl rfl rfl rfl
  setAppStatus s t hf := by
    rw [HostM.run_setAppStatus_of_follower hf.leader]
    exact hf
  defer _ hf := hf.congr rfl rfl rfl rfl rfl
  takeDeferred hf := hf.congr rfl rfl rfl rfl rfl
  ensureSecret content label hf := hf.ensureSecret content label
  grantSecret id r hf := hf.withVault _
  revokeSecret id r hf := hf.withVault _

end Host

end ShareBroker
