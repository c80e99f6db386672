import ShareBroker.Proofs.Host.Follower
import ShareBroker.Proofs.Host.Order

/-!
# Requests while relations come and go

An interface keeps its request in the application's scope of each relation of its endpoint,
and only the leader writes it there. Between two writes relations are created and broken, and
leadership is given and taken. `Host.ReachableBy write` are the hosts that a new unit reaches
by one kind of write interleaved with those changes of topology (`RequestStep`).

`Host.LiveAppsPairwise h endpoint R` relates every two live relations of an endpoint, each
with the application's scope of it. A change of topology never makes two live relations
disagree where one of them shows an empty scope: breaking a relation only drops it from the
live ones, and a new relation starts with nothing written. So a property that holds as soon
as one of the two scopes is empty, and that the write keeps, holds on every host reached
(`Host.ReachableBy.pairwise`).

The interfaces check a request against the other live relations with a loop of reads that
stops at the first refusal: `run_forIn_checks` gives the run of such a loop.
-/

namespace ShareBroker

/-- One change of a unit's model while only `write` touches the requests: the write itself, a
relation created or broken, or leadership given or taken. -/
inductive RequestStep (write : Host → Host → Prop) : Host → Host → Prop
  | write {h h' : Host} : write h h' → RequestStep write h h'
  | setLeader (h : Host) (leader : Bool) : RequestStep write h (h.setLeader leader)
  | addRelation (h : Host) (endpoint remoteApp : String) :
      RequestStep write h (h.addRelation endpoint remoteApp).2
  | breakRelation (h : Host) (r : Relation) : RequestStep write h (h.breakRelation r)

/-- The hosts a new unit reaches by steps of `RequestStep write`. -/
inductive Host.ReachableBy (write : Host → Host → Prop) : Host → Prop
  | new (app unit : String) : Host.ReachableBy write (Host.new app unit)
  | step {h h' : Host} : Host.ReachableBy write h → RequestStep write h h' →
      Host.ReachableBy write h'

namespace Host

variable {write : Host → Host → Prop} {h : Host}

/-- Where every write leads from a reachable host to a reachable one, so does every step. -/
theorem ReachableBy.reachable (hw : ∀ h h', h.Reachable → write h h' → h'.Reachable)
    (hh : h.ReachableBy write) : h.Reachable := by
  induction hh with
  | new app unit => exact .new app unit
  | step _ hstep ih =>
    cases hstep with
    | write hwrite => exact hw _ _ ih hwrite
    | setLeader b => exact .step (.setLeader b) ih
    | addRelation e a => exact .step (.addRelation e a) ih
    | breakRelation r => exact .step (.breakRelation r) ih

/-! ## Live relations under changes of topology -/

theorem isLive_breakRelation (h : Host) (r r' : Relation) :
    (h.breakRelation r).isLive r' = (h.isLive r' && r' != r) := by
  unfold isLive
  rw [breakRelation, state?_modifyRelation]
  by_cases hr : r = r'
  · subst hr
    rw [if_pos rfl, bne_self_eq_false, Bool.and_false]
    cases h.state? r <;> rfl
  · rw [if_neg hr]
    have hne : (r' != r) = true := bne_iff_ne.2 fun he => hr he.symm
    rw [hne, Bool.and_true]

/-- Breaking a relation keeps what each scope holds. -/
theorem bag_breakRelation (h : Host) (r r' : Relation) (s : Scope) :
    (h.breakRelation r).bag r' s = h.bag r' s := by
  rw [bag_eq, bag_eq, breakRelation, state?_modifyRelation]
  split
  · rename_i heq
    subst heq
    cases h.state? r <;> rfl
  · rfl

theorem isLive_addRelation (h : Host) (endpoint remoteApp : String) (r : Relation) :
    (h.addRelation endpoint remoteApp).2.isLive r =
      if (⟨endpoint, h.counter⟩ : Relation) = r then true else h.isLive r := by
  unfold isLive
  rw [state?_addRelation]
  by_cases hnew : (⟨endpoint, h.counter⟩ : Relation) = r
  · rw [if_pos hnew, if_pos hnew]
    rfl
  · rw [if_neg hnew, if_neg hnew]

/-- A new relation has nothing written; every other relation keeps its scopes. -/
theorem bag_addRelation (h : Host) (endpoint remoteApp : String) (r : Relation) (s : Scope) :
    (h.addRelation endpoint remoteApp).2.bag r s =
      if (⟨endpoint, h.counter⟩ : Relation) = r then .empty else h.bag r s := by
  rw [bag_eq, bag_eq, state?_addRelation]
  split <;> rfl

/-! ## Properties of every two live relations -/

/-- Every two live relations of `endpoint`, each with the application's scope of it, are
related by `R`. -/
def LiveAppsPairwise (h : Host) (endpoint : String)
    (R : Relation × Databag → Relation × Databag → Prop) : Prop :=
  ∀ r₁ r₂, h.isLive r₁ = true → r₁.endpoint = endpoint → h.isLive r₂ = true →
    r₂.endpoint = endpoint → R (r₁, h.bag r₁ h.ownApp) (r₂, h.bag r₂ h.ownApp)

section Pairwise

variable {endpoint : String} {R : Relation × Databag → Relation × Databag → Prop}

theorem liveAppsPairwise_new (app unit : String) :
    (Host.new app unit).LiveAppsPairwise endpoint R := by
  intro r₁ _ hr₁
  simp [isLive, state?, Host.new] at hr₁

/-- Leadership is not part of what the property reads. -/
theorem LiveAppsPairwise.setLeader (hp : h.LiveAppsPairwise endpoint R) (leader : Bool) :
    (h.setLeader leader).LiveAppsPairwise endpoint R := hp

/-- Breaking a relation only takes it out of the live ones. -/
theorem LiveAppsPairwise.breakRelation (hp : h.LiveAppsPairwise endpoint R) (r : Relation) :
    (h.breakRelation r).LiveAppsPairwise endpoint R := by
  intro r₁ r₂ hr₁ he₁ hr₂ he₂
  rw [isLive_breakRelation, Bool.and_eq_true] at hr₁ hr₂
  have happ : (h.breakRelation r).ownApp = h.ownApp := by
    unfold Host.breakRelation modifyRelation
    split <;> rfl
  rw [happ, bag_breakRelation, bag_breakRelation]
  exact hp r₁ r₂ hr₁.1 he₁ hr₂.1 he₂

/-- A new relation shows an empty scope, so it is related to every relation by a property
that holds wherever one of the two scopes is empty. -/
theorem LiveAppsPairwise.addRelation (hp : h.LiveAppsPairwise endpoint R)
    (hR : ∀ p q, p.2 = .empty ∨ q.2 = .empty → R p q) (e a : String) :
    (h.addRelation e a).2.LiveAppsPairwise endpoint R := by
  intro r₁ r₂ hr₁ he₁ hr₂ he₂
  have happ : (h.addRelation e a).2.ownApp = h.ownApp := rfl
  rw [happ, bag_addRelation, bag_addRelation]
  rw [isLive_addRelation] at hr₁ hr₂
  by_cases h₁ : (⟨e, h.counter⟩ : Relation) = r₁
  · exact hR _ _ (.inl (by simp [h₁]))
  by_cases h₂ : (⟨e, h.counter⟩ : Relation) = r₂
  · exact hR _ _ (.inr (by simp [h₂]))
  rw [if_neg h₁] at hr₁ ⊢
  rw [if_neg h₂] at hr₂ ⊢
  exact hp r₁ r₂ hr₁ he₁ hr₂ he₂

/-- A property of every two live relations that holds wherever one of the two scopes is
empty, and that every write keeps, holds on every host reached. -/
theorem ReachableBy.pairwise (hR : ∀ p q, p.2 = .empty ∨ q.2 = .empty → R p q)
    (hreach : ∀ h h', h.Reachable → write h h' → h'.Reachable)
    (hw : ∀ h h', h.Reachable → h.LiveAppsPairwise endpoint R → write h h' →
      h'.LiveAppsPairwise endpoint R)
    (hh : h.ReachableBy write) : h.LiveAppsPairwise endpoint R := by
  induction hh with
  | new app unit => exact liveAppsPairwise_new app unit
  | step hprev hstep ih =>
    cases hstep with
    | write hwrite => exact hw _ _ (hprev.reachable hreach) ih hwrite
    | setLeader b => exact ih.setLeader b
    | addRelation e a => exact ih.addRelation hR e a
    | breakRelation r => exact ih.breakRelation r

end Pairwise

end Host

/-! ## Loops of checks -/

/-- A loop whose every pass only reads, and either goes on or refuses, runs to the first
refusal in list order and leaves the host as it was. -/
theorem run_forIn_checks {γ : Type} {xs : List γ} {f : γ → PUnit → HostM (ForInStep PUnit)}
    {h : Host} (refusal : γ → Option Error)
    (hf : ∀ x ∈ xs, (f x ⟨⟩).run.run h = ((refusal x).elim (.ok (.yield ⟨⟩)) .error, h)) :
    (forIn xs ⟨⟩ f).run.run h = ((xs.findSome? refusal).elim (.ok ⟨⟩) .error, h) := by
  induction xs with
  | nil => rfl
  | cons x xs ih =>
    have hx := hf x List.mem_cons_self
    rw [List.forIn_cons, List.findSome?_cons]
    cases hr : refusal x with
    | some e =>
      rw [hr] at hx
      rw [run_bind_error hx]
      rfl
    | none =>
      rw [hr] at hx
      rw [run_bind_ok hx]
      exact ih fun y hy => hf y (List.mem_cons_of_mem x hy)

/-- A loop of checks followed by an action runs the action only when nothing refuses. -/
theorem run_forIn_checks_bind {γ β : Type} {xs : List γ}
    {f : γ → PUnit → HostM (ForInStep PUnit)} {g : PUnit → HostM β} {h : Host}
    (refusal : γ → Option Error)
    (hf : ∀ x ∈ xs, (f x ⟨⟩).run.run h = ((refusal x).elim (.ok (.yield ⟨⟩)) .error, h)) :
    (forIn xs ⟨⟩ f >>= g).run.run h =
      (xs.findSome? refusal).elim ((g ⟨⟩).run.run h) fun e => (.error e, h) := by
  have hloop := run_forIn_checks refusal hf
  cases hfind : xs.findSome? refusal with
  | none =>
    rw [hfind] at hloop
    exact run_bind_ok hloop g
  | some e =>
    rw [hfind] at hloop
    exact run_bind_error hloop g

end ShareBroker
