import Mathlib
import ShareBroker.Proofs.Host.Reachable
import ShareBroker.Host.Change

/-!
# Invariants of the host

A charm reaches its host only through the primitives of `HostM`. A property of hosts that each
primitive which writes keeps, whether it succeeds or fails, is therefore kept by every action
built from them. `Host.Invariant` bundles such a property with the proof that each write keeps
it, and `HostM.Preserves I m` says that every run of `m` from a host where `I` holds ends in a
host where it holds.

The `spec` lemmas below give `HostM.Preserves I` for every primitive and every `I`, so that
`mvcgen` carries an invariant through an action by its primitives. The bridge between such a
triple and a run is proved once for any state (`triple_of_run`, `run_of_triple`).

## Key results

- `HostM.Preserves.run`: a run of an action that preserves `I` ends where `I` holds.
- `Host.Invariant.reachable`: the hosts a unit can be in form an invariant, since each write of
  `HostM` is one of the operations that define them.
-/

open Std.Do

set_option mvcgen.warning false

namespace ShareBroker

/-! ## Triples and runs -/

section Bridge

variable {σ α : Type}

/-- An action whose every run from a state satisfying `P` ends in a state satisfying `Q`, by
success or by failure, meets the triple that says so. -/
theorem triple_of_run {m : ExceptT Error (StateM σ) α} {P Q : σ → Prop}
    (h : ∀ s, P s → Q (m.run.run s).2) :
    ⦃fun s => ⌜P s⌝⦄ m ⦃post⟨fun _ s => ⌜Q s⌝, fun _ s => ⌜Q s⌝⟩⦄ := by
  intro s hs
  have hq := h s hs
  simp only [wp, ExceptT.run, StateT.run] at hq ⊢
  simp only [PredTrans.pushExcept, PredTrans.pushArg, PredTrans.apply]
  -- the weakest precondition of a state action is its run, read off by cases on the outcome
  rcases hm : m s with ⟨_ | a, s'⟩ <;> simp_all [StateT.run, Id.run, Pure.pure, PredTrans.pure]

/-- The converse: a triple of that shape holds of every run. -/
theorem run_of_triple {m : ExceptT Error (StateM σ) α} {P Q : σ → Prop}
    (h : ⦃fun s => ⌜P s⌝⦄ m ⦃post⟨fun _ s => ⌜Q s⌝, fun _ s => ⌜Q s⌝⟩⦄) (s : σ) (hs : P s) :
    Q (m.run.run s).2 := by
  have hwp := h s hs
  simp only [wp, ExceptT.run, StateT.run] at hwp ⊢
  simp only [PredTrans.pushExcept, PredTrans.pushArg, PredTrans.apply] at hwp
  rcases hm : m s with ⟨_ | a, s'⟩ <;> simp_all [StateT.run, Id.run, Pure.pure, PredTrans.pure]

/-- A loop over a list whose body keeps a property of the state keeps it. -/
theorem forIn_keeps {β γ : Type} {P : σ → Prop} (xs : List γ) (b : β)
    {f : γ → β → ExceptT Error (StateM σ) (ForInStep β)}
    (hf : ∀ a b, ⦃fun s => ⌜P s⌝⦄ f a b ⦃post⟨fun _ s => ⌜P s⌝, fun _ s => ⌜P s⌝⟩⦄) :
    ⦃fun s => ⌜P s⌝⦄ forIn xs b f ⦃post⟨fun _ s => ⌜P s⌝, fun _ s => ⌜P s⌝⟩⦄ := by
  refine triple_of_run fun s hs => ?_
  -- one turn of the body after another, each from the state the last one left
  induction xs generalizing b s with
  | nil => exact hs
  | cons a xs ih =>
    rw [List.forIn_cons]
    have hturn := run_of_triple (hf a b) s hs
    rcases hrun : (f a b).run.run s with ⟨e | step, s₁⟩
    · rw [run_bind_error hrun]
      rwa [hrun] at hturn
    · rw [run_bind_ok hrun]
      rw [hrun] at hturn
      cases step with
      | done b' => exact hturn
      | yield b' => exact ih b' s₁ hturn

end Bridge

/-! ## Invariants -/

/-- A property of hosts that every write of `HostM` keeps, whether the write succeeds or
fails. -/
structure Host.Invariant where
  holds : Host → Prop
  updateUnit : ∀ {h : Host} (r : Relation) (u : Databag),
    holds h → holds ((HostM.updateUnit r u).run.run h).2
  updateApp : ∀ {h : Host} (r : Relation) (u : Databag) (t : LeadershipToken),
    holds h → holds ((HostM.updateApp r u t).run.run h).2
  setStatus : ∀ {h : Host} (s : Status), holds h → holds ((HostM.setStatus s).run.run h).2
  setAppStatus : ∀ {h : Host} (s : Status) (t : LeadershipToken),
    holds h → holds ((HostM.setAppStatus s t).run.run h).2
  defer : ∀ {h : Host} (e : HostEvent), holds h → holds ((HostM.defer e).run.run h).2
  takeDeferred : ∀ {h : Host}, holds h → holds (HostM.takeDeferred.run.run h).2
  ensureSecret : ∀ {h : Host} (content : Databag) (label : String),
    holds h → holds ((HostM.ensureSecret content label).run.run h).2
  grantSecret : ∀ {h : Host} (id : String) (r : Relation),
    holds h → holds ((HostM.grantSecret id r).run.run h).2
  revokeSecret : ∀ {h : Host} (id : String) (r : Relation),
    holds h → holds ((HostM.revokeSecret id r).run.run h).2

/-- Every run of `m` from a host where `I` holds ends, by success or by failure, in a host
where `I` holds. -/
abbrev HostM.Preserves {α : Type} (I : Host.Invariant) (m : HostM α) : Prop :=
  ⦃fun h => ⌜I.holds h⌝⦄ m ⦃post⟨fun _ h => ⌜I.holds h⌝, fun _ h => ⌜I.holds h⌝⟩⦄

theorem HostM.Preserves.run {α : Type} {I : Host.Invariant} {m : HostM α}
    (hm : HostM.Preserves I m) {h : Host} (hh : I.holds h) : I.holds (m.run.run h).2 :=
  run_of_triple hm h hh

/-! ## The primitives

The reads leave the host as it was and are carried through by their definitions; each write
keeps an invariant by the field that says so. -/

namespace HostM

variable {I : Host.Invariant}

@[spec] theorem live_preserves (r : Relation) : Preserves I (live r) := by
  mvcgen [live]

@[spec] theorem read_preserves (r : Relation) (s : Scope) : Preserves I (read r s) := by
  mvcgen [read]

@[spec] theorem relationsOn_preserves (endpoint : String) : Preserves I (relationsOn endpoint) := by
  mvcgen [relationsOn]

@[spec] theorem remoteApp_preserves (r : Relation) : Preserves I (remoteApp r) := by
  mvcgen [remoteApp]

@[spec] theorem remoteUnits_preserves (r : Relation) : Preserves I (remoteUnits r) := by
  mvcgen [remoteUnits]

@[spec] theorem ownUnit_preserves : Preserves I ownUnit := by
  mvcgen [ownUnit]

@[spec] theorem ownApp_preserves : Preserves I ownApp := by
  mvcgen [ownApp]

@[spec] theorem leadership_preserves : Preserves I leadership := by
  mvcgen [leadership]

@[spec] theorem config_preserves : Preserves I config := by
  mvcgen [config]

@[spec] theorem secretsAvailable_preserves : Preserves I secretsAvailable := by
  mvcgen [secretsAvailable]

@[spec] theorem lookupSecret_preserves (label : String) : Preserves I (lookupSecret label) := by
  mvcgen [lookupSecret]

@[spec] theorem secretContent_preserves (id : String) : Preserves I (secretContent id) := by
  mvcgen [secretContent]

@[spec] theorem ofOutcome_preserves {α : Type} (o : Outcome α) : Preserves I (ofOutcome o) := by
  mvcgen [ofOutcome]

@[spec] theorem updateUnit_preserves (r : Relation) (u : Databag) :
    Preserves I (updateUnit r u) :=
  triple_of_run fun _ hh => I.updateUnit r u hh

@[spec] theorem updateApp_preserves (r : Relation) (u : Databag) (t : LeadershipToken) :
    Preserves I (updateApp r u t) :=
  triple_of_run fun _ hh => I.updateApp r u t hh

@[spec] theorem setStatus_preserves (s : Status) : Preserves I (setStatus s) :=
  triple_of_run fun _ hh => I.setStatus s hh

@[spec] theorem setAppStatus_preserves (s : Status) (t : LeadershipToken) :
    Preserves I (setAppStatus s t) :=
  triple_of_run fun _ hh => I.setAppStatus s t hh

@[spec] theorem defer_preserves (e : HostEvent) : Preserves I (defer e) :=
  triple_of_run fun _ hh => I.defer e hh

@[spec] theorem takeDeferred_preserves : Preserves I takeDeferred :=
  triple_of_run fun _ hh => I.takeDeferred hh

@[spec] theorem ensureSecret_preserves (content : Databag) (label : String) :
    Preserves I (ensureSecret content label) :=
  triple_of_run fun _ hh => I.ensureSecret content label hh

@[spec] theorem grantSecret_preserves (id : String) (r : Relation) :
    Preserves I (grantSecret id r) :=
  triple_of_run fun _ hh => I.grantSecret id r hh

@[spec] theorem revokeSecret_preserves (id : String) (r : Relation) :
    Preserves I (revokeSecret id r) :=
  triple_of_run fun _ hh => I.revokeSecret id r hh

@[spec] theorem cached_preserves (r : Relation) (own observed : Scope) :
    Preserves I (cached r own observed) := by
  mvcgen [cached]

@[spec] theorem diff_preserves (r : Relation) (own observed : Scope) :
    Preserves I (diff r own observed) := by
  mvcgen [diff]

@[spec] theorem conceal_preserves (content : Databag) (label : String) :
    Preserves I (conceal content label) := by
  mvcgen [conceal]

@[spec] theorem resolve_preserves (p : SecretRef) : Preserves I (resolve p) := by
  mvcgen [resolve]

/-- A loop whose body preserves an invariant preserves it. -/
@[spec high] theorem forIn_preserves {β γ : Type} (xs : List γ) (b : β)
    {f : γ → β → HostM (ForInStep β)} (hf : ∀ a b, Preserves I (f a b)) :
    Preserves I (forIn xs b f) :=
  forIn_keeps xs b hf

end HostM

/-! ## Reachable hosts -/

/-- The hosts a unit can be in: each write of `HostM` is an operation that keeps a host
reachable. -/
def Host.Invariant.reachable : Host.Invariant where
  holds := Host.Reachable
  updateUnit r u hh := .step (.updateUnit r u) hh
  updateApp r u _ hh := .step (.updateApp r u) hh
  setStatus s hh := .step (.setStatus s) hh
  setAppStatus s _ hh := .step (.setAppStatus s) hh
  defer e hh := .step (.defer e) hh
  takeDeferred hh := .step .takeDeferred hh
  ensureSecret content label hh := .step (.ensureSecret content label) hh
  grantSecret id r hh := .step (.grantSecret id r) hh
  revokeSecret id r hh := .step (.revokeSecret id r) hh

end ShareBroker
