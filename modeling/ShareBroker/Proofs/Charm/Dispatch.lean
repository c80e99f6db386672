import ShareBroker.Charm.Dispatch
import ShareBroker.Proofs.Host.Reachable

/-!
# Deferred events across a dispatch

`dispatch` takes the host's queue of deferred events, redelivers it oldest first and then
delivers the new event, while the charm's answers (`Handled.defer`) and the failure path put
events back on the same queue. This file states the rules of a dispatch as a plain recursion
over the queue (`redeliverSpec`, `dispatchSpec`), in which the queue at every point is written
out, and shows that `dispatch` follows them for every charm that leaves the queue alone
(`KeepsQueue`).

## Key results

- `run_redeliverAll`: redelivery follows `redeliverSpec`, with the host's queue equal to the
  events answered Defer so far.
- `redeliverSpec_sublist`: what redelivery leaves queued is a sublist of what it was given.
- `dispatch_keeps_deferred_order`: a dispatch follows `dispatchSpec`, and the queue it leaves is
  a sublist of the old queue followed by the new event: no event is lost, duplicated or
  reordered.
-/

namespace ShareBroker

namespace CharmM

variable {α : Type}

theorem run_tryCatch_ok {x : CharmM α} {s s' : Host × Executor} {a : α}
    (hx : x.run.run s = (.ok a, s')) (h : Error → CharmM α) :
    (tryCatch x h).run.run s = (.ok a, s') := by
  show (ExceptT.tryCatch x h).run.run s = _
  simp only [ExceptT.tryCatch, ExceptT.run_mk, StateT.run_bind]
  rw [show StateT.run x s = (.ok a, s') from hx]
  rfl

/-- A failure is caught with the state it left. -/
theorem run_tryCatch_error {x : CharmM α} {s s' : Host × Executor} {e : Error}
    (hx : x.run.run s = (.error e, s')) (h : Error → CharmM α) :
    (tryCatch x h).run.run s = (h e).run.run s' := by
  show (ExceptT.tryCatch x h).run.run s = _
  simp only [ExceptT.tryCatch, ExceptT.run_mk, StateT.run_bind]
  rw [show StateT.run x s = (.error e, s') from hx]
  rfl

end CharmM

/-- The charm's state with the host's queue of deferred events replaced. -/
def queueAs (q : List HostEvent) (s : Host × Executor) : Host × Executor :=
  ({ s.1 with deferred := q }, s.2)

theorem queueAs_self (s : Host × Executor) : queueAs s.1.deferred s = s := rfl

namespace CharmM

theorem run_defer (d : HostEvent) (s : Host × Executor) :
    (liftM (HostM.defer d) : CharmM Unit).run.run s = (.ok (), queueAs (s.1.deferred ++ [d]) s) :=
  rfl

/-- Deferring each event of a list queues them all, in order. -/
theorem run_for_defer (l : List HostEvent) (s : Host × Executor) :
    (forIn l PUnit.unit fun d _ => do
        HostM.defer d
        pure (ForInStep.yield PUnit.unit) : CharmM PUnit).run.run s =
      (.ok ⟨⟩, queueAs (s.1.deferred ++ l) s) := by
  induction l generalizing s with
  | nil => simp [queueAs_self]
  | cons d l ih =>
    simp only [List.forIn_cons, bind_assoc, pure_bind]
    rw [run_bind_ok (run_defer d s), ih]
    simp [queueAs]

/-- The failure path of a redelivery: queue the events again, then fail. -/
theorem run_requeue (l : List HostEvent) (err : Error) (s : Host × Executor) :
    (do
      for d in l do
        HostM.defer d
      throw err : CharmM Unit).run.run s = (.error err, queueAs (s.1.deferred ++ l) s) := by
  rw [run_bind_ok (run_for_defer l s)]
  rfl

end CharmM

/-! ## Delivering one event -/

/-- Whether the host still delivers a deferred event: one that names a relation only while it
holds that relation unbroken. -/
def Host.redelivers (h : Host) (d : HostEvent) : Bool :=
  match d.relation? with
  | some r => h.relations.any fun e => e.1 == r && !e.2.broken
  | none => true

/-- A relation is among the live relations of its endpoint exactly when the host holds it
unbroken. -/
theorem contains_relationsOn (h : Host) (r : Relation) :
    ((h.relations.filter fun e => e.1.endpoint == r.endpoint && !e.2.broken).map (·.1)).contains r =
      h.relations.any fun e => e.1 == r && !e.2.broken := by
  rw [Bool.eq_iff_iff]
  simp only [List.contains_iff_mem, List.mem_map, List.mem_filter, List.any_eq_true]
  simp

section Deliver

variable {handle : HostEvent → CharmM Handled} {d : HostEvent} {s s' : Host × Executor}

theorem run_deliver_done (h : (handle d).run.run s = (.ok .done, s')) :
    (deliver handle d).run.run s = (.ok (), s') := by
  simp only [deliver]
  rw [run_bind_ok h]
  rfl

theorem run_deliver_defer (h : (handle d).run.run s = (.ok .defer, s')) :
    (deliver handle d).run.run s = (.ok (), queueAs (s'.1.deferred ++ [d]) s') := by
  simp only [deliver]
  rw [run_bind_ok h]
  rfl

theorem run_deliver_error {err : Error} (h : (handle d).run.run s = (.error err, s')) :
    (deliver handle d).run.run s = (.error err, s') := by
  simp only [deliver]
  rw [run_bind_error h]

/-- A deferred event is delivered as a new one would be, unless its relation is gone; then it
is dropped and nothing else happens. -/
theorem run_redeliver :
    (redeliver handle d).run.run s =
      if s.1.redelivers d then (deliver handle d).run.run s else (.ok (), s) := by
  simp only [redeliver]
  cases hr : d.relation? with
  | none => simp [Host.redelivers, hr]
  | some r =>
    -- the live relations on the endpoint are read without changing anything
    have hrel : (liftM (HostM.relationsOn r.endpoint) : CharmM (List Relation)).run.run s =
        (.ok ((s.1.relations.filter fun e => e.1.endpoint == r.endpoint && !e.2.broken).map
          (·.1)), s) := rfl
    simp only [Host.redelivers, hr]
    rw [run_bind_ok hrel, contains_relationsOn]
    split <;> rfl

theorem run_redeliver_of_false (h : s.1.redelivers d = false) :
    (redeliver handle d).run.run s = (.ok (), s) := by
  rw [run_redeliver, if_neg (by simp [h])]

theorem run_redeliver_of_true (h : s.1.redelivers d = true) :
    (redeliver handle d).run.run s = (deliver handle d).run.run s := by
  rw [run_redeliver, if_pos h]

end Deliver

/-! ## The rules of a dispatch -/

/-- A charm handler that leaves the host's queue of deferred events alone: it neither defers
nor takes deferred events itself. -/
def KeepsQueue (handle : HostEvent → CharmM Handled) : Prop :=
  ∀ e s, ((handle e).run.run s).2.1.deferred = s.1.deferred

/-- Redelivering the queued events `ds` from state `s` by the rules of a dispatch, `kept` being
the events answered Defer so far, which is what the host queues while the charm runs. An
event whose relation is gone is dropped unhandled and every other is handed to the charm in
turn; the first failure ends the run, with the failed event and every one after it queued
behind `kept`. On success, returns the events answered Defer. -/
def redeliverSpec (handle : HostEvent → CharmM Handled) :
    List HostEvent → List HostEvent → Host × Executor →
      Outcome (List HostEvent) × (Host × Executor)
  | [], kept, s => (.ok kept, s)
  | d :: rest, kept, s =>
    if s.1.redelivers d then
      match (handle d).run.run s with
      | (.ok .done, s') => redeliverSpec handle rest kept s'
      | (.ok .defer, s') => redeliverSpec handle rest (kept ++ [d]) (queueAs (kept ++ [d]) s')
      | (.error err, s') => (.error err, queueAs (kept ++ d :: rest) s')
    else redeliverSpec handle rest kept s

/-- A dispatch of `e` by the rules: the queue is taken and redelivered, and then, unless a
redelivery failed, `e` is handed to the charm; the queue ends as the events answered Defer,
`e` last if it was. -/
def dispatchSpec (handle : HostEvent → CharmM Handled) (e : HostEvent) (s : Host × Executor) :
    Outcome Unit × (Host × Executor) :=
  match redeliverSpec handle s.1.deferred [] (queueAs [] s) with
  | (.error err, s') => (.error err, s')
  | (.ok kept, s') =>
    match (handle e).run.run s' with
    | (.ok .done, s'') => (.ok (), queueAs kept s'')
    | (.ok .defer, s'') => (.ok (), queueAs (kept ++ [e]) s'')
    | (.error err, s'') => (.error err, queueAs kept s'')

section Queue

variable {handle : HostEvent → CharmM Handled}

/-- Redelivery follows the rules, one event per step, as long as the host's queue is the
list of events answered Defer so far. -/
theorem run_redeliverAll (hq : KeepsQueue handle) (ds : List HostEvent) :
    ∀ (kept : List HostEvent) (s : Host × Executor), s.1.deferred = kept →
      (redeliverAll handle ds).run.run s =
        ((redeliverSpec handle ds kept s).1.map (fun _ => ()), (redeliverSpec handle ds kept s).2) := by
  induction ds with
  | nil => intro kept s _; rfl
  | cons d rest ih =>
    intro kept s hs
    simp only [redeliverAll, seqRight_eq_bind, redeliverSpec]
    by_cases hd : s.1.redelivers d
    · rw [if_pos hd]
      have hkeep := hq d s
      rcases hrun : (handle d).run.run s with ⟨err | _ | _, s'⟩
      all_goals
        rw [hrun] at hkeep
        simp only at hkeep
      · -- a failure queues the failed event and the rest again
        rw [run_bind_error ((CharmM.run_tryCatch_error
          ((run_redeliver_of_true hd).trans (run_deliver_error hrun)) _).trans
          (CharmM.run_requeue _ err s')), hkeep, hs]
        rfl
      · rw [run_bind_ok (CharmM.run_tryCatch_ok
          ((run_redeliver_of_true hd).trans (run_deliver_done hrun)) _), ih kept s' (hkeep.trans hs)]
      · rw [run_bind_ok (CharmM.run_tryCatch_ok
          ((run_redeliver_of_true hd).trans (run_deliver_defer hrun)) _), hkeep, hs,
          ih (kept ++ [d]) _ rfl]
    · rw [if_neg hd, run_bind_ok (CharmM.run_tryCatch_ok
        (run_redeliver_of_false (by simpa using hd)) _), ih kept s hs]

/-- While the charm keeps the queue alone, the host's queue after a successful redelivery is
the list of events answered Defer. -/
theorem redeliverSpec_deferred (hq : KeepsQueue handle) (ds : List HostEvent) :
    ∀ (kept kept' : List HostEvent) (s s' : Host × Executor), s.1.deferred = kept →
      redeliverSpec handle ds kept s = (.ok kept', s') → s'.1.deferred = kept' := by
  induction ds with
  | nil =>
    intro kept kept' s s' hs h
    simp only [redeliverSpec, Prod.mk.injEq, Except.ok.injEq] at h
    obtain ⟨rfl, rfl⟩ := h
    exact hs
  | cons d rest ih =>
    intro kept kept' s s' hs h
    simp only [redeliverSpec] at h
    split at h
    · have hkeep := hq d s
      rcases hrun : (handle d).run.run s with ⟨err | _ | _, s₁⟩ <;> rw [hrun] at h hkeep
      · simp at h
      · exact ih kept kept' s₁ s' (hkeep.trans hs) h
      · exact ih (kept ++ [d]) kept' (queueAs (kept ++ [d]) s₁) s' rfl h
    · exact ih kept kept' s s' hs h

/-- Redelivery keeps queued events in order and at most once: the events answered Defer, and
on a failure the whole queue, form a sublist of `kept` followed by the events redelivered. -/
theorem redeliverSpec_sublist (ds : List HostEvent) :
    ∀ (kept : List HostEvent) (s : Host × Executor),
      (∀ kept' s', redeliverSpec handle ds kept s = (.ok kept', s') →
        kept'.Sublist (kept ++ ds)) ∧
      (∀ err s', redeliverSpec handle ds kept s = (.error err, s') →
        s'.1.deferred.Sublist (kept ++ ds)) := by
  induction ds with
  | nil =>
    intro kept s
    constructor
    · intro kept' s' h
      simp only [redeliverSpec, Prod.mk.injEq, Except.ok.injEq] at h
      simp [← h.1]
    · intro err s' h
      simp [redeliverSpec] at h
  | cons d rest ih =>
    intro kept s
    -- an event that is not queued again leaves a sublist of the rest
    have hskip : (kept ++ rest).Sublist (kept ++ d :: rest) :=
      (List.sublist_cons_self d rest).append_left kept
    have hkeep : (kept ++ [d] ++ rest) = kept ++ d :: rest := by simp
    simp only [redeliverSpec]
    split
    · -- a failure puts the whole queue back; `done` drops the event, `defer` keeps it
      rcases hrun : (handle d).run.run s with ⟨err | _ | _, s₁⟩
      · refine ⟨fun kept' s' h => by simp at h, fun err' s' h => ?_⟩
        simp only [Prod.mk.injEq] at h
        rw [← h.2]
        exact List.Sublist.refl _
      · obtain ⟨hok, herr⟩ := ih kept s₁
        exact ⟨fun kept' s' h => (hok kept' s' h).trans hskip,
          fun err s' h => (herr err s' h).trans hskip⟩
      · obtain ⟨hok, herr⟩ := ih (kept ++ [d]) (queueAs (kept ++ [d]) s₁)
        exact ⟨fun kept' s' h => hkeep ▸ hok kept' s' h, fun err s' h => hkeep ▸ herr err s' h⟩
    · -- an event the unit does not redeliver is dropped
      obtain ⟨hok, herr⟩ := ih kept s
      exact ⟨fun kept' s' h => (hok kept' s' h).trans hskip,
        fun err s' h => (herr err s' h).trans hskip⟩

/-- A dispatch runs by the rules of `dispatchSpec`. -/
theorem run_dispatch (hq : KeepsQueue handle) (e : HostEvent) (s : Host × Executor) :
    (dispatch handle e).run.run s = dispatchSpec handle e s := by
  have htake : (liftM HostM.takeDeferred : CharmM (List HostEvent)).run.run s =
      (.ok s.1.deferred, queueAs [] s) := rfl
  have hall := run_redeliverAll hq s.1.deferred [] (queueAs [] s) rfl
  simp only [dispatch]
  rw [run_bind_ok htake]
  unfold dispatchSpec
  rcases hspec : redeliverSpec handle s.1.deferred [] (queueAs [] s) with ⟨err | kept, s'⟩
  · rw [hspec] at hall
    rw [run_bind_error hall]
  · rw [hspec] at hall
    rw [run_bind_ok hall]
    -- the queue the last event meets is the list of events answered Defer
    have hs' := redeliverSpec_deferred hq _ [] kept _ s' rfl hspec
    have hkeep := hq e s'
    rcases hrun : (handle e).run.run s' with ⟨err | _ | _, s''⟩ <;> rw [hrun] at hkeep <;>
      simp only at hkeep
    · simp only [run_deliver_error hrun, hrun]
      rw [← hs', ← hkeep, queueAs_self]
    · simp only [run_deliver_done hrun, hrun]
      rw [← hs', ← hkeep, queueAs_self]
    · simp only [run_deliver_defer hrun, hrun]
      rw [hkeep, hs']

end Queue

/-- Deferred events are never lost, duplicated or reordered by a dispatch. For a charm that
leaves the queue alone, dispatching `e` hands the charm the queued events in order and then
`e`, dropping those whose relation is gone; a failed redelivery ends the dispatch with the
failed event and all after it queued again behind those answered Defer; otherwise the queue
ends as the events answered Defer, `e` last if it was. Either way the queue left is a sublist
of the old queue followed by `e`. -/
theorem dispatch_keeps_deferred_order {handle : HostEvent → CharmM Handled}
    (hq : KeepsQueue handle) (e : HostEvent) (s : Host × Executor) :
    (dispatch handle e).run.run s = dispatchSpec handle e s ∧
      ((dispatch handle e).run.run s).2.1.deferred.Sublist (s.1.deferred ++ [e]) := by
  refine ⟨run_dispatch hq e s, ?_⟩
  rw [run_dispatch hq e s]
  unfold dispatchSpec
  obtain ⟨hok, herr⟩ := @redeliverSpec_sublist handle s.1.deferred [] (queueAs [] s)
  have hleft : s.1.deferred.Sublist (s.1.deferred ++ [e]) := List.sublist_append_left _ _
  rcases hspec : redeliverSpec handle s.1.deferred [] (queueAs [] s) with ⟨err | kept, s'⟩
  · exact (herr err s' hspec).trans hleft
  · have hkept : kept.Sublist s.1.deferred := by simpa using hok kept s' hspec
    simp only
    rcases (handle e).run.run s' with ⟨_ | _ | _, s''⟩
    · exact hkept.trans hleft
    · exact hkept.trans hleft
    · exact hkept.append_right [e]

/-- A charm that defers every event but `start` and fails `install`. -/
def recorder : HostEvent → CharmM Handled
  | .install => throw (.mount "boom")
  | .start => pure .done
  | _ => pure .defer

theorem dispatch_keeps_deferred_order_recorder :
    let s : Host × Executor :=
      ({ Host.new "app" "app/0" with deferred := [.install, .configChanged] }, default)
    KeepsQueue recorder ∧
      (dispatch recorder .start).run.run s = dispatchSpec recorder .start s ∧
      ((dispatch recorder .start).run.run s).2.1.deferred.Sublist (s.1.deferred ++ [.start]) := by
  intro s
  have hq : KeepsQueue recorder := by
    intro e s
    cases e <;> rfl
  exact ⟨hq, dispatch_keeps_deferred_order hq .start s⟩

end ShareBroker
