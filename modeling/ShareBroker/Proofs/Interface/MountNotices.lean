import Mathlib.Data.List.Chain
import ShareBroker.Proofs.Host.Change
import ShareBroker.Interface.Mount

/-!
# What the workload side is told about its mount

The filesystem client answers a mount request with a `mounted` flag in its unit's scope, and
the workload side (`MountRequires.handle`) turns each delivered change of that scope into
`MountedFilesystem` or `UnmountedFilesystem`. It remembers nothing between deliveries: the
state of `Negotiation.RequirerState` is rebuilt each time from the snapshot that the last
delivery left (absent is `connected`, `"true"` is `mounted`, anything else `unmounted`).

`MountRequires.replay` runs a sequence of writes of the flag, from the provider unit, and of
deliveries of the change, and collects what the deliveries emit. On a well-formed host with the
relation live (`Watching`), it emits exactly `noticeTrace`: each delivery compares the flag with
its value at the previous delivery (`mountNotice`). So a mount always comes between two mounts,
and without deletions of the flag the two kinds alternate; deleting the flag forgets that the
last notice was an unmount, and the next value other than `"true"` unmounts again.

## Key results

- `Watching.run_handle`: one delivery emits `mountNotice` of the flag's last and current value
- `Watching.run_replay`: a run of writes and deliveries emits `noticeTrace`
- `noticeTrace_unmounts_between`: between two mounts there is an unmount
- `noticeTrace_alternates`: without deletions the two notices alternate
- `MountRequires.replay_notices`: all of it, from a reachable host
- `MountRequires.replay_unmounts_twice_after_deletion`: a deletion breaks the alternation
-/

namespace ShareBroker

open Negotiation

/-! ## The rule -/

/-- What happens on a mount relation, as seen by the workload side. -/
inductive MountedAction where
  /-- The provider unit writes its `mounted` flag; the empty value deletes it. -/
  | write (value : String)
  /-- The change of the provider unit's scope is delivered to the workload side. -/
  | deliver
  deriving DecidableEq

/-- The input a delivery feeds the requirer's machine, from the flag's value at the previous
delivery and now: nothing when it did not change, `ready` when it turned `"true"`. -/
def mountInput (previous current : Option String) : Option RequirerInput :=
  if previous = current then none
  else if current = some "true" then some .ready
  else some .notReady

/-- What a delivery emits, from the flag's value at the previous delivery and now: a mount when
it turned `"true"`, an unmount when it was `"true"` or absent and is now something else, and
nothing when it did not change. -/
def mountNotice (r : Relation) (previous current : Option String) : List MountRequiresEvent :=
  if previous = current then []
  else if current = some "true" then [.mountedFilesystem r]
  else if previous = some "true" ∨ previous = none then [.unmountedFilesystem r]
  else []

/-- The value a write leaves. -/
def MountedAction.written (value : String) : Option String :=
  if value = "" then none else some value

/-- What a run emits, from the flag's value at the last delivery and now. -/
def noticeTrace (r : Relation) : Option String → Option String → List MountedAction →
    List MountRequiresEvent
  | _, _, [] => []
  | previous, _, .write value :: rest => noticeTrace r previous (MountedAction.written value) rest
  | previous, current, .deliver :: rest =>
    mountNotice r previous current ++ noticeTrace r current current rest

/-- Runs the actions on a host: the provider unit `unit` of `app` writes its flag on `r`, and
each change is delivered to `side`. Collects what the deliveries emit. -/
def MountRequires.replay (side : MountRequires) (r : Relation) (app unit : String) :
    List MountedAction → HostM (List MountRequiresEvent)
  | [] => pure []
  | .write value :: rest => do
    modify fun h => h.remoteUpdate r (.unit unit) (Databag.ofList [(mountedKey, value)])
    side.replay r app unit rest
  | .deliver :: rest => do
    let now ← side.handle (.relationChanged r app (some unit))
    pure (now ++ (← side.replay r app unit rest))

/-! ## Reading a transaction -/

theorem Transaction.deleted_contains_iff (old new : Databag) (k : String) :
    (Transaction.between old new).deleted.contains k = true ↔
      (old.get? k).isSome ∧ new.get? k = none :=
  List.contains_iff_mem.trans (Transaction.mem_deleted_between old new k)

theorem Transaction.touched_iff (old new : Databag) (k : String) :
    (Transaction.between old new).touched k = true ↔
      (new.get? k).isSome ∧ old.get? k ≠ new.get? k := by
  simp only [Transaction.touched, decide_eq_true_eq, List.contains_iff_mem,
    Transaction.mem_added_between, Transaction.mem_changed_between old new]
  cases old.get? k <;> cases new.get? k <;> simp

theorem get?_mounted_dataOnly (d : Databag) : (dataOnly d).get? mountedKey = d.get? mountedKey := by
  simp [mountedKey, isReserved]

theorem HostM.run_ownUnit (h : Host) : HostM.ownUnit.run.run h = (.ok h.ownUnit, h) := rfl

/-! ## One delivery -/

/-- The workload side watches the provider unit `unit` on `r`: the host is well formed, `r` is
live, and the snapshot of the unit's scope reads back as `old`. -/
structure Watching (h : Host) (r : Relation) (unit : String) (old : Databag) : Prop where
  wellFormed : h.WellFormed
  live : h.isLive r = true
  baseline : Baseline h r h.ownUnit (.unit unit) old

section Watching

variable {h : Host} {r : Relation} {unit : String} {old : Databag}

/-- The flag's value now. -/
abbrev flag (h : Host) (r : Relation) (unit : String) : Option String :=
  (h.bag r (.unit unit)).get? mountedKey

theorem Watching.diff (hw : Watching h r unit old) :
    ∃ h', (HostM.diff r h.ownUnit (.unit unit)).run.run h =
        (.ok (Transaction.between old (dataOnly (h.bag r (.unit unit)))), h') ∧
      Watching h' r unit (dataOnly (h.bag r (.unit unit))) ∧
      dataOnly (h'.bag r (.unit unit)) = dataOnly (h.bag r (.unit unit)) := by
  obtain ⟨hrun, hwf', hr', hown, hdata, hb'⟩ :=
    diff_step hw.wellFormed hw.live (.unit unit) hw.baseline
  exact ⟨_, hrun, ⟨hwf', hr', by rw [hown]; exact hb'⟩, hdata⟩

/-- A delivery feeds the requirer's machine `mountInput` of the snapshot's flag and the current
one, from the state the snapshot implies, and moves the snapshot on. -/
theorem Watching.run_providerChanged (hw : Watching h r unit old) :
    ∃ h', (MountRequires.providerChanged r unit).run.run h =
        (.ok ((mountInput (old.get? mountedKey) (flag h r unit)).bind fun i =>
          ((RequirerState.observe ((old.get? mountedKey).map (· == "true"))).step i).2), h') ∧
      Watching h' r unit (dataOnly (h.bag r (.unit unit))) ∧ flag h' r unit = flag h r unit := by
  obtain ⟨h', hdiff, hw', hdata⟩ := hw.diff
  have hread : (HostM.read r (.unit unit)).run.run h' = (.ok (h'.bag r (.unit unit)), h') :=
    HostM.run_read_of_isLive hw'.live _
  have hnow : (h'.bag r (.unit unit)).get? mountedKey = (h.bag r (.unit unit)).get? mountedKey := by
    rw [← get?_mounted_dataOnly, hdata, get?_mounted_dataOnly]
  refine ⟨h', ?_, hw', hnow⟩
  unfold flag
  rw [MountRequires.providerChanged, run_bind_ok (HostM.run_ownUnit h),
    run_bind_ok (run_cached_of_baseline hw.live hw.baseline)]
  simp only []
  rw [run_bind_ok hdiff]
  -- the transaction speaks of the flag only through its value before and now
  have hdel := Transaction.deleted_contains_iff old (dataOnly (h.bag r (.unit unit))) mountedKey
  have htouch := Transaction.touched_iff old (dataOnly (h.bag r (.unit unit))) mountedKey
  rw [get?_mounted_dataOnly] at hdel htouch
  generalize old.get? mountedKey = p at hdel htouch ⊢
  generalize (h.bag r (.unit unit)).get? mountedKey = c at hdel htouch hnow ⊢
  split
  · -- deleted
    rename_i hd
    obtain ⟨hp, rfl⟩ := hdel.1 hd
    cases p with
    | none => simp at hp
    | some x => simp [mountInput]
  · split
    · -- added or changed: the value now decides
      rename_i hd ht
      obtain ⟨hcs, hne⟩ := htouch.1 ht
      rw [run_bind_ok hread, hnow]
      split <;> simp_all [mountInput]
    · -- untouched: the value is the same
      rename_i hd ht
      have hpc : p = c := by
        cases c with
        | none => cases p <;> simp_all
        | some x => exact Classical.byContradiction fun hne => ht (htouch.2 ⟨rfl, hne⟩)
      simp [mountInput, hpc]

/-- One delivery of the provider unit's change emits `mountNotice` of the flag's value in the
snapshot and now, and leaves the current flag as the snapshot. -/
theorem Watching.run_handle (hw : Watching h r unit old) (side : MountRequires)
    (hside : r.endpoint = side.endpoint) (app : String) :
    ∃ h', (side.handle (.relationChanged r app (some unit))).run.run h =
        (.ok (mountNotice r (old.get? mountedKey) (flag h r unit)), h') ∧
      Watching h' r unit (dataOnly (h.bag r (.unit unit))) ∧ flag h' r unit = flag h r unit := by
  obtain ⟨h', hrun, hw', hnow⟩ := hw.run_providerChanged
  refine ⟨h', ?_, hw', hnow⟩
  have hon : (HostEvent.relationChanged r app (some unit)).relationOn side.endpoint = some r := by
    simp [HostEvent.relationOn, HostEvent.relation?, hside]
  simp only [MountRequires.handle, hon]
  rw [run_bind_ok hrun]
  -- the machine's signal, named as the workload side's notice
  simp only [HostM.run_pure]
  generalize old.get? mountedKey = p
  generalize flag h r unit = c
  rcases p with _ | x <;> rcases c with _ | y
  · simp [mountInput, mountNotice]
  · -- no snapshot of the flag: the machine starts connected
    by_cases hy : y = "true" <;>
      simp [mountInput, mountNotice, hy, RequirerState.observe, RequirerState.step]
  · by_cases hx : x = "true"
    · simp [mountInput, mountNotice, hx, RequirerState.observe, RequirerState.step]
    · simp [mountInput, mountNotice, hx, beq_false_of_ne hx, RequirerState.observe,
        RequirerState.step]
  · by_cases hxy : x = y
    · simp [mountInput, mountNotice, hxy]
    · by_cases hx : x = "true"
      · subst hx
        simp [mountInput, mountNotice, hxy, Ne.symm hxy, RequirerState.observe,
          RequirerState.step]
      · by_cases hy : y = "true" <;>
          simp [mountInput, mountNotice, hxy, hx, hy, beq_false_of_ne hx, RequirerState.observe,
            RequirerState.step]

/-- A write of the flag keeps the watch, and leaves the value written. -/
theorem Watching.write (hw : Watching h r unit old) (value : String) :
    Watching (h.remoteUpdate r (.unit unit) (Databag.ofList [(mountedKey, value)])) r unit old ∧
      flag (h.remoteUpdate r (.unit unit) (Databag.ofList [(mountedKey, value)])) r unit =
        MountedAction.written value := by
  have hsome := Host.isSome_state?_of_isLive hw.live
  -- the flag's key is not reserved, so the write leaves the snapshot
  have hne : mountedKey ≠ cacheKey (.unit unit) := fun heq => by
    have hres := isReserved_cacheKey (.unit unit)
    rw [← heq] at hres
    simp [mountedKey, isReserved] at hres
  have hkey : (Databag.ofList [(mountedKey, value)]).get? (cacheKey (.unit unit)) = none := by
    simp [hne]
  refine ⟨⟨hw.wellFormed.remoteUpdate r _ _, by rw [Host.isLive_remoteUpdate, hw.live], ?_⟩, ?_⟩
  · rw [Host.ownUnit_remoteUpdate]
    exact hw.baseline.remoteUpdate hsome (.inr hkey)
  · have hval : (Databag.ofList [(mountedKey, value)]).get? mountedKey = some value := by
      simp
    rw [flag, Host.bag_remoteUpdate hsome, if_pos ⟨rfl, rfl⟩,
      Databag.get?_merge_of_some hval]
    rfl

/-- A run of writes and deliveries emits `noticeTrace` of the flag's value in the snapshot and
now. -/
theorem Watching.run_replay (hw : Watching h r unit old) (side : MountRequires)
    (hside : r.endpoint = side.endpoint) (app : String) (acts : List MountedAction) :
    ∃ h', (side.replay r app unit acts).run.run h =
      (.ok (noticeTrace r (old.get? mountedKey) (flag h r unit) acts), h') := by
  induction acts generalizing h old with
  | nil => exact ⟨h, rfl⟩
  | cons act rest ih =>
    cases act with
    | write value =>
      obtain ⟨hw', hval⟩ := hw.write value
      obtain ⟨h', hrun⟩ := ih hw'
      refine ⟨h', ?_⟩
      rw [MountRequires.replay, run_bind_ok (HostM.run_modify _ h), hrun, hval]
      rfl
    | deliver =>
      obtain ⟨h₁, hrun₁, hw₁, hnow⟩ := hw.run_handle side hside app
      obtain ⟨h', hrun⟩ := ih hw₁
      refine ⟨h', ?_⟩
      -- the next delivery compares with the value this one saw
      rw [get?_mounted_dataOnly, hnow] at hrun
      rw [MountRequires.replay, run_bind_ok hrun₁, run_bind_ok hrun]
      rfl

end Watching

/-! ## The order of the notices -/

section Order

variable {r : Relation}

/-- A run emits mounts and unmounts of its relation only. -/
theorem mem_noticeTrace {p c : Option String} {acts : List MountedAction}
    {e : MountRequiresEvent} (he : e ∈ noticeTrace r p c acts) :
    e = .mountedFilesystem r ∨ e = .unmountedFilesystem r := by
  induction acts generalizing p c with
  | nil => simp [noticeTrace] at he
  | cons act rest ih =>
    cases act with
    | write value => exact ih he
    | deliver =>
      rw [noticeTrace, List.mem_append] at he
      rcases he with he | he
      · unfold mountNotice at he
        split_ifs at he <;> simp_all
      · exact ih he

/-- Between two mounts there is an unmount: once a delivery saw `"true"`, the next notice is
an unmount. -/
theorem noticeTrace_unmounts_between (p c : Option String) (acts : List MountedAction) :
    (noticeTrace r p c acts).IsChain
        (fun a b => a = .mountedFilesystem r → b = .unmountedFilesystem r) ∧
      (p = some "true" → ∀ e ∈ (noticeTrace r p c acts).head?, e = .unmountedFilesystem r) := by
  induction acts generalizing p c with
  | nil => exact ⟨List.isChain_nil, by simp [noticeTrace]⟩
  | cons act rest ih =>
    cases act with
    | write value => exact ih p _
    | deliver =>
      obtain ⟨hchain, hhead⟩ := ih c c
      simp only [noticeTrace, mountNotice]
      split_ifs with hpc hc hu
      · -- nothing emitted: the snapshot was already the value now
        subst hpc
        exact ⟨hchain, hhead⟩
      · subst hc
        refine ⟨List.isChain_cons.2 ⟨fun e he _ => hhead rfl e he, hchain⟩, fun hp => ?_⟩
        exact absurd (hp.trans rfl) hpc
      · refine ⟨List.isChain_cons.2 ⟨fun _ _ hm => ?_, hchain⟩, fun _ e he => ?_⟩
        · cases hm
        · simp only [List.singleton_append, List.head?_cons, Option.mem_def,
            Option.some.injEq] at he
          exact he.symm
      · refine ⟨hchain, fun hp => absurd (.inl hp) hu⟩

/-- Without deletions the notices alternate: after a delivery saw `"true"` the next one is an
unmount, after it saw anything else a mount. -/
theorem noticeTrace_alternates (p c : Option String) (acts : List MountedAction)
    (hkeep : ∀ value, .write value ∈ acts → value ≠ "") (hpending : p = none ∨ c.isSome) :
    (noticeTrace r p c acts).IsChain (· ≠ ·) ∧
      ∀ x, p = some x → ∀ e ∈ (noticeTrace r p c acts).head?,
        e = if x = "true" then .unmountedFilesystem r else .mountedFilesystem r := by
  induction acts generalizing p c with
  | nil => exact ⟨List.isChain_nil, by simp [noticeTrace]⟩
  | cons act rest ih =>
    have hrest : ∀ value, .write value ∈ rest → value ≠ "" := fun v hv => hkeep v (.tail _ hv)
    cases act with
    | write value =>
      have hne := hkeep value (.head _)
      exact ih p _ hrest (.inr (by simp [MountedAction.written, hne]))
    | deliver =>
      have hsome : p ≠ none → ∃ y, c = some y := fun hp =>
        Option.isSome_iff_exists.1 (hpending.resolve_left hp)
      obtain ⟨hchain, hhead⟩ := ih c c hrest (by cases c <;> simp)
      simp only [noticeTrace, mountNotice]
      split_ifs with hpc hc hu
      · -- nothing emitted: the snapshot was already the value now
        subst hpc
        exact ⟨hchain, hhead⟩
      · -- a mount: the next notice is an unmount
        subst hc
        refine ⟨List.isChain_cons.2 ⟨fun e he => ?_, hchain⟩, fun x hx => ?_⟩
        · rw [hhead "true" rfl e he]
          simp
        · have hxt : x ≠ "true" := fun h => hpc (hx.trans (congrArg some h))
          simp [hxt]
      · -- an unmount: the flag is now some value other than `"true"`
        obtain ⟨y, rfl⟩ : ∃ y, c = some y := by
          rcases hu with hp | hp
          · exact hsome (by simp [hp])
          · cases c with
            | none => exact absurd (hp.trans rfl) hpc
            | some y => exact ⟨y, rfl⟩
        have hy : y ≠ "true" := fun h => hc (congrArg some h)
        refine ⟨List.isChain_cons.2 ⟨fun e he => ?_, hchain⟩, fun x hx => ?_⟩
        · rw [hhead y rfl e he]
          simp [hy]
        · have hxt : x = "true" := by
            rcases hu with hp | hp
            · exact Option.some_injective _ (hx.symm.trans hp)
            · simp [hp] at hx
          simp [hxt]
      · -- nothing emitted: the value stayed other than `"true"`
        obtain ⟨x, rfl⟩ : ∃ x, p = some x := Option.ne_none_iff_exists'.1 fun h => hu (.inr h)
        obtain ⟨y, rfl⟩ := hsome (by simp)
        have hx : x ≠ "true" := fun h => hu (.inl (congrArg some h))
        have hy : y ≠ "true" := fun h => hc (congrArg some h)
        refine ⟨hchain, fun x' hx' e he => ?_⟩
        obtain rfl := Option.some_injective _ hx'
        rw [hhead y rfl e he]
        simp [hx, hy]

end Order

/-! ## From a reachable host -/

/-- What the workload side is told about its mount. On a reachable host, with a live relation
`r` of the side's endpoint and a snapshot of the provider unit's scope that is absent or was
written by a delivery, any run of writes of the provider unit's `mounted` flag and deliveries
of its change succeeds and emits exactly `noticeTrace` of the flag's value in the snapshot and
now: at each delivery a mount when the flag turned `"true"`, an unmount when it was `"true"` or
absent and is now something else, and nothing when it did not change. The notices are mounts
and unmounts of `r`; between two mounts there is an unmount; and when no write deletes the flag
and no deletion is pending, mounts and unmounts alternate. -/
theorem MountRequires.replay_notices (side : MountRequires) {h : Host} (hh : h.Reachable)
    {r : Relation} (hr : h.isLive r = true) (hside : r.endpoint = side.endpoint)
    (app unit : String)
    (hcache : (h.bag r h.ownUnit).get? (cacheKey (.unit unit)) = none ∨
      ∃ d : Databag, (h.bag r h.ownUnit).get? (cacheKey (.unit unit)) = some d.toText)
    (acts : List MountedAction) :
    ∃ old es h',
      (HostM.cached r h.ownUnit (.unit unit)).run.run h = (.ok old, h) ∧
      (side.replay r app unit acts).run.run h = (.ok es, h') ∧
      es = noticeTrace r (old.get? mountedKey) (flag h r unit) acts ∧
      (∀ e ∈ es, e = .mountedFilesystem r ∨ e = .unmountedFilesystem r) ∧
      es.IsChain (fun a b => a = .mountedFilesystem r → b = .unmountedFilesystem r) ∧
      ((∀ value, .write value ∈ acts → value ≠ "") →
        (old.get? mountedKey = none ∨ (flag h r unit).isSome) → es.IsChain (· ≠ ·)) := by
  obtain ⟨old, hb⟩ := exists_baseline hcache
  have hw : Watching h r unit old := ⟨hh.wellFormed, hr, hb⟩
  obtain ⟨h', hrun⟩ := hw.run_replay side hside app acts
  refine ⟨old, _, h', run_cached_of_baseline hr hb, hrun, rfl, fun e he => mem_noticeTrace he,
    (noticeTrace_unmounts_between _ _ acts).1, fun hkeep hpending => ?_⟩
  exact (noticeTrace_alternates _ _ acts hkeep hpending).1

/-- A workload unit with a fresh `mount` relation, whose provider reports the filesystem
mounted and then unmounted. -/
theorem MountRequires.replay_notices_mount_cycle :
    let h := (HostOp.addRelation "mount" "filesystem-client").apply (Host.new "workload" "workload/0")
    let r : Relation := ⟨"mount", 0⟩
    let unit := "filesystem-client/0"
    let acts := [MountedAction.write "true", .deliver, .write "false", .deliver]
    h.Reachable ∧ h.isLive r = true ∧ r.endpoint = (⟨"mount"⟩ : MountRequires).endpoint ∧
    ((h.bag r h.ownUnit).get? (cacheKey (.unit unit)) = none ∨
      ∃ d : Databag, (h.bag r h.ownUnit).get? (cacheKey (.unit unit)) = some d.toText) ∧
    ∃ old es h',
      (HostM.cached r h.ownUnit (.unit unit)).run.run h = (.ok old, h) ∧
      ((⟨"mount"⟩ : MountRequires).replay r "filesystem-client" unit acts).run.run h =
        (.ok es, h') ∧
      es = noticeTrace r (old.get? mountedKey) (flag h r unit) acts ∧
      (∀ e ∈ es, e = .mountedFilesystem r ∨ e = .unmountedFilesystem r) ∧
      es.IsChain (fun a b => a = .mountedFilesystem r → b = .unmountedFilesystem r) ∧
      ((∀ value, .write value ∈ acts → value ≠ "") →
        (old.get? mountedKey = none ∨ (flag h r unit).isSome) → es.IsChain (· ≠ ·)) := by
  intro h r unit acts
  have hh : h.Reachable := .step _ (.new "workload" "workload/0")
  have hr : h.isLive r = true := by decide
  have hc : (h.bag r h.ownUnit).get? (cacheKey (.unit unit)) = none := by decide
  exact ⟨hh, hr, rfl, .inl hc,
    MountRequires.replay_notices ⟨"mount"⟩ hh hr rfl "filesystem-client" unit (.inl hc) acts⟩

/-- Deleting the flag forgets the last unmount: a provider that reports `"false"`, deletes the
flag and reports `"false"` again has the workload side told of two unmounts in a row. -/
theorem MountRequires.replay_unmounts_twice_after_deletion :
    let h := (HostOp.addRelation "mount" "filesystem-client").apply (Host.new "workload" "workload/0")
    let r : Relation := ⟨"mount", 0⟩
    ∃ h', ((⟨"mount"⟩ : MountRequires).replay r "filesystem-client" "filesystem-client/0"
        [.write "false", .deliver, .write "", .deliver, .write "false", .deliver]).run.run h =
      (.ok [.unmountedFilesystem r, .unmountedFilesystem r], h') := by
  intro h r
  have hw : Watching h r "filesystem-client/0" .empty :=
    ⟨(Host.Reachable.step _ (.new "workload" "workload/0")).wellFormed, by decide,
      .inl ⟨by decide, rfl⟩⟩
  obtain ⟨h', hrun⟩ := hw.run_replay ⟨"mount"⟩ rfl "filesystem-client"
    [.write "false", .deliver, .write "", .deliver, .write "false", .deliver]
  -- no snapshot and no flag yet: the run is the trace from nothing
  have htrace : noticeTrace r (Databag.empty.get? mountedKey) (flag h r "filesystem-client/0")
      [.write "false", .deliver, .write "", .deliver, .write "false", .deliver] =
      [.unmountedFilesystem r, .unmountedFilesystem r] := by decide
  exact ⟨h', htrace ▸ hrun⟩

end ShareBroker
