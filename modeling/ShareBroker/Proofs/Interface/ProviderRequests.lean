import ShareBroker.Proofs.Interface.EndpointNotices
import ShareBroker.Proofs.Interface.FilesystemPublish
import ShareBroker.Interface.Share
import ShareBroker.Interface.Mount

/-!
# What a provider is told of a request

Neither provider side keeps state between deliveries: not the filesystem client serving mounts
(`MountProvides`), nor the CephFS server serving shares (`ShareProvides`). A delivery of a change
of the requirer application's scope rebuilds `Negotiation.ProviderState` from the snapshot of
that scope (whether a request was there) and from what the provider published (whether it was
served), steps it with an input classified from the diff, and reports the signal.

The two sides classify differently. For a mount, a change of any other key asks for the mount
to be redone (`requestChanged`), and a request is reported only once the scope holds a
mountpoint, decoded as a `MountInfo`: the provider is told `mountRequestSignal`, which is the
machine's signal less a request while no mountpoint is there (`mountRequestSignal_eq_step`).
For a share, only the `name` key counts, a change of other keys is no input at all, a withdrawal
is not reported, and only the leader listens: it is told `shareRequestNotice`, and revokes the
relation's credentials when the relation breaks.

A diff writes nothing but the snapshot, a reserved key of the unit's own scope
(`Host.SnapshotMoved`), so what a delivery reads after it is what the scopes held before.

## Key results

- `mountRequestSignal_eq_step`, `shareRequestInput_requested_iff`: the machine's signal, by the
  request key at the last observation and now
- `MountProvides.mount_request_notices`: a delivery to the mount provider, from any last
  observation
- `ShareProvides.share_request_notices`: the share provider, leader or not, and a broken
  relation
-/

namespace ShareBroker

open Negotiation

/-! ## What a diff says of one key -/

namespace Transaction

theorem added_contains_eq (old new : Databag) (k : String) :
    (between old new).added.contains k = ((new.get? k).isSome && (old.get? k).isNone) := by
  rw [Bool.eq_iff_iff, added_contains_iff]
  simp [Option.isNone_iff_eq_none]

theorem deleted_contains_eq (old new : Databag) (k : String) :
    (between old new).deleted.contains k = ((old.get? k).isSome && (new.get? k).isNone) := by
  rw [Bool.eq_iff_iff, deleted_contains_iff]
  simp [Option.isNone_iff_eq_none]

theorem changed_contains_eq (old new : Databag) (k : String) :
    (between old new).changed.contains k =
      match old.get? k, new.get? k with
      | some o, some v => o != v
      | _, _ => false := by
  rw [Bool.eq_iff_iff, changed_contains_iff old new]
  cases old.get? k <;> cases new.get? k <;> simp

theorem isEmpty_between_eq (old new : Databag) :
    (between old new).isEmpty = decide (old = new) := by
  rw [Bool.eq_iff_iff, isEmpty_between_iff, decide_eq_true_iff]

end Transaction

/-! ## Decoding a request -/

/-- A pass over a list fails only with the error of one of its elements. -/
theorem Outcome.mapM_eq_error {α β : Type} {f : α → Outcome β} {e : Error} {l : List α}
    (h : l.mapM f = .error e) : ∃ a ∈ l, f a = .error e := by
  induction l with
  | nil => cases h
  | cons a l ih =>
    rw [List.mapM_cons] at h
    cases ha : f a with
    | error e' =>
      rw [ha, Outcome.error_bind] at h
      cases h
      exact ⟨a, List.mem_cons_self .., ha⟩
    | ok b =>
      rw [ha, Outcome.ok_bind] at h
      cases hl : l.mapM f with
      | error e' =>
        rw [hl, Outcome.error_bind] at h
        cases h
        obtain ⟨a', ha', hfa'⟩ := ih hl
        exact ⟨a', List.mem_cons_of_mem a ha', hfa'⟩
      | ok bs =>
        rw [hl, Outcome.ok_bind] at h
        cases h

/-- Reading the fields of a record fails only on a value that is not JSON, as an invalid
record. -/
theorem Record.fields_eq_error {d : Databag} {e : Error} (h : Record.fields d = .error e) :
    ∃ reason, e = .invalidRecord reason := by
  unfold Record.fields at h
  simp only [bind, Except.bind] at h
  split at h
  · rename_i e' hm
    cases h
    obtain ⟨kv, -, hkv⟩ := Outcome.mapM_eq_error hm
    split at hkv
    · cases hkv
    · cases hkv
      exact ⟨_, rfl⟩
  · cases h

/-- Decoding a record fails only as an invalid record. -/
theorem Record.load_eq_error {α : Type} {decode : Json → Except DecodeError α} {d : Databag}
    {e : Error} (h : Record.load decode d = .error e) : ∃ reason, e = .invalidRecord reason := by
  unfold Record.load at h
  simp only [bind, Except.bind] at h
  split at h
  · rename_i e' hf
    cases h
    exact Record.fields_eq_error hf
  · split at h
    · cases h
    · cases h
      exact ⟨_, rfl⟩

/-! ## The mount provider -/

/-- How a mount provider classifies a diff of the requirer application's scope: the mountpoint
added or deleted, any other change, or none at all. -/
def mountRequestInput (t : Transaction) : ProviderInput :=
  if t.added.contains mountpointKey then .requestAdded
  else if t.deleted.contains mountpointKey then .requestWithdrawn
  else if !t.isEmpty then .requestChanged
  else .retry

/-- What a mount provider is told of the requirer application's scope, from its data at the last
observation and now, and whether a mount was published: a withdrawal when the mountpoint went
away, a request when a mountpoint is there and the scope changed or no mount was published, and
nothing otherwise. -/
def mountRequestSignal (old new : Databag) (served : Bool) : Option ProviderSignal :=
  if (old.get? mountpointKey).isSome ∧ new.get? mountpointKey = none then some .unrequested
  else if (new.get? mountpointKey).isSome ∧ (old ≠ new ∨ served = false) then some .requested
  else none

/-- The answer to a delivery told `signal`, where a request is answered once the requirer's
scope decodes, as `info`. -/
def mountAnswer (r : Relation) (info : Outcome MountInfo) :
    Option ProviderSignal → Except Error (List MountProvidesEvent)
  | some .unrequested => .ok [.mountUnrequested r]
  | some .requested => info.map fun _ => [.mountRequested r]
  | none => .ok []

/-- The mount provider's signal is the machine's, stepped from the state that the snapshot and
the published mount show with the classified diff, except that a request is dropped while the
scope holds no mountpoint. -/
theorem mountRequestSignal_eq_step (old new : Databag) (served : Bool) :
    mountRequestSignal old new served =
      ((ProviderState.observe (old.contains mountpointKey) served).step
        (mountRequestInput (Transaction.between old new))).2.filter
        fun s => s == .unrequested || (new.get? mountpointKey).isSome := by
  rw [mountRequestSignal, mountRequestInput, Transaction.added_contains_eq,
    Transaction.deleted_contains_eq, Transaction.isEmpty_between_eq, Databag.contains_eq]
  rcases hp : old.get? mountpointKey with _ | o <;> rcases hc : new.get? mountpointKey with _ | v
  · -- no mountpoint before or now: a change is a request, which the filter drops
    by_cases heq : old = new <;>
      simp [heq, ProviderState.observe, ProviderState.step, Option.filter_some]
  · -- a mountpoint appeared, so the scope changed
    have hne : old ≠ new := fun heq => by rw [heq, hc] at hp; cases hp
    simp [hne, ProviderState.observe, ProviderState.step, Option.filter_some]
  · -- the mountpoint went away
    cases served <;> simp [ProviderState.observe, ProviderState.step, Option.filter_some]
  · -- a mountpoint before and now: a change, or a retry when nothing changed
    by_cases heq : old = new <;> cases served <;>
      simp [heq, ProviderState.observe, ProviderState.step, Option.filter_some]

/-- Nothing changed and a mount is published: nothing to tell. -/
theorem mountRequestSignal_self_served (d : Databag) : mountRequestSignal d d true = none := by
  cases hd : d.get? mountpointKey <;> simp [mountRequestSignal, hd]

theorem get?_mountpoint_dataOnly (d : Databag) :
    (dataOnly d).get? mountpointKey = d.get? mountpointKey := by
  simp [mountpointKey, isReserved]

namespace MountProvides

variable {side : MountProvides} {h : Host} {r : Relation} {app : String} {old : Databag}

/-- The mount requested over a relation with the requirer application `app`: the scope's
record, decoded, once the scope holds a mountpoint, and nothing before. -/
theorem run_mountInfo (hh : h.WellFormed) (hr : h.isLive r = true)
    (happ : (h.state? r).map (·.remoteApp) = some app) :
    (side.mountInfo r).run.run h =
      (if ((h.bag r (.app app)).get? mountpointKey).isSome then
        (Record.load MountInfo.ofJson (h.bag r (.app app))).map some
      else .ok none, h) := by
  unfold mountInfo
  rw [run_bind_ok (HostM.run_remoteApp r h), happ]
  simp only []
  rw [run_bind_ok (HostM.run_read_of_isLive hr _)]
  cases hm : (h.bag r (.app app)).get? mountpointKey with
  | none => rfl
  | some m =>
    -- a scope holds no empty value, so the mountpoint is read
    have hne : m.isEmpty = false := by
      simpa [String.isEmpty_iff] using (hh.bag r (.app app)).ne_of_get? hm
    simp only [hne, Bool.false_eq_true, ↓reduceIte, Option.isSome_some]
    cases Record.load MountInfo.ofJson (h.bag r (.app app)) <;> rfl

/-- A delivery of a change of the requirer application's scope, from any last observation, is
answered by `mountRequestSignal`, and leaves what the diff leaves. -/
theorem run_handle_changed (ho : Observing h r (.app app) old)
    (hside : r.endpoint = side.endpoint) (happ : (h.state? r).map (·.remoteApp) = some app)
    {h' : Host} (hdiff : (HostM.diff r h.ownUnit (.app app)).run.run h =
      (.ok (Transaction.between old (dataOnly (h.bag r (.app app)))), h'))
    (hm : h.SnapshotMoved h' r) (unit : Option String) :
    (side.handle (.relationChanged r app unit)).run.run h =
      (mountAnswer r (Record.load MountInfo.ofJson (h.bag r (.app app)))
        (mountRequestSignal old (dataOnly (h.bag r (.app app)))
          ((h.bag r h.ownUnit).contains mountedKey)), h') := by
  have hsome := Host.isSome_state?_of_isLive ho.live
  unfold handle
  simp only [hside, bne_self_eq_false, Bool.false_eq_true, ↓reduceIte]
  rw [run_bind_ok (HostM.run_ownUnit h), run_bind_ok ho.snapshot,
    run_bind_ok (HostM.run_read_of_isLive ho.live _), run_bind_ok hdiff, ← mountRequestInput,
    mountRequestSignal_eq_step,
    get?_mountpoint_dataOnly]
  -- the request is read after the diff, from the scope it observes, which the diff keeps
  have hinfo : (side.mountInfo r).run.run h' =
      (if ((h.bag r (.app app)).get? mountpointKey).isSome then
        (Record.load MountInfo.ofJson (h.bag r (.app app))).map some
      else .ok none, h') := by
    rw [run_mountInfo (hm.wellFormed ho.wellFormed) ((hm.isLive r).trans ho.live)
      ((hm.remoteApp r).trans happ), hm.bag_app hsome]
  generalize ((ProviderState.observe _ _).step _).2 = signal
  rcases signal with _ | _ | _
  · rfl
  · -- a request is answered once the scope holds a mountpoint, as its record decodes
    by_cases hmp : ((h.bag r (.app app)).get? mountpointKey).isSome = true
    · rw [if_pos hmp] at hinfo
      cases hload : Record.load MountInfo.ofJson (h.bag r (.app app)) with
      | ok info =>
        rw [hload] at hinfo
        rw [run_bind_ok hinfo]
        simp [mountAnswer, hmp, Option.filter_some, Except.map]
      | error e =>
        rw [hload] at hinfo
        rw [run_bind_error hinfo]
        simp [mountAnswer, hmp, Option.filter_some, Except.map]
    · rw [if_neg hmp] at hinfo
      rw [run_bind_ok hinfo]
      simp [mountAnswer, hmp, Option.filter_some]
  · simp [mountAnswer, Option.filter_some]

/-- Once a mount is published, a change delivered again with nothing changed since the last
observation is told nothing. -/
theorem run_handle_unchanged (ho : Observing h r (.app app) (dataOnly (h.bag r (.app app))))
    (hside : r.endpoint = side.endpoint) (happ : (h.state? r).map (·.remoteApp) = some app)
    (hserved : (h.bag r h.ownUnit).contains mountedKey = true) (unit : Option String) :
    ∃ h', (side.handle (.relationChanged r app unit)).run.run h = (.ok [], h') := by
  obtain ⟨h', hdiff, -, hm⟩ := ho.diff
  refine ⟨h', ?_⟩
  rw [run_handle_changed ho hside happ hdiff hm unit, hserved, mountRequestSignal_self_served]
  rfl

end MountProvides

/-- What a mount provider is told on its relation `r` with the requirer application `app`,
whose scope showed `old` at the last observation. -/
structure MountRequests (side : MountProvides) (h : Host) (r : Relation) (app : String)
    (old : Databag) : Prop where
  /-- A change of `app`'s scope is answered by `mountRequestSignal`, a request as the scope
  decodes; the delivery writes what the diff writes, and once a mount is published a redelivery
  with nothing changed is told nothing. -/
  changed : ∃ h', (HostM.diff r h.ownUnit (.app app)).run.run h =
      (.ok (Transaction.between old (dataOnly (h.bag r (.app app)))), h') ∧
    (∀ unit, (side.handle (.relationChanged r app unit)).run.run h =
      (mountAnswer r (Record.load MountInfo.ofJson (h.bag r (.app app)))
        (mountRequestSignal old (dataOnly (h.bag r (.app app)))
          ((h.bag r h.ownUnit).contains mountedKey)), h')) ∧
    ((h.bag r h.ownUnit).contains mountedKey = true → ∀ unit,
      ∃ h'', (side.handle (.relationChanged r app unit)).run.run h' = (.ok [], h''))
  /-- A scope that does not decode is refused as an invalid record. -/
  refused : ∀ e, Record.load MountInfo.ofJson (h.bag r (.app app)) = .error e →
    ∃ reason, e = .invalidRecord reason
  /-- The signal is the provider machine's, stepped from the state that the snapshot and the
  published mount show with the classified diff, with a request dropped while the scope holds
  no mountpoint. -/
  machine : mountRequestSignal old (dataOnly (h.bag r (.app app)))
      ((h.bag r h.ownUnit).contains mountedKey) =
    ((ProviderState.observe (old.contains mountpointKey)
        ((h.bag r h.ownUnit).contains mountedKey)).step
      (mountRequestInput (Transaction.between old (dataOnly (h.bag r (.app app)))))).2.filter
      fun s => s == .unrequested || ((h.bag r (.app app)).get? mountpointKey).isSome

/-- What a mount provider is told. On a reachable host, with a live relation `r` of the
provider's endpoint whose requirer is the application `app`, and a last observation `old` of
`app`'s scope, a change of that scope is told:

* a withdrawal when the mountpoint was there at `old` and is gone;
* a request when the scope holds a mountpoint and anything in it changed since `old`, or
  nothing changed and the unit's own scope holds no `mounted`; the request fails as an invalid
  record when the scope does not decode as a mount;
* nothing otherwise, so a redelivery with nothing changed, once a mount is published.

This is the signal of the provider machine rebuilt from `old` and the published mount and
stepped with the classified diff, except for a request while the scope holds no mountpoint:
the machine signals it and the provider is told nothing. -/
theorem MountProvides.mount_request_notices (side : MountProvides) {h : Host}
    (hh : h.Reachable) {r : Relation} (hr : h.isLive r = true)
    (hside : r.endpoint = side.endpoint) {app : String}
    (happ : (h.state? r).map (·.remoteApp) = some app) {old : Databag}
    (hold : (HostM.cached r h.ownUnit (.app app)).run.run h = (.ok old, h)) :
    MountRequests side h r app old := by
  have ho : Observing h r (.app app) old := ⟨hh.wellFormed, hr, hold⟩
  have hsome := Host.isSome_state?_of_isLive hr
  obtain ⟨h', hdiff, ho', hm⟩ := ho.diff
  refine ⟨⟨h', hdiff, MountProvides.run_handle_changed ho hside happ hdiff hm,
    fun hserved => ?_⟩, fun _ he => Record.load_eq_error he, ?_⟩
  · -- the delivery kept every scope's data, so the mount is still published
    have hdata := hm.dataOnly_bag hsome r
    have hserved' : (h'.bag r h'.ownUnit).contains mountedKey = true := by
      rw [hm.ownUnit, Databag.contains_eq, ← get?_mounted_dataOnly, hdata, get?_mounted_dataOnly,
        ← Databag.contains_eq, hserved]
    rw [← hdata] at ho'
    exact MountProvides.run_handle_unchanged ho' hside ((hm.remoteApp r).trans happ) hserved'
  · rw [mountRequestSignal_eq_step,
      get?_mountpoint_dataOnly]

/-- A filesystem client whose workload has just asked for a mount at `/data` on a fresh
relation. -/
theorem MountProvides.mount_request_notices_new_mountpoint :
    let r : Relation := ⟨"mount", 0⟩
    let h := (HostOp.remoteUpdate r (.app "workload")
      (Databag.ofList [(mountpointKey, "\"/data\"")])).apply
      ((HostOp.addRelation "mount" "workload").apply (Host.new "fs-client" "fs-client/0"))
    h.Reachable ∧ h.isLive r = true ∧ r.endpoint = (⟨"mount"⟩ : MountProvides).endpoint ∧
      (h.state? r).map (·.remoteApp) = some "workload" ∧
      (HostM.cached r h.ownUnit (.app "workload")).run.run h = (.ok .empty, h) ∧
      MountRequests ⟨"mount"⟩ h r "workload" .empty := by
  intro r h
  have hh : h.Reachable := .step _ (.step _ (.new "fs-client" "fs-client/0"))
  have hr : h.isLive r = true := by decide
  have happ : (h.state? r).map (·.remoteApp) = some "workload" := by decide
  have hold : (HostM.cached r h.ownUnit (.app "workload")).run.run h = (.ok .empty, h) :=
    run_cached_of_baseline hr (.inl ⟨by decide, rfl⟩)
  exact ⟨hh, hr, rfl, happ, hold,
    MountProvides.mount_request_notices ⟨"mount"⟩ hh hr rfl happ hold⟩

/-- A change of the workload's scope that holds no mountpoint: the provider machine, rebuilt
from the empty snapshot, signals a request, and the filesystem client is told nothing. -/
theorem MountProvides.change_without_mountpoint_untold :
    let r : Relation := ⟨"mount", 0⟩
    let h := (HostOp.remoteUpdate r (.app "workload")
      (Databag.ofList [("read_only", "true")])).apply
      ((HostOp.addRelation "mount" "workload").apply (Host.new "fs-client" "fs-client/0"))
    ((ProviderState.observe (Databag.empty.contains mountpointKey)
        ((h.bag r h.ownUnit).contains mountedKey)).step
      (mountRequestInput (Transaction.between .empty (dataOnly (h.bag r (.app "workload")))))).2 =
        some .requested ∧
      (((⟨"mount"⟩ : MountProvides).handle (.relationChanged r "workload" none)).run.run
        h).1.toOption = some [] := by
  decide +kernel

/-! ## The share provider -/

/-- How a share provider classifies a diff of the requirer application's scope: only the `name`
key counts, and an empty diff is a retry. -/
def shareRequestInput (t : Transaction) : Option ProviderInput :=
  if t.added.contains shareNameKey then some .requestAdded
  else if t.changed.contains shareNameKey then some .requestChanged
  else if t.deleted.contains shareNameKey then some .requestWithdrawn
  else if t.isEmpty then some .retry
  else none

/-- The provider machine asks to serve a share exactly when the requirer's `name` appeared or
changed since the last observation, or nothing changed while a name is there and no share was
published. -/
theorem shareRequestInput_requested_iff (old new : Databag) (served : Bool) :
    (shareRequestInput (Transaction.between old new)).bind
        (fun i => ((ProviderState.observe (old.contains shareNameKey) served).step i).2) =
        some .requested ↔
      ∃ name, new.get? shareNameKey = some name ∧
        (old.get? shareNameKey ≠ some name ∨ old = new ∧ served = false) := by
  rw [shareRequestInput, Transaction.added_contains_eq, Transaction.changed_contains_eq old new,
    Transaction.deleted_contains_eq, Transaction.isEmpty_between_eq, Databag.contains_eq]
  rcases hp : old.get? shareNameKey with _ | o <;> rcases hc : new.get? shareNameKey with _ | v
  · -- no name before or now: at most a retry, from `awaitingRequest`
    by_cases heq : old = new <;> simp [heq, ProviderState.observe, ProviderState.step]
  · -- a name appeared
    simp [ProviderState.observe, ProviderState.step]
  · -- the name was withdrawn
    cases served <;> simp [ProviderState.observe, ProviderState.step]
  · -- a name before and now: a change, or a retry when nothing changed at all
    by_cases hov : o = v
    · subst hov
      by_cases heq : old = new <;> cases served <;>
        simp [heq, ProviderState.observe, ProviderState.step]
    · simp [hov, ProviderState.observe, ProviderState.step]

/-- What a share provider is told of the requirer application's scope, from its data at the
last observation and now, and whether a share was published: a request for the current `name`
when it appeared or changed, or when nothing changed and no share was published. -/
def shareRequestNotice (r : Relation) (old new : Databag) (served : Bool) :
    List ShareProvidesEvent :=
  match new.get? shareNameKey with
  | some name =>
    if old.get? shareNameKey ≠ some name ∨ (old = new ∧ served = false) then
      [.shareRequested r name]
    else []
  | none => []

/-- A secret with `r` taken from its grants, when it carries `label`. -/
def revokeLabelled (label : String) (r : Relation) (s : Secret) : Secret :=
  if s.label = label then { s with grants := s.grants.filter (· != r) } else s

theorem get?_shareName_dataOnly (d : Databag) :
    (dataOnly d).get? shareNameKey = d.get? shareNameKey := by
  simp [shareNameKey, isReserved]

theorem HostM.run_leadership_of_follower {h : Host} (hl : h.leader = false) :
    HostM.leadership.run.run h = (.ok none, h) := by
  simp only [HostM.leadership, HostM.run_get_bind, hl, Bool.false_eq_true, ↓reduceIte,
    HostM.run_pure]

theorem HostM.run_lookupSecret (label : String) (h : Host) :
    (HostM.lookupSecret label).run.run h = (.ok (h.vault.lookup label), h) := rfl

namespace ShareProvides

variable {side : ShareProvides} {h : Host} {r : Relation} {app : String} {old : Databag}

/-- A unit that is not the leader ignores every event, and changes nothing. -/
theorem run_handle_of_follower (hl : h.leader = false) (e : HostEvent) :
    (side.handle e).run.run h = (.ok [], h) := by
  unfold handle
  cases e.relationOn side.endpoint with
  | none => rfl
  | some r =>
    rw [run_bind_ok (HostM.run_leadership_of_follower hl)]
    rfl

/-- The leader's answer to a change of the requirer application's scope, from any last
observation: `shareRequestNotice`, leaving what the diff leaves. -/
theorem run_handle_changed (ho : Observing h r (.app app) old) (hl : h.leader = true)
    (hside : r.endpoint = side.endpoint) {h' : Host}
    (hdiff : (HostM.diff r h.ownUnit (.app app)).run.run h =
      (.ok (Transaction.between old (dataOnly (h.bag r (.app app)))), h'))
    (hm : h.SnapshotMoved h' r) (unit : Option String) :
    (side.handle (.relationChanged r app unit)).run.run h =
      (.ok (shareRequestNotice r old (dataOnly (h.bag r (.app app)))
        ((h.bag r h.ownApp).contains shareInfoKey)), h') := by
  unfold handle
  rw [HostEvent.relationOn_eq_some (.relationChanged r app unit) rfl hside,
    run_bind_ok (HostM.run_leadership_of_leader hl)]
  simp only [Option.isNone_some, Bool.false_eq_true, ↓reduceIte, pure_bind]
  rw [run_bind_ok (HostM.run_ownUnit h), run_bind_ok ho.snapshot,
    run_bind_ok (HostM.run_ownApp h), run_bind_ok (HostM.run_read_of_isLive ho.live _),
    run_bind_ok hdiff, ← shareRequestInput]
  -- the name is read after the diff, from the scope it observes, which the diff does not write
  have hread : (HostM.read r (.app app)).run.run h' = (.ok (h.bag r (.app app)), h') := by
    rw [HostM.run_read_of_isLive ((hm.isLive r).trans ho.live),
      hm.bag_app (Host.isSome_state?_of_isLive ho.live)]
  have hiff := shareRequestInput_requested_iff old (dataOnly (h.bag r (.app app)))
    ((h.bag r h.ownApp).contains shareInfoKey)
  rw [get?_shareName_dataOnly] at hiff
  split
  · -- a request, for the name the scope holds now
    rename_i hsig
    obtain ⟨name, hname, hcond⟩ := hiff.1 hsig
    rw [run_bind_ok hread]
    simp only [shareRequestNotice, get?_shareName_dataOnly, hname, hcond, ↓reduceIte,
      Option.getD_some]
    rfl
  · -- anything else is told nothing
    rename_i hsig
    simp only [shareRequestNotice, get?_shareName_dataOnly]
    split
    · rename_i name hname
      rw [if_neg fun hcond => hsig (hiff.2 ⟨name, hname, hcond⟩)]
      rfl
    · rfl

/-- When the relation breaks, the leader takes `r` from the grants of the secret labelled for
it, if there is one, and is told nothing; all else stays. -/
theorem run_handle_broken (hv : h.vault.WellFormed) (hl : h.leader = true)
    (hside : r.endpoint = side.endpoint) (a : Option String) :
    ∃ h', (side.handle (.relationBroken r a)).run.run h = (.ok [], h') ∧
      { h' with vault := h.vault } = h ∧
      ∀ id, h'.vault.get? id = (h.vault.get? id).map (revokeLabelled (authSecretLabel r) r) := by
  unfold handle
  rw [HostEvent.relationOn_eq_some (.relationBroken r a) rfl hside,
    run_bind_ok (HostM.run_leadership_of_leader hl)]
  simp only [Option.isNone_some, Bool.false_eq_true, ↓reduceIte, pure_bind]
  rw [run_bind_ok (HostM.run_lookupSecret _ h)]
  cases hid : h.vault.lookup (authSecretLabel r) with
  | none =>
    -- no secret carries the label, so every secret stays
    refine ⟨h, rfl, rfl, fun id => ?_⟩
    cases hs : h.vault.get? id with
    | none => rfl
    | some s =>
      have hlabel := Vault.lookup_eq_none hid _ (Vault.mem_of_get? hs)
      simp [revokeLabelled, hlabel]
  | some id =>
    obtain ⟨s, hmem, hlabel⟩ := Vault.lookup_eq_some hid
    have hs := hv.get?_of_mem hmem
    refine ⟨{ h with vault := h.vault.put id { s with grants := s.grants.filter (· != r) } },
      by rw [run_bind_ok (FilesystemProvides.run_revokeSecret hv hs r)]; rfl, rfl, fun id' => ?_⟩
    rw [Vault.get?_put]
    split
    · -- the secret labelled for `r`
      rename_i hid'
      subst hid'
      simp [hs, revokeLabelled, hlabel]
    · -- any other secret carries another label, since labels are unique
      rename_i hid'
      cases hs' : h.vault.get? id' with
      | none => rfl
      | some s' =>
        have hne : s'.label ≠ authSecretLabel r := fun heq =>
          hid' (hv.labels _ hmem _ (Vault.mem_of_get? hs') (hlabel.trans heq.symm))
        simp [revokeLabelled, hne]

end ShareProvides

/-- What a share provider is told on its relation `r` with the requirer application `app`,
whose scope showed `old` at the last observation. -/
structure ShareRequests (side : ShareProvides) (h : Host) (r : Relation) (app : String)
    (old : Databag) : Prop where
  /-- A unit that is not the leader is told nothing of any event, and changes nothing. -/
  follower : h.leader = false → ∀ e, (side.handle e).run.run h = (.ok [], h)
  /-- The leader is told `shareRequestNotice` of a change of `app`'s scope, and writes what the
  diff writes. -/
  changed : h.leader = true → ∃ h', (HostM.diff r h.ownUnit (.app app)).run.run h =
      (.ok (Transaction.between old (dataOnly (h.bag r (.app app)))), h') ∧
    ∀ unit, (side.handle (.relationChanged r app unit)).run.run h =
      (.ok (shareRequestNotice r old (dataOnly (h.bag r (.app app)))
        ((h.bag r h.ownApp).contains shareInfoKey)), h')
  /-- When the relation breaks, the leader is told nothing and takes `r`, and only `r`, from the
  grants of the secret labelled for it, if there is one; all else stays. -/
  broken : h.leader = true → ∀ a, ∃ h', (side.handle (.relationBroken r a)).run.run h =
      (.ok [], h') ∧ { h' with vault := h.vault } = h ∧
    ∀ id, h'.vault.get? id = (h.vault.get? id).map (revokeLabelled (authSecretLabel r) r)

/-- What a share provider is told. On a reachable host, with a live relation `r` of the
provider's endpoint and a last observation `old` of the requirer application `app`'s scope:

* a unit that is not the leader is told nothing of any event, and changes nothing;
* the leader is told of a change of `app`'s scope a request for the `name` there now exactly
  when it appeared or changed since `old`, or nothing changed at all, a name is there and the
  relation's application scope holds no `share_info`; a withdrawn name, a change of other keys
  only, or a redelivery once a share is published is told nothing;
* when the relation breaks, the leader takes `r`, and only `r`, from the grants of the secret
  labelled `auth-info-<id>` for it, if there is one, and changes nothing else. -/
theorem ShareProvides.share_request_notices (side : ShareProvides) {h : Host}
    (hh : h.Reachable) {r : Relation} (hr : h.isLive r = true)
    (hside : r.endpoint = side.endpoint) {app : String} {old : Databag}
    (hold : (HostM.cached r h.ownUnit (.app app)).run.run h = (.ok old, h)) :
    ShareRequests side h r app old := by
  have ho : Observing h r (.app app) old := ⟨hh.wellFormed, hr, hold⟩
  obtain ⟨h', hdiff, -, hm⟩ := ho.diff
  exact ⟨fun hl e => ShareProvides.run_handle_of_follower hl e,
    fun hl => ⟨h', hdiff, ShareProvides.run_handle_changed ho hl hside hdiff hm⟩,
    fun hl a => ShareProvides.run_handle_broken hh.vault_wellFormed hl hside a⟩

/-- A CephFS server leading its application, whose client has just asked for the share
`ceph-fs` on a fresh relation. -/
theorem ShareProvides.share_request_notices_new_name :
    let r : Relation := ⟨"cephfs-share", 0⟩
    let h := (HostOp.remoteUpdate r (.app "cephfs-client")
      (Databag.ofList [(shareNameKey, "ceph-fs")])).apply
      ((HostOp.addRelation "cephfs-share" "cephfs-client").apply
        ((HostOp.setLeader true).apply (Host.new "cephfs-server" "cephfs-server/0")))
    h.Reachable ∧ h.isLive r = true ∧
      r.endpoint = (⟨"cephfs-share"⟩ : ShareProvides).endpoint ∧
      (HostM.cached r h.ownUnit (.app "cephfs-client")).run.run h = (.ok .empty, h) ∧
      ShareRequests ⟨"cephfs-share"⟩ h r "cephfs-client" .empty := by
  intro r h
  have hh : h.Reachable := .step _ (.step _ (.step _ (.new "cephfs-server" "cephfs-server/0")))
  have hr : h.isLive r = true := by decide
  have hold : (HostM.cached r h.ownUnit (.app "cephfs-client")).run.run h = (.ok .empty, h) :=
    run_cached_of_baseline hr (.inl ⟨by decide, rfl⟩)
  exact ⟨hh, hr, rfl, hold,
    ShareProvides.share_request_notices ⟨"cephfs-share"⟩ hh hr rfl hold⟩

end ShareBroker
