import ShareBroker.Proofs.Host.Reachable
import ShareBroker.Proofs.Transaction

/-!
# Noticing what changed

`HostM.diff r own b` compares the data of the scope `b` (its keys that are not reserved) with
the snapshot kept under `cacheKey b` in the scope `own`, and moves the snapshot on.
`Baseline h r own b d` says that the snapshot reads back as `d`: it is absent and `d` is empty,
or it is the JSON text of `d`, which is what `diff` writes.

* `run_cached_of_baseline`: the snapshot is read back;
* `run_diff`: a diff gives `Transaction.between` of the snapshot and the data, and writes the
  new snapshot into the unit's own scope exactly when the two differ;
* `dataOnly_bag_remoteUpdate_of_reserved`: a write of reserved keys leaves every scope's data;
* `diff_exact_and_advances`: on a reachable host, a diff reports exactly what changed, the
  snapshot it leaves is the data it saw, a second diff finds nothing, nor does one after writes
  of reserved keys only, and merging what it reports into the old snapshot gives the data;
* `Observing`: the snapshot as the unit reads it back, whatever text holds it; a diff compares
  with it and moves it on (`Observing.diff`), changing no data (`Host.SnapshotMoved`), and
  writes into other scopes keep it.

The snapshot lives in the unit's own scope, which is itself observed by the other side and may
be diffed too; it is left out of every diff because its key is reserved (`isReserved_cacheKey`).
-/

namespace ShareBroker

/-! ## Reserved keys -/

theorem isReserved_cacheKey (s : Scope) : isReserved (cacheKey s) = true := by
  cases s <;> simp [cacheKey, isReserved]

/-- A write of reserved keys only leaves the data of the scope it goes into. -/
theorem dataOnly_merge_of_reserved (d : Databag) {u : Databag}
    (hu : ∀ kv ∈ u.entries, isReserved kv.1 = true) : dataOnly (d.merge u) = dataOnly d := by
  refine Databag.ext_get? fun k => ?_
  rw [Databag.get?_dataOnly, Databag.get?_dataOnly]
  by_cases hk : isReserved k = true
  · rw [if_pos hk, if_pos hk]
  · -- the update holds no data key, so it leaves `k` alone
    have hnone : u.get? k = none :=
      (Databag.get?_eq_none_iff u k).2 fun kv hkv hkey => hk (hkey ▸ hu kv hkv)
    rw [if_neg hk, if_neg hk, Databag.get?_merge_of_none hnone]

/-- The text of a databag is never empty: it is at least `{}`. -/
theorem toText_isEmpty (d : Databag) : d.toText.isEmpty = false := by
  have hne : d.toText ≠ "" := fun h => by simpa [h] using Json.toText_toList d
  simpa [String.isEmpty_iff] using hne

namespace Host

variable {h : Host} {r : Relation}

theorem isSome_state?_of_isLive (hr : h.isLive r = true) : (h.state? r).isSome := by
  obtain ⟨st, hst, -⟩ := (isLive_iff h r).1 hr
  simp [hst]

/-- A write of reserved keys only, into any scope, leaves the data of every scope. -/
theorem dataOnly_bag_remoteUpdate_of_reserved (hr : (h.state? r).isSome)
    (s : Scope) {u : Databag} (hu : ∀ kv ∈ u.entries, isReserved kv.1 = true) (r' : Relation)
    (b : Scope) : dataOnly ((h.remoteUpdate r s u).bag r' b) = dataOnly (h.bag r' b) := by
  rw [bag_remoteUpdate hr]
  split
  · rename_i hrs
    obtain ⟨rfl, rfl⟩ := hrs
    exact dataOnly_merge_of_reserved _ hu
  · rfl

/-- A write that leaves out a key of `own`, or goes into another scope, leaves that key. -/
theorem get?_bag_remoteUpdate_of_none (hr : (h.state? r).isSome) {s own : Scope} {u : Databag}
    {k : String} (hu : s ≠ own ∨ u.get? k = none) :
    ((h.remoteUpdate r s u).bag r own).get? k = (h.bag r own).get? k := by
  rw [bag_remoteUpdate hr]
  split
  · rename_i hrs
    rcases hu with hne | hnone
    · exact absurd hrs.2 hne
    · rw [← hrs.2]
      exact Databag.get?_merge_of_none hnone _
  · rfl

end Host

/-! ## The snapshot -/

/-- The snapshot of `observed` kept in `own`'s scope of `r` reads back as `d`: it is absent and
`d` is empty, or it is the text of `d`. -/
def Baseline (h : Host) (r : Relation) (own observed : Scope) (d : Databag) : Prop :=
  ((h.bag r own).get? (cacheKey observed) = none ∧ d = .empty) ∨
    (h.bag r own).get? (cacheKey observed) = some d.toText

section Baseline

variable {h : Host} {r : Relation} {own observed : Scope} {d : Databag}

/-- A write that leaves the snapshot's key alone keeps the snapshot. -/
theorem Baseline.remoteUpdate (hb : Baseline h r own observed d) (hr : (h.state? r).isSome)
    {s : Scope} {u : Databag} (hu : s ≠ own ∨ u.get? (cacheKey observed) = none) :
    Baseline (h.remoteUpdate r s u) r own observed d := by
  unfold Baseline
  rw [Host.get?_bag_remoteUpdate_of_none hr hu]
  exact hb

/-- Writing the text of a databag under the snapshot's key makes it the snapshot. -/
theorem baseline_write (hr : (h.state? r).isSome) (own observed : Scope) (d : Databag) :
    Baseline (h.remoteUpdate r own (Databag.ofList [(cacheKey observed, d.toText)]))
      r own observed d := by
  have hu : (Databag.ofList [(cacheKey observed, d.toText)]).get? (cacheKey observed) =
      some d.toText := by
    simp
  have hne : d.toText ≠ "" := by simpa [String.isEmpty_iff] using toText_isEmpty d
  refine .inr ?_
  rw [Host.bag_remoteUpdate hr, if_pos ⟨rfl, rfl⟩, Databag.get?_merge_of_some hu, if_neg hne]

/-- A snapshot that is absent, or is the text of some databag, reads back as a databag. -/
theorem exists_baseline
    (hcache : (h.bag r own).get? (cacheKey observed) = none ∨
      ∃ d : Databag, (h.bag r own).get? (cacheKey observed) = some d.toText) :
    ∃ d, Baseline h r own observed d := by
  rcases hcache with hnone | ⟨d, hk⟩
  · exact ⟨.empty, .inl ⟨hnone, rfl⟩⟩
  · exact ⟨d, .inr hk⟩

/-- The snapshot is read back, and reading it changes nothing. -/
theorem run_cached_of_baseline (hr : h.isLive r = true) (hb : Baseline h r own observed d) :
    (HostM.cached r own observed).run.run h = (.ok d, h) := by
  rw [HostM.cached, run_bind_ok (HostM.run_read_of_isLive hr own)]
  rcases hb with ⟨hk, rfl⟩ | hk
  · simp [hk]
  · -- the text is not empty, and it reads back as the pairs it was written from
    simp [hk, toText_isEmpty, Json.readStringMap_toText d, Databag.ofList_entries d]

end Baseline

/-! ## One diff -/

section Diff

variable {h : Host} {r : Relation}

/-- A diff compares the snapshot with the data of the observed scope, and writes the data as
the new snapshot into the unit's own scope when they differ. -/
theorem run_diff (hr : h.isLive r = true) (own observed : Scope) {old : Databag}
    (hold : (HostM.cached r own observed).run.run h = (.ok old, h)) :
    (HostM.diff r own observed).run.run h =
      (.ok (Transaction.between old (dataOnly (h.bag r observed))),
        if Transaction.between old (dataOnly (h.bag r observed)) = .empty then h
        else h.remoteUpdate r h.ownUnit
          (Databag.ofList [(cacheKey observed, (dataOnly (h.bag r observed)).toText)])) := by
  rw [HostM.diff, run_bind_ok (HostM.run_read_of_isLive hr observed)]
  simp only []
  rw [run_bind_ok hold]
  by_cases ht : Transaction.between old (dataOnly (h.bag r observed)) = .empty
  · have hempty := (Transaction.isEmpty_iff _).2 ht
    rw [if_neg (by simp [hempty]), if_pos ht]
    rfl
  · have hempty : (Transaction.between old (dataOnly (h.bag r observed))).isEmpty = false :=
      Bool.eq_false_iff.2 fun he => ht ((Transaction.isEmpty_iff _).1 he)
    rw [if_pos (by simp [hempty]), if_neg ht,
      run_bind_ok (by rw [HostM.run_updateUnit, if_pos hr])]
    rfl

/-- When the snapshot already is the data, a diff finds nothing and writes nothing. -/
theorem run_diff_of_baseline_eq (hr : h.isLive r = true)
    {own observed : Scope} {d : Databag} (hb : Baseline h r own observed d)
    (hd : dataOnly (h.bag r observed) = d) :
    (HostM.diff r own observed).run.run h = (.ok .empty, h) := by
  subst hd
  have hnil : Transaction.between (dataOnly (h.bag r observed)) (dataOnly (h.bag r observed)) =
      .empty := (Transaction.between_exact _ _).eq_empty_iff.2 rfl
  rw [run_diff hr own observed (run_cached_of_baseline hr hb), hnil, if_pos rfl]

/-- What one diff leaves behind, from a snapshot `old` of the unit's own scope: it reports the
transaction between `old` and the data `new`, and leaves a well-formed host, the relation
live, the data unchanged and `new` as the snapshot. -/
theorem diff_step (hh : h.WellFormed) (hr : h.isLive r = true) (b : Scope) {old : Databag}
    (hb : Baseline h r h.ownUnit b old) :
    let new := dataOnly (h.bag r b)
    let h' := if Transaction.between old new = .empty then h
      else h.remoteUpdate r h.ownUnit (Databag.ofList [(cacheKey b, new.toText)])
    (HostM.diff r h.ownUnit b).run.run h = (.ok (Transaction.between old new), h') ∧
      h'.WellFormed ∧ h'.isLive r = true ∧ h'.ownUnit = h.ownUnit ∧
      dataOnly (h'.bag r b) = new ∧ Baseline h' r h.ownUnit b new := by
  intro new h'
  have hsome := Host.isSome_state?_of_isLive hr
  refine ⟨run_diff hr _ b (run_cached_of_baseline hr hb), ?_⟩
  by_cases ht : Transaction.between old new = .empty
  · -- nothing changed: the host stays, and the old snapshot already is the data
    have hold : old = new := (Transaction.between_exact old new).eq_empty_iff.1 ht
    rw [show h' = h from if_pos ht]
    exact ⟨hh, hr, rfl, rfl, hold ▸ hb⟩
  · -- the new snapshot goes under a reserved key of the unit's own scope
    rw [show h' = h.remoteUpdate r h.ownUnit (Databag.ofList [(cacheKey b, new.toText)]) from
      if_neg ht]
    have hu : ∀ kv ∈ (Databag.ofList [(cacheKey b, new.toText)]).entries,
        isReserved kv.1 = true := by
      simp [isReserved_cacheKey]
    exact ⟨hh.remoteUpdate r h.ownUnit _, by rw [Host.isLive_remoteUpdate, hr],
      Host.ownUnit_remoteUpdate .., Host.dataOnly_bag_remoteUpdate_of_reserved hsome _ hu r b,
      baseline_write hsome _ b new⟩

end Diff

/-! ## Diffs on reachable hosts -/

/-- On a reachable host, with a live relation `r` and a snapshot of `b` in the unit's own scope
that is absent or was written by a diff, a diff of `b` succeeds and:

* reports exactly the keys added, changed and deleted between the snapshot `old` and the data
  `new` of `b` (reserved keys left out), in three disjoint lists;
* changes the host only by writing `new` as the snapshot, and only when something changed;
* leaves `new` as the snapshot, so that a second diff finds nothing, and neither does a diff
  after writes into `b` of reserved keys only (that leave the snapshot alone);
* reports what, merged into `old` the way a scope is written, gives `new`. -/
theorem diff_exact_and_advances {h : Host} (hh : h.Reachable) {r : Relation}
    (hr : h.isLive r = true) (b : Scope)
    (hcache : (h.bag r h.ownUnit).get? (cacheKey b) = none ∨
      ∃ d : Databag, (h.bag r h.ownUnit).get? (cacheKey b) = some d.toText) :
    ∃ old t h',
      (HostM.cached r h.ownUnit b).run.run h = (.ok old, h) ∧
      (HostM.diff r h.ownUnit b).run.run h = (.ok t, h') ∧
      t.Exact old (dataOnly (h.bag r b)) ∧
      (t.added.Disjoint t.changed ∧ t.added.Disjoint t.deleted ∧
        t.changed.Disjoint t.deleted) ∧
      h' = (if t = .empty then h else
        h.remoteUpdate r h.ownUnit (Databag.ofList [(cacheKey b, (dataOnly (h.bag r b)).toText)])) ∧
      (HostM.cached r h.ownUnit b).run.run h' = (.ok (dataOnly (h.bag r b)), h') ∧
      (HostM.diff r h.ownUnit b).run.run h' = (.ok .empty, h') ∧
      (∀ u : Databag, (∀ kv ∈ u.entries, isReserved kv.1 = true) →
        (b ≠ h.ownUnit ∨ u.get? (cacheKey b) = none) →
        (HostM.diff r h.ownUnit b).run.run (h'.remoteUpdate r b u) =
          (.ok .empty, h'.remoteUpdate r b u)) ∧
      old.merge (t.patch (dataOnly (h.bag r b))) = dataOnly (h.bag r b) := by
  have hwf := hh.wellFormed
  obtain ⟨old, hb⟩ := exists_baseline hcache
  obtain ⟨hrun, -, hr', -, hdata, hb'⟩ := diff_step hwf hr b hb
  have hexact := Transaction.between_exact old (dataOnly (h.bag r b))
  refine ⟨old, _, _, run_cached_of_baseline hr hb, hrun, hexact, hexact.disjoint, rfl, ?_, ?_, ?_,
    hexact.merge_patch (hwf.bag r b).dataOnly⟩
  · exact run_cached_of_baseline hr' hb'
  · -- the snapshot now is the data
    exact run_diff_of_baseline_eq hr' hb' hdata
  · intro u hu hkeep
    have hsome := Host.isSome_state?_of_isLive hr'
    -- the write leaves the snapshot, and the data of `b`
    exact run_diff_of_baseline_eq (by rw [Host.isLive_remoteUpdate, hr'])
      (hb'.remoteUpdate hsome hkeep)
      (by rw [Host.dataOnly_bag_remoteUpdate_of_reserved hsome b hu r b, hdata])

/-- A unit whose peer has written one key into a fresh relation, with no snapshot yet. -/
theorem diff_exact_and_advances_fresh_relation :
    let r : Relation := ⟨"share", 0⟩
    let b : Scope := .unit "fs/0"
    let h := (HostOp.remoteUpdate r b (Databag.ofList [("path", "/srv")])).apply
      ((HostOp.addRelation "share" "fs").apply (Host.new "db" "db/0"))
    h.Reachable ∧ h.isLive r = true ∧
    ((h.bag r h.ownUnit).get? (cacheKey b) = none ∨
      ∃ d : Databag, (h.bag r h.ownUnit).get? (cacheKey b) = some d.toText) ∧
    ∃ old t h',
      (HostM.cached r h.ownUnit b).run.run h = (.ok old, h) ∧
      (HostM.diff r h.ownUnit b).run.run h = (.ok t, h') ∧
      t.Exact old (dataOnly (h.bag r b)) ∧
      (t.added.Disjoint t.changed ∧ t.added.Disjoint t.deleted ∧
        t.changed.Disjoint t.deleted) ∧
      h' = (if t = .empty then h else
        h.remoteUpdate r h.ownUnit (Databag.ofList [(cacheKey b, (dataOnly (h.bag r b)).toText)])) ∧
      (HostM.cached r h.ownUnit b).run.run h' = (.ok (dataOnly (h.bag r b)), h') ∧
      (HostM.diff r h.ownUnit b).run.run h' = (.ok .empty, h') ∧
      (∀ u : Databag, (∀ kv ∈ u.entries, isReserved kv.1 = true) →
        (b ≠ h.ownUnit ∨ u.get? (cacheKey b) = none) →
        (HostM.diff r h.ownUnit b).run.run (h'.remoteUpdate r b u) =
          (.ok .empty, h'.remoteUpdate r b u)) ∧
      old.merge (t.patch (dataOnly (h.bag r b))) = dataOnly (h.bag r b) := by
  intro r b h
  have hh : h.Reachable := .step _ (.step _ (.new "db" "db/0"))
  have hr : h.isLive r = true := by decide
  have hc : (h.bag r h.ownUnit).get? (cacheKey b) = none := by decide
  exact ⟨hh, hr, .inl hc, diff_exact_and_advances hh hr b (.inl hc)⟩

/-! ## The last observation -/

/-- `h'` is `h`, or `h` with reserved keys written into the unit's own scope of `r`: all that a
diff may do to the host. -/
def Host.SnapshotMoved (h h' : Host) (r : Relation) : Prop :=
  h' = h ∨ ∃ u : Databag, (∀ kv ∈ u.entries, isReserved kv.1 = true) ∧
    h' = h.remoteUpdate r h.ownUnit u

theorem Host.remoteApp_remoteUpdate (h : Host) (r : Relation) (s : Scope) (u : Databag)
    (r' : Relation) :
    ((h.remoteUpdate r s u).state? r').map (·.remoteApp) = (h.state? r').map (·.remoteApp) := by
  rw [Host.remoteUpdate, Host.state?_modifyRelation]
  split
  · rename_i hr
    subst hr
    rw [Option.map_map]
    rfl
  · rfl

section SnapshotMoved

variable {h h' : Host} {r : Relation}

theorem Host.SnapshotMoved.ownUnit (hm : h.SnapshotMoved h' r) : h'.ownUnit = h.ownUnit := by
  rcases hm with rfl | ⟨u, -, rfl⟩
  · rfl
  · exact Host.ownUnit_remoteUpdate ..

/-- Every scope but the unit's own stays as it was. -/
theorem Host.SnapshotMoved.bag_of_ne (hm : h.SnapshotMoved h' r) (hr : (h.state? r).isSome)
    {s : Scope} (hs : s ≠ h.ownUnit) (r' : Relation) : h'.bag r' s = h.bag r' s := by
  rcases hm with rfl | ⟨u, -, rfl⟩
  · rfl
  · rw [Host.bag_remoteUpdate hr, if_neg fun h => hs h.2.symm]

/-- Every application's scope stays as it was. -/
theorem Host.SnapshotMoved.bag_app (hm : h.SnapshotMoved h' r) (hr : (h.state? r).isSome)
    (r' : Relation) (a : String) : h'.bag r' (.app a) = h.bag r' (.app a) :=
  hm.bag_of_ne hr (by simp [Host.ownUnit]) r'

/-- The data of every scope stays as it was. -/
theorem Host.SnapshotMoved.dataOnly_bag (hm : h.SnapshotMoved h' r)
    (hr : (h.state? r).isSome) (r' : Relation) (s : Scope) :
    dataOnly (h'.bag r' s) = dataOnly (h.bag r' s) := by
  rcases hm with rfl | ⟨u, hu, rfl⟩
  · rfl
  · exact dataOnly_bag_remoteUpdate_of_reserved hr _ hu r' s

theorem Host.SnapshotMoved.isLive (hm : h.SnapshotMoved h' r) (r' : Relation) :
    h'.isLive r' = h.isLive r' := by
  rcases hm with rfl | ⟨u, -, rfl⟩
  · rfl
  · exact Host.isLive_remoteUpdate ..

theorem Host.SnapshotMoved.wellFormed (hm : h.SnapshotMoved h' r) (hh : h.WellFormed) :
    h'.WellFormed := by
  rcases hm with rfl | ⟨u, -, rfl⟩
  · exact hh
  · exact hh.remoteUpdate _ _ _

theorem Host.SnapshotMoved.remoteApp (hm : h.SnapshotMoved h' r) (r' : Relation) :
    (h'.state? r').map (·.remoteApp) = (h.state? r').map (·.remoteApp) := by
  rcases hm with rfl | ⟨u, -, rfl⟩
  · rfl
  · exact Host.remoteApp_remoteUpdate ..

end SnapshotMoved

/-- The unit observes the scope `b` of the live relation `r` of a well-formed host, and reads
the snapshot kept of it back as `old`: what `b` held at the last observation. -/
structure Observing (h : Host) (r : Relation) (b : Scope) (old : Databag) : Prop where
  wellFormed : h.WellFormed
  live : h.isLive r = true
  snapshot : (HostM.cached r h.ownUnit b).run.run h = (.ok old, h)

section Observing

variable {h : Host} {r : Relation} {b : Scope} {old : Databag}

theorem Observing.of_baseline (hh : h.WellFormed) (hr : h.isLive r = true)
    (hb : Baseline h r h.ownUnit b old) : Observing h r b old :=
  ⟨hh, hr, run_cached_of_baseline hr hb⟩

/-- What the unit reads back depends only on its own scope of the relation. -/
theorem Observing.congr {h' : Host} (ho : Observing h r b old) (hh : h'.WellFormed)
    (hr : h'.isLive r = true) (hown : h'.ownUnit = h.ownUnit)
    (hbag : h'.bag r h.ownUnit = h.bag r h.ownUnit) : Observing h' r b old := by
  refine ⟨hh, hr, ?_⟩
  have hs := ho.snapshot
  rw [HostM.cached, run_bind_ok (HostM.run_read_of_isLive ho.live _)] at hs
  rw [hown, HostM.cached, run_bind_ok (HostM.run_read_of_isLive hr _), hbag]
  -- past the read, only the scope's contents decide, and nothing is written
  revert hs
  generalize (h.bag r h.ownUnit).get? (cacheKey b) = text
  rcases text with _ | text
  · intro hs
    cases hs
    rfl
  · by_cases he : text.isEmpty = true
    · simp only [he, ↓reduceIte]
      intro hs
      cases hs
      rfl
    · simp only [he, Bool.false_eq_true, ↓reduceIte]
      cases Json.readStringMap text with
      | error e => intro hs; cases hs
      | ok kvs => intro hs; cases hs; rfl

/-- A diff reports what changed since the last observation and moves the snapshot on: afterwards
the unit observes the data it saw. It writes the snapshot only, if anything. -/
theorem Observing.diff (ho : Observing h r b old) :
    ∃ h', (HostM.diff r h.ownUnit b).run.run h =
        (.ok (Transaction.between old (dataOnly (h.bag r b))), h') ∧
      Observing h' r b (dataOnly (h.bag r b)) ∧ h.SnapshotMoved h' r := by
  refine ⟨_, run_diff ho.live h.ownUnit b ho.snapshot, ?_⟩
  split
  · -- nothing changed: the snapshot already is the data
    rename_i ht
    have heq : old = dataOnly (h.bag r b) := (Transaction.between_exact _ _).eq_empty_iff.1 ht
    exact ⟨heq ▸ ho, .inl rfl⟩
  · have hsome := Host.isSome_state?_of_isLive ho.live
    have hu : ∀ kv ∈ (Databag.ofList [(cacheKey b, (dataOnly (h.bag r b)).toText)]).entries,
        isReserved kv.1 = true := by
      simp [isReserved_cacheKey]
    refine ⟨.of_baseline (ho.wellFormed.remoteUpdate _ _ _)
      (by rw [Host.isLive_remoteUpdate, ho.live]) ?_, .inr ⟨_, hu, rfl⟩⟩
    rw [Host.ownUnit_remoteUpdate]
    exact baseline_write hsome _ b _

/-- A write into another scope than the unit's own keeps the snapshot. -/
theorem Observing.remoteUpdate (ho : Observing h r b old) {s : Scope} (hs : s ≠ h.ownUnit)
    (u : Databag) : Observing (h.remoteUpdate r s u) r b old := by
  refine ho.congr (ho.wellFormed.remoteUpdate r s u) (by rw [Host.isLive_remoteUpdate, ho.live])
    (Host.ownUnit_remoteUpdate ..) ?_
  rw [Host.bag_remoteUpdate (Host.isSome_state?_of_isLive ho.live), if_neg fun h => hs h.2]

/-- Writes into another scope than the unit's own keep the snapshot, however many. -/
theorem Observing.foldl_remoteUpdate (ho : Observing h r b old) {s : Scope}
    (hs : s ≠ h.ownUnit) (writes : List Databag) :
    Observing (writes.foldl (fun g u => g.remoteUpdate r s u) h) r b old := by
  induction writes generalizing h with
  | nil => exact ho
  | cons u rest ih =>
    exact ih (ho.remoteUpdate hs u) (by rw [Host.ownUnit_remoteUpdate]; exact hs)

end Observing

/-- Writes into a scope of a live relation, each leaving out the key `k`, leave `k`'s value
there. -/
theorem Host.get?_foldl_remoteUpdate {h : Host} {r : Relation} (hr : h.isLive r = true)
    (s : Scope) {k : String} (writes : List Databag) (hk : ∀ u ∈ writes, u.get? k = none) :
    ((writes.foldl (fun g u => g.remoteUpdate r s u) h).bag r s).get? k = (h.bag r s).get? k := by
  induction writes generalizing h with
  | nil => rfl
  | cons u rest ih =>
    rw [List.foldl_cons, ih (by rw [Host.isLive_remoteUpdate, hr])
        fun u' hu' => hk u' (List.mem_cons_of_mem u hu'),
      Host.bag_remoteUpdate (Host.isSome_state?_of_isLive hr), if_pos ⟨rfl, rfl⟩,
      Databag.get?_merge_of_none (hk u (List.mem_cons_self ..))]

end ShareBroker
