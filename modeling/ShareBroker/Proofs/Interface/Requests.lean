import ShareBroker.Proofs.Host.Topology
import ShareBroker.Proofs.Interface.FailedWrites

/-!
# Requests that never conflict

A workload asks for one mountpoint over all the relations of its mount endpoint, and a CephFS
client asks for a share over a single relation. Each interface checks its request against the
other live relations of the endpoint before writing it into the application's scope:

* `MountRequires.setMountInfo r info` refuses when another live relation already requests a
  different mountpoint, both compared as the JSON text of the field;
* `ShareRequires.requestShare r name` refuses when any live relation is not `r`.

`MountRequires.run_setMountInfo` and `ShareRequires.run_requestShare` give their runs: the
check only reads, and the write is `HostM.updateApp`, which needs the leader and a live
relation. So each call succeeds exactly when the request is admissible
(`MountRequires.Accepts`, `ShareRequires.Accepts`), and a refused call changes nothing.

When only these calls write the requests, the check at each write is enough to keep the
requests consistent however writes interleave with relations created and broken and with
leadership changes (`Host.ReachableBy`):

* `MountRequires.requested_mountpoints_agree`: all live relations of the endpoint request the
  same mountpoint;
* `ShareRequires.single_share_request`: at most one live relation of the endpoint asks for a
  share.
-/

namespace ShareBroker

/-- A string's JSON text is never empty: it has its quotes. -/
theorem Json.write_str_ne_empty (s : String) : (Json.str s).write ≠ "" := by
  intro h
  have := congrArg String.toList h
  simp [Json.write, Json.quote] at this

namespace MountRequires

variable {side : MountRequires} {h : Host} {r : Relation} {info : MountInfo}

/-! ## Publishing a mount request -/

/-- A mount request is saved one field per key; its mountpoint is the JSON text of the path. -/
theorem exists_save_toJson (info : MountInfo) :
    ∃ d, Record.save info.toJson = .ok d ∧
      d.get? mountpointKey = some (Json.str info.mountpoint).write := by
  refine ⟨_, rfl, ?_⟩
  rw [Databag.get?_ofList_of_nodup (by simp)]
  simp [Databag.lookupIn, mountpointKey]

/-- Why the live relation `o` stops a request for the mountpoint `wanted` on `r`: it is
another relation, whose application scope requests a different mountpoint. -/
def refusal (side : MountRequires) (h : Host) (r : Relation) (wanted : String) (o : Relation) :
    Option Error :=
  if o != r then
    ((h.bag o h.ownApp).get? mountpointKey).bind fun mp =>
      if mp != wanted then
        some (.relationConflict side.endpoint
          ("`" ++ o.toString ++ "` already requests mountpoint " ++ mp))
      else none
  else none

/-- Publishing reads the other live relations' requests, stops at the first that differs and
otherwise writes the saved request into `r`. -/
theorem run_setMountInfo (hs : h.Sorted) {d : Databag} (hd : Record.save info.toJson = .ok d)
    (t : LeadershipToken) :
    (side.setMountInfo t r info).run.run h =
      ((h.liveOn side.endpoint).findSome?
          (side.refusal h r ((d.get? mountpointKey).getD ""))).elim
        ((HostM.updateApp r d t).run.run h) fun e => (.error e, h) := by
  unfold setMountInfo
  rw [hd, run_bind_ok (HostM.run_ofOutcome_ok d h), run_bind_ok (HostM.run_ownApp h),
    run_bind_ok (HostM.run_relationsOn _ h),
    run_forIn_checks_bind (side.refusal h r ((d.get? mountpointKey).getD ""))]
  -- one pass: the other relation is live, so reading its scope succeeds
  intro o ho
  have hlive : h.isLive o = true := ((hs.mem_liveOn _ o).1 ho).1
  by_cases hne : (o != r) = true
  · simp only [hne, ↓reduceIte, refusal]
    rw [run_bind_ok (HostM.run_read_of_isLive hlive _)]
    cases (h.bag o h.ownApp).get? mountpointKey with
    | none => rfl
    | some mp =>
      by_cases hmp : (mp != (d.get? mountpointKey).getD "") = true
      · simp only [hmp, ↓reduceIte, Option.bind_some]
        rfl
      · simp only [hmp, Bool.false_eq_true, ↓reduceIte, Option.bind_some]
        rfl
  · simp only [hne, Bool.false_eq_true, ↓reduceIte, refusal]
    rfl

/-- A request for `info` on `r` can be written: the unit leads, `r` is live, and every other
live relation of the endpoint requests no mountpoint or the same one, compared as JSON text. -/
structure Accepts (side : MountRequires) (h : Host) (r : Relation) (info : MountInfo) : Prop where
  leader : h.leader = true
  live : h.isLive r = true
  agrees : ∀ o, h.isLive o = true → o.endpoint = side.endpoint → o ≠ r →
    (h.bag o h.ownApp).get? mountpointKey = none ∨
      (h.bag o h.ownApp).get? mountpointKey = some (Json.str info.mountpoint).write

/-- No live relation stops the request exactly when every other one agrees with it. -/
theorem findSome?_refusal_eq_none_iff (hs : h.Sorted) (wanted : String) :
    (h.liveOn side.endpoint).findSome? (side.refusal h r wanted) = none ↔
      ∀ o, h.isLive o = true → o.endpoint = side.endpoint → o ≠ r →
        (h.bag o h.ownApp).get? mountpointKey = none ∨
          (h.bag o h.ownApp).get? mountpointKey = some wanted := by
  rw [List.findSome?_eq_none_iff]
  refine forall_congr' fun o => ?_
  rw [hs.mem_liveOn, and_imp]
  refine imp_congr_right fun _ => imp_congr_right fun _ => ?_
  by_cases ho : o = r
  · simp [refusal, ho]
  · have hne : (o != r) = true := bne_iff_ne.2 ho
    simp only [refusal, hne, ↓reduceIte, ne_eq, ho, not_false_eq_true, forall_const]
    cases (h.bag o h.ownApp).get? mountpointKey with
    | none => simp
    | some mp => by_cases hmp : mp = wanted <;> simp [hmp]

/-- Publishing succeeds exactly when the request is admissible. -/
theorem setMountInfo_ok_iff (hs : h.Sorted) (t : LeadershipToken) :
    ((side.setMountInfo t r info).run.run h).1 = .ok () ↔ side.Accepts h r info := by
  obtain ⟨d, hd, hmp⟩ := exists_save_toJson info
  rw [run_setMountInfo hs hd t]
  have hagree := @findSome?_refusal_eq_none_iff side h r hs ((d.get? mountpointKey).getD "")
  rw [hmp, Option.getD_some] at hagree
  -- a refusal from another relation is an error; with none, the leader writes a live relation
  cases hfind : (h.liveOn side.endpoint).findSome?
      (side.refusal h r ((d.get? mountpointKey).getD "")) with
  | some e =>
    rw [hmp, Option.getD_some] at hfind
    rw [hfind] at hagree
    simp only [Option.elim_some, reduceCtorEq, false_iff]
    exact fun ha => absurd (hagree.2 ha.agrees) (by simp)
  | none =>
    rw [hmp, Option.getD_some] at hfind
    have hall := hagree.1 hfind
    simp only [Option.elim_none, HostM.run_updateApp]
    constructor
    · intro hok
      split at hok
      · split at hok
        · exact ⟨‹_›, ‹_›, hall⟩
        · cases hok
      · cases hok
    · intro ha
      rw [if_pos ha.leader, if_pos ha.live]

/-- An admissible request is written into the application's scope of `r`. -/
theorem run_setMountInfo_of_accepts (hs : h.Sorted) {d : Databag}
    (hd : Record.save info.toJson = .ok d)
    (ha : side.Accepts h r info) (t : LeadershipToken) :
    (side.setMountInfo t r info).run.run h = (.ok (), h.remoteUpdate r h.ownApp d) := by
  obtain ⟨d', hd', hmp⟩ := exists_save_toJson info
  obtain rfl : d = d' := Except.ok.inj (hd.symm.trans hd')
  have hfind : (h.liveOn side.endpoint).findSome?
      (side.refusal h r ((d.get? mountpointKey).getD "")) = none := by
    rw [findSome?_refusal_eq_none_iff hs, hmp, Option.getD_some]
    exact ha.agrees
  rw [run_setMountInfo hs hd t, hfind, Option.elim_none, HostM.run_updateApp, if_pos ha.leader,
    if_pos ha.live]

/-- After an admitted request, `r` requests its mountpoint and every other relation keeps its
own request. -/
theorem get?_setMountInfo_of_accepted (hs : h.Sorted) (t : LeadershipToken)
    (ha : side.Accepts h r info) (o : Relation) :
    let h' := ((side.setMountInfo t r info).run.run h).2
    (h'.bag o h'.ownApp).get? mountpointKey =
      if o = r then some (Json.str info.mountpoint).write
      else (h.bag o h.ownApp).get? mountpointKey := by
  obtain ⟨d, hd, hmp⟩ := exists_save_toJson info
  simp only [run_setMountInfo_of_accepts hs hd ha t, Host.ownApp_remoteUpdate]
  rw [Host.bag_remoteUpdate (Host.isSome_state?_of_isLive ha.live)]
  by_cases ho : o = r
  · subst ho
    rw [if_pos ⟨rfl, rfl⟩, if_pos rfl, Databag.get?_merge_of_some hmp,
      if_neg (Json.write_str_ne_empty _)]
  · rw [if_neg fun he => ho he.1.symm, if_neg ho]

/-- Publishing leaves either the host as it was or the host after one write of the
application's scope. -/
theorem setMountInfo_reachable (hh : h.Reachable) (t : LeadershipToken) :
    ((side.setMountInfo t r info).run.run h).2.Reachable := by
  obtain ⟨d, hd, -⟩ := exists_save_toJson info
  rw [run_setMountInfo hh.sorted hd t]
  cases (h.liveOn side.endpoint).findSome? (side.refusal h r ((d.get? mountpointKey).getD "")) with
  | none => exact .step (.updateApp r d) hh
  | some e => exact hh

/-! ## Every relation requests the same mountpoint -/

/-- Two scopes request the same mountpoint, when both request one. -/
def SameMountpoint (p q : Relation × Databag) : Prop :=
  ∀ v₁ v₂, p.2.get? mountpointKey = some v₁ → q.2.get? mountpointKey = some v₂ → v₁ = v₂

/-- A host changes by one call of `setMountInfo` on this side, with any relation and request. -/
def Publishes (side : MountRequires) (h h' : Host) : Prop :=
  ∃ t r info, h' = ((side.setMountInfo t r info).run.run h).2

/-- One call keeps the requests agreeing: it writes only when every other live relation
requests nothing or the same mountpoint. -/
theorem pairwise_setMountInfo (hs : h.Sorted)
    (hp : h.LiveAppsPairwise side.endpoint SameMountpoint) (t : LeadershipToken) (r : Relation)
    (info : MountInfo) :
    ((side.setMountInfo t r info).run.run h).2.LiveAppsPairwise side.endpoint SameMountpoint := by
  by_cases ha : side.Accepts h r info
  · -- the write is the one change, and `r` now requests what the others agree with
    have hget := get?_setMountInfo_of_accepted hs t ha
    -- the write goes through `updateApp`, which changes no relation's liveness
    have hlive : ∀ o, ((side.setMountInfo t r info).run.run h).2.isLive o = h.isLive o := by
      obtain ⟨d, hd, -⟩ := exists_save_toJson info
      simp only [run_setMountInfo_of_accepts hs hd ha t, Host.isLive_remoteUpdate, implies_true]
    intro r₁ r₂ hr₁ he₁ hr₂ he₂ v₁ v₂ h₁ h₂
    rw [hlive] at hr₁ hr₂
    simp only at h₁ h₂
    rw [hget] at h₁ h₂
    -- every live relation of the endpoint now requests the new mountpoint, or none: `r` by the
    -- write, the others as `Accepts` found them
    have hall : ∀ o v, h.isLive o = true → o.endpoint = side.endpoint →
        (if o = r then some (Json.str info.mountpoint).write
          else (h.bag o h.ownApp).get? mountpointKey) = some v →
        v = (Json.str info.mountpoint).write := by
      intro o v ho he hv
      by_cases hor : o = r
      · rw [if_pos hor] at hv
        exact (Option.some.inj hv).symm
      · rw [if_neg hor] at hv
        rcases ha.agrees o ho he hor with hnone | hsame
        · rw [hnone] at hv
          cases hv
        · rw [hsame] at hv
          exact (Option.some.inj hv).symm
    exact (hall r₁ v₁ hr₁ he₁ h₁).trans (hall r₂ v₂ hr₂ he₂ h₂).symm
  · -- a refused call writes nothing
    have hfail : ((side.setMountInfo t r info).run.run h).1 ≠ .ok () :=
      fun hok => ha ((setMountInfo_ok_iff hs t).1 hok)
    rcases hrun : (side.setMountInfo t r info).run.run h with ⟨e | u, h'⟩
    · rw [setMountInfo_failsCleanly side t r info h e h' hrun]
      exact hp
    · rw [hrun] at hfail
      exact absurd rfl hfail

/-- Requested mountpoints never conflict. On every host that a new unit reaches while only
`setMountInfo` writes the requests, interleaved with relations created and broken and with
leadership changes, all live relations of the endpoint that request a mountpoint request the
same one. There, a call succeeds exactly when the request is admissible (`Accepts`), and a
call that fails changes nothing. -/
theorem requested_mountpoints_agree (side : MountRequires) {h : Host}
    (hh : h.ReachableBy side.Publishes) :
    (∀ r₁ r₂ v₁ v₂, h.isLive r₁ = true → r₁.endpoint = side.endpoint → h.isLive r₂ = true →
      r₂.endpoint = side.endpoint → (h.bag r₁ h.ownApp).get? mountpointKey = some v₁ →
        (h.bag r₂ h.ownApp).get? mountpointKey = some v₂ → v₁ = v₂) ∧
    ∀ (t : LeadershipToken) (r : Relation) (info : MountInfo),
      (((side.setMountInfo t r info).run.run h).1 = .ok () ↔ side.Accepts h r info) ∧
      ∀ e, ((side.setMountInfo t r info).run.run h).1 = .error e →
        ((side.setMountInfo t r info).run.run h).2 = h := by
  have hreach : ∀ g g', g.Reachable → side.Publishes g g' → g'.Reachable := by
    rintro g g' hg ⟨t, r, info, rfl⟩
    exact setMountInfo_reachable hg t
  have hpair : h.LiveAppsPairwise side.endpoint SameMountpoint := by
    refine hh.pairwise ?_ hreach ?_
    · rintro ⟨r₁, d₁⟩ ⟨r₂, d₂⟩ (rfl | rfl) v₁ v₂ h₁ h₂
      · cases h₁
      · cases h₂
    · rintro g g' hg hp ⟨t, r, info, rfl⟩
      exact pairwise_setMountInfo hg.sorted hp t r info
  have hs := (hh.reachable hreach).sorted
  refine ⟨fun r₁ r₂ v₁ v₂ hr₁ he₁ hr₂ he₂ => hpair r₁ r₂ hr₁ he₁ hr₂ he₂ v₁ v₂,
    fun t r info => ⟨setMountInfo_ok_iff hs t, fun e hfail => ?_⟩⟩
  exact setMountInfo_failsCleanly side t r info h e _ (Prod.ext hfail rfl)

/-- A leader relates to two clients and asks both for `/data`, one after the other. -/
theorem requested_mountpoints_agree_two_clients :
    let side : MountRequires := ⟨"mount"⟩
    let info : MountInfo := { mountpoint := "/data" }
    let a := ((Host.new "workload" "workload/0").setLeader true).addRelation "mount" "client-a"
    let b := a.2.addRelation "mount" "client-b"
    let h := ((side.setMountInfo ⟨⟩ b.1 info).run.run
      ((side.setMountInfo ⟨⟩ a.1 info).run.run b.2).2).2
    h.ReachableBy side.Publishes ∧
    (∀ r₁ r₂ v₁ v₂, h.isLive r₁ = true → r₁.endpoint = side.endpoint → h.isLive r₂ = true →
      r₂.endpoint = side.endpoint → (h.bag r₁ h.ownApp).get? mountpointKey = some v₁ →
        (h.bag r₂ h.ownApp).get? mountpointKey = some v₂ → v₁ = v₂) ∧
    ∀ (t : LeadershipToken) (r : Relation) (info : MountInfo),
      (((side.setMountInfo t r info).run.run h).1 = .ok () ↔ side.Accepts h r info) ∧
      ∀ e, ((side.setMountInfo t r info).run.run h).1 = .error e →
        ((side.setMountInfo t r info).run.run h).2 = h := by
  intro side info a b h
  have hh : h.ReachableBy side.Publishes :=
    .step (.step (.step (.step (.step (.new _ _) (.setLeader _ true)) (.addRelation _ _ _))
      (.addRelation _ _ _)) (.write ⟨⟨⟩, a.1, info, rfl⟩)) (.write ⟨⟨⟩, b.1, info, rfl⟩)
  exact ⟨hh, requested_mountpoints_agree side hh⟩

end MountRequires

namespace ShareRequires

variable {side : ShareRequires} {h : Host} {r : Relation}

/-! ## Asking for a share -/

/-- Asking refuses when any live relation of the endpoint is another one, and otherwise writes
the name into `r`. -/
theorem run_requestShare (t : LeadershipToken) (name : String) (h : Host) :
    (side.requestShare t r name).run.run h =
      if (h.liveOn side.endpoint).any (· != r) then
        (.error (.relationConflict side.endpoint
          "Cannot request a share using more than one relation at the same time"), h)
      else (HostM.updateApp r (Databag.ofList [(shareNameKey, name)]) t).run.run h := by
  unfold requestShare
  rw [run_bind_ok (HostM.run_relationsOn _ h)]
  split <;> rfl

/-- A request for a share on `r` can be written: the unit leads, `r` is live, and it is the only
live relation of the endpoint. -/
structure Accepts (side : ShareRequires) (h : Host) (r : Relation) : Prop where
  leader : h.leader = true
  live : h.isLive r = true
  alone : ∀ o, h.isLive o = true → o.endpoint = side.endpoint → o = r

theorem any_ne_eq_false_iff (hs : h.Sorted) :
    (h.liveOn side.endpoint).any (· != r) = false ↔
      ∀ o, h.isLive o = true → o.endpoint = side.endpoint → o = r := by
  rw [List.any_eq_false]
  refine forall_congr' fun o => ?_
  rw [hs.mem_liveOn, and_imp]
  simp

/-- Asking succeeds exactly when the request is admissible. -/
theorem requestShare_ok_iff (hs : h.Sorted) (t : LeadershipToken) (name : String) :
    ((side.requestShare t r name).run.run h).1 = .ok () ↔ side.Accepts h r := by
  rw [run_requestShare]
  cases hany : (h.liveOn side.endpoint).any (· != r) with
  | true =>
    simp only [↓reduceIte, reduceCtorEq, false_iff]
    intro ha
    rw [(any_ne_eq_false_iff hs).2 ha.alone] at hany
    cases hany
  | false =>
    have halone := (any_ne_eq_false_iff hs).1 hany
    simp only [Bool.false_eq_true, ↓reduceIte, HostM.run_updateApp]
    constructor
    · intro hok
      split at hok
      · split at hok
        · exact ⟨‹_›, ‹_›, halone⟩
        · cases hok
      · cases hok
    · intro ha
      rw [if_pos ha.leader, if_pos ha.live]

/-- Asking leaves either the host as it was or the host after one write of the application's
scope. -/
theorem requestShare_reachable (hh : h.Reachable) (t : LeadershipToken) (name : String) :
    ((side.requestShare t r name).run.run h).2.Reachable := by
  rw [run_requestShare]
  split
  · exact hh
  · exact .step (.updateApp r _) hh

/-! ## At most one share is asked for -/

/-- Of two scopes, only one relation's asks for a share. -/
def OneAsker (p q : Relation × Databag) : Prop :=
  p.2.contains shareNameKey = true → q.2.contains shareNameKey = true → p.1 = q.1

/-- A host changes by one call of `requestShare` on this side, with any relation and name. -/
def Asks (side : ShareRequires) (h h' : Host) : Prop :=
  ∃ t r name, h' = ((side.requestShare t r name).run.run h).2

/-- One call keeps a single asker: it writes only when `r` is the one live relation. -/
theorem pairwise_requestShare (hs : h.Sorted)
    (hp : h.LiveAppsPairwise side.endpoint OneAsker) (t : LeadershipToken) (r : Relation)
    (name : String) :
    ((side.requestShare t r name).run.run h).2.LiveAppsPairwise side.endpoint OneAsker := by
  rw [run_requestShare]
  split
  · exact hp
  · rename_i hany
    have halone := (any_ne_eq_false_iff hs).1 (by simpa using hany)
    rw [HostM.run_updateApp]
    split
    · split
      · -- every live relation of the endpoint is `r`, before the write and after it
        intro r₁ r₂ hr₁ he₁ hr₂ he₂ _ _
        rw [Host.isLive_remoteUpdate] at hr₁ hr₂
        exact (halone r₁ hr₁ he₁).trans (halone r₂ hr₂ he₂).symm
      · exact hp
    · exact hp

/-- At most one share is requested at a time. On every host that a new unit reaches while only
`requestShare` writes the name, interleaved with relations created and broken and with
leadership changes, at most one live relation of the endpoint carries a `name` in the
application's scope. There, a call succeeds exactly when the request is admissible
(`Accepts`: the unit leads and `r` is the one live relation), and a call that fails changes
nothing. -/
theorem single_share_request (side : ShareRequires) {h : Host} (hh : h.ReachableBy side.Asks) :
    (∀ r₁ r₂, h.isLive r₁ = true → r₁.endpoint = side.endpoint → h.isLive r₂ = true →
      r₂.endpoint = side.endpoint → (h.bag r₁ h.ownApp).contains shareNameKey = true →
        (h.bag r₂ h.ownApp).contains shareNameKey = true → r₁ = r₂) ∧
    ∀ (t : LeadershipToken) (r : Relation) (name : String),
      (((side.requestShare t r name).run.run h).1 = .ok () ↔ side.Accepts h r) ∧
      ∀ e, ((side.requestShare t r name).run.run h).1 = .error e →
        ((side.requestShare t r name).run.run h).2 = h := by
  have hreach : ∀ g g', g.Reachable → side.Asks g g' → g'.Reachable := by
    rintro g g' hg ⟨t, r, name, rfl⟩
    exact requestShare_reachable hg t name
  have hpair : h.LiveAppsPairwise side.endpoint OneAsker := by
    refine hh.pairwise ?_ hreach ?_
    · rintro ⟨r₁, d₁⟩ ⟨r₂, d₂⟩ (rfl | rfl) h₁ h₂
      · cases h₁
      · cases h₂
    · rintro g g' hg hp ⟨t, r, name, rfl⟩
      exact pairwise_requestShare hg.sorted hp t r name
  have hs := (hh.reachable hreach).sorted
  refine ⟨hpair, fun t r name => ⟨requestShare_ok_iff hs t name, fun e hfail => ?_⟩⟩
  exact requestShare_failsCleanly side t r name h e _ (Prod.ext hfail rfl)

/-- A leader asks for a share over one relation; the relation breaks and a new one takes over
the request. -/
theorem single_share_request_after_takeover :
    let side : ShareRequires := ⟨"cephfs-share"⟩
    let a := ((Host.new "client" "client/0").setLeader true).addRelation "cephfs-share" "server-a"
    let g := (((side.requestShare ⟨⟩ a.1 "data").run.run a.2).2.breakRelation a.1).addRelation
      "cephfs-share" "server-b"
    let h := ((side.requestShare ⟨⟩ g.1 "data").run.run g.2).2
    h.ReachableBy side.Asks ∧
    (∀ r₁ r₂, h.isLive r₁ = true → r₁.endpoint = side.endpoint → h.isLive r₂ = true →
      r₂.endpoint = side.endpoint → (h.bag r₁ h.ownApp).contains shareNameKey = true →
        (h.bag r₂ h.ownApp).contains shareNameKey = true → r₁ = r₂) ∧
    ∀ (t : LeadershipToken) (r : Relation) (name : String),
      (((side.requestShare t r name).run.run h).1 = .ok () ↔ side.Accepts h r) ∧
      ∀ e, ((side.requestShare t r name).run.run h).1 = .error e →
        ((side.requestShare t r name).run.run h).2 = h := by
  intro side a g h
  have hask : (((side.requestShare ⟨⟩ a.1 "data").run.run a.2).2).ReachableBy side.Asks :=
    .step (.step (.step (.new _ _) (.setLeader _ true)) (.addRelation _ _ _))
      (.write ⟨⟨⟩, a.1, "data", rfl⟩)
  have hh : h.ReachableBy side.Asks :=
    .step (.step (.step hask (.breakRelation _ a.1)) (.addRelation _ _ _))
      (.write ⟨⟨⟩, g.1, "data", rfl⟩)
  exact ⟨hh, single_share_request side hh⟩

end ShareRequires

end ShareBroker
