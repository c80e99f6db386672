import ShareBroker.Proofs.Charm.ClientOutcomes
import ShareBroker.Proofs.Charm.Dispatch

/-!
# The filesystem client settles in one pass

Dispatching `updateStatus` with nothing queued is one pass of converging. A pass writes the
unit's and the application's status, the `mounted` flags, the packages and the map. None of
them feeds back into what a pass reads:
- the flags go into the unit's own scopes, which no read looks at (`Report.readsAlike_apply`);
- the statuses are overwritten before they are shown;
- a machine once prepared stays installed;
- a map once applied is left alone by an unforced pass.

So the plan of a second pass, from what the first left, is the plan of the first
(`FilesystemClient.plan_again`). Writing the same report again changes no scope, because
merging a flag already merged changes nothing.

## Key results

- `FilesystemClient.plan_again`: a successful plan replays to itself.
- `FilesystemClient.run_updateStatus`: with nothing queued, the dispatch is a pass.
- `FilesystemClient.update_status_settles`: after a successful `updateStatus`, a second one
  succeeds, makes no call on the machine and changes no scope, status or queue.
-/

namespace ShareBroker

/-- Merging an update a second time changes nothing. -/
theorem Databag.merge_merge_self (d u : Databag) : (d.merge u).merge u = d.merge u := by
  refine Databag.ext_get? fun k => ?_
  cases hk : u.get? k with
  | none => rw [Databag.get?_merge_of_none hk]
  | some v => rw [Databag.get?_merge_of_some hk, Databag.get?_merge_of_some hk]

namespace FilesystemClient

/-! ## Writing a report twice -/

section Twice

variable {h : Host}

/-- A second report with the same flag leaves every scope as the first left it. -/
theorem Report.bag_apply_twice (hs : h.Sorted) (w : Report) (r : Relation)
    (s : Scope) : (w.apply (w.apply h)).bag r s = (w.apply h).bag r s := by
  have ha := w.readsAlike_apply hs
  rw [w.bag_apply ha.sorted', w.bag_apply hs, ha.liveOn, w.ownUnit_apply]
  cases w.mounted with
  | none => rfl
  | some b =>
    simp only
    split_ifs
    · exact Databag.merge_merge_self _ _
    · rfl

/-- Stopping again for the same reason shows the same application status. -/
theorem Report.ofStop_again (leader : Bool) (s : Stop) (shown : Option Status) :
    Report.ofStop leader s (Report.ofStop leader s shown).appStatus =
      Report.ofStop leader s shown := by
  unfold Report.ofStop
  by_cases hc : (s.app && leader) = true <;> simp [hc]

end Twice

/-! ## Replaying a plan -/

section Again

variable {h g : Host} {ep : Endpoint} {info : MountInfo} {status shown : Option Status}
  {y : Executor}

theorem planMount_appStatus : (planMount ep info shown y).2.1.appStatus = shown := by
  unfold planMount
  split
  · rfl
  · split <;> rfl

/-- Only the leader changes the application's status. -/
theorem planEndpoint_appStatus_of_follower (hl : h.leader = false) :
    (planEndpoint h ep status shown y).2.1.appStatus = shown := by
  unfold planEndpoint
  rcases hmi : (mountInfo.run.run h).1 with e | s | info
  · rfl
  · simp [Report.ofStop, hl]
  · exact planMount_appStatus

/-- What every pass of reconciling keeps, every plan keeps. -/
theorem planMount_keeps {β : Type} (f : Executor → β)
    (hf : ∀ y t, f (y.reconcile t false).2 = f y) : f (planMount ep info shown y).2.2 = f y := by
  unfold planMount
  split
  · rfl
  · rename_i table _
    have hpass := hf y table
    rcases hrec : y.reconcile table false with ⟨o, y'⟩
    rw [hrec] at hpass
    cases o <;> exact hpass

theorem planEndpoint_keeps {β : Type} (f : Executor → β)
    (hf : ∀ y t, f (y.reconcile t false).2 = f y) :
    f (planEndpoint h ep status shown y).2.2 = f y := by
  unfold planEndpoint
  split
  · rfl
  · rfl
  · exact planMount_keeps f hf

theorem planReady_keeps {β : Type} (f : Executor → β)
    (hf : ∀ y t, f (y.reconcile t false).2 = f y) : f (planReady h status y).2.2 = f y := by
  unfold planReady
  split
  · rfl
  · rfl
  · exact planEndpoint_keeps f hf

/-- Mounting again on the machine a successful mount left applies nothing: the map is the
table's already. -/
theorem planMount_again (hok : (planMount ep info shown y).1 = .ok ()) :
    planMount ep info shown (planMount ep info shown y).2.2 = planMount ep info shown y := by
  unfold planMount at hok ⊢
  rcases hadd : MountTable.empty.add ep.info info.mountpoint (MountOptions.ofMountInfo info)
    with err | table
  · rfl
  · simp only [hadd] at hok ⊢
    rcases hrec : y.reconcile table false with ⟨e | b, y'⟩
    · rw [hrec] at hok
      cases hok
    · have htable := Executor.table_reconcile_of_ok (x := y) (t := table) (by rw [hrec])
      rw [hrec] at htable
      rw [Executor.reconcile_unchanged htable.symm]

theorem planEndpoint_again (ha : h.ReadsAlike g)
    (hok : (planEndpoint h ep status shown y).1 = .ok ()) (status' : Option Status) :
    planEndpoint g ep status' shown (planEndpoint h ep status shown y).2.2 =
      planEndpoint h ep status shown y := by
  rw [planEndpoint_congr ha]
  unfold planEndpoint at hok ⊢
  rcases hmi : (mountInfo.run.run h).1 with e | s | info
  · rw [hmi] at hok
    cases hok
  · rfl
  · simp only [hmi] at hok ⊢
    exact planMount_again hok

/-- A pass from a host that reads alike, showing what the first pass showed, replays the
first pass's plan on the machine it left. -/
theorem planReady_again (ha : h.ReadsAlike g)
    (happ : g.appStatus = (planReady h status y).2.1.appStatus)
    (hok : (planReady h status y).1 = .ok ()) (status' : Option Status) :
    planReady g status' (planReady h status y).2.2 = planReady h status y := by
  unfold planReady at happ hok ⊢
  rw [reads_endpoint.alike h g ha, ha.leader]
  rcases hep : (endpoint.run.run h).1 with e | s | ep <;> simp only [hep] at happ hok ⊢
  · cases hok
  · -- the stop is shown again as it was
    rw [happ, Report.ofStop_again]
  · -- the leader shows the same endpoint, and a follower what it showed before
    cases hl : h.leader
    · simp only [hl, Bool.false_eq_true, ↓reduceIte] at happ hok ⊢
      rw [happ, planEndpoint_appStatus_of_follower hl]
      exact planEndpoint_again ha hok status'
    · simp only [hl, ↓reduceIte] at hok ⊢
      exact planEndpoint_again ha hok status'

/-- A successful pass replays to itself: the plan from the host and machine it left is its own
plan. -/
theorem plan_again {x : Executor} (hs : h.Sorted) (hok : (plan h x).1 = .ok ()) :
    plan ((plan h x).2.1.apply h) (plan h x).2.2 = plan h x := by
  have ha := (plan h x).2.1.readsAlike_apply hs
  cases hsup : x.supported with
  | false =>
    have hplan : plan h x =
        (.ok (), ⟨some (.blocked "Cannot mount filesystems on LXD containers"),
          h.appStatus, none⟩, x) := by
      simp only [plan, hsup, Bool.not_false, ↓reduceIte]
    rw [hplan]
    simp only [plan, hsup, Bool.not_false, ↓reduceIte]
    rfl
  | true =>
    rw [plan_of_supported hsup] at ha hok ⊢
    generalize some (Status.maintenance _) = st at ha hok ⊢
    -- the machine the pass left can mount and is ready
    have hsup' : (planReady h st x.prepared).2.2.supported = true := by
      rw [planReady_keeps Executor.supported fun y t => Executor.supported_reconcile y t false,
        Executor.supported_prepared, hsup]
    have hinst' : (planReady h st x.prepared).2.2.installed = true := by
      rw [planReady_keeps Executor.installed fun y t => Executor.installed_reconcile y t false,
        Executor.installed_prepared]
    rw [plan_of_supported hsup', Executor.prepared_of_installed hinst']
    exact planReady_again ha rfl hok _

end Again

/-! ## Dispatching `updateStatus` -/

/-- With nothing queued, dispatching `updateStatus` to the filesystem client is one pass of
converging. -/
theorem run_updateStatus {h : Host} (hq : h.deferred = []) (x : Executor) :
    (CharmKind.filesystemClient.run .updateStatus).run.run (h, x) = converge.run.run (h, x) := by
  have hqueue : queueAs [] (h, x) = (h, x) := by
    obtain ⟨⟩ := h
    cases hq
    rfl
  have htake : (liftM HostM.takeDeferred : CharmM (List HostEvent)).run.run (h, x) =
      (.ok h.deferred, queueAs [] (h, x)) := rfl
  rw [hq, hqueue] at htake
  have hredeliver : (redeliverAll CharmKind.filesystemClient.handle []).run.run (h, x) =
      (.ok (), (h, x)) := rfl
  simp only [CharmKind.run, dispatch]
  rw [run_bind_ok htake, run_bind_ok hredeliver]
  -- neither interface makes anything of the event; the lifecycle makes the client converge
  rcases hc : converge.run.run (h, x) with ⟨e | u, s'⟩
  · have hh : (CharmKind.filesystemClient.handle .updateStatus).run.run (h, x) =
        (.error e, s') := by
      show (converge >>= fun _ => pure Handled.done).run.run (h, x) = _
      rw [run_bind_error hc]
    exact run_deliver_error hh
  · have hh : (CharmKind.filesystemClient.handle .updateStatus).run.run (h, x) =
        (.ok .done, s') := by
      show (converge >>= fun _ => pure Handled.done).run.run (h, x) = _
      rw [run_bind_ok hc]
      rfl
    exact run_deliver_done hh

/-- A state the filesystem client has settled in: dispatching `updateStatus` succeeds, makes
no call on the machine, and leaves every scope, both statuses and the queue as they are. -/
def Settled (h₁ : Host) (x₁ : Executor) : Prop :=
  ∃ h₂, (CharmKind.filesystemClient.run .updateStatus).run.run (h₁, x₁) =
      (.ok (), h₂, x₁) ∧
    (∀ r s, h₂.bag r s = h₁.bag r s) ∧ h₂.unitStatus = h₁.unitStatus ∧
    h₂.appStatus = h₁.appStatus ∧ h₂.deferred = h₁.deferred

/-- Converging is idempotent: after a successful `updateStatus` with nothing queued, the
client has settled. -/
theorem update_status_settles {h h₁ : Host} {x x₁ : Executor} (hh : h.Reachable)
    (hq : h.deferred = [])
    (hrun : (CharmKind.filesystemClient.run .updateStatus).run.run (h, x) = (.ok (), h₁, x₁)) :
    Settled h₁ x₁ := by
  have hs := hh.sorted
  rw [run_updateStatus hq] at hrun
  obtain ⟨hok, rfl, rfl⟩ := eq_plan_of_converge hs hrun
  -- the first pass leaves nothing queued, so the second is a pass too, replaying the first
  have hq₁ : ((plan h x).2.1.apply h).deferred = [] := (Report.deferred_apply _ h).trans hq
  refine ⟨(plan h x).2.1.apply ((plan h x).2.1.apply h), ?_, fun r s => ?_, rfl, rfl, ?_⟩
  · rw [run_updateStatus hq₁, run_converge ((plan h x).2.1.readsAlike_apply hs).sorted',
      plan_again hs hok.symm]
    unfold written
    rw [← hok]
  · exact Report.bag_apply_twice hs _ r s
  · exact Report.deferred_apply _ _

theorem eq_ok_of_isOk {o : Outcome Unit} (h : o.isOk = true) : o = .ok () := by
  cases o with
  | error e => cases h
  | ok u => rfl

/-- A leader mounting an NFS filesystem at `/data` settles after one `updateStatus`. -/
theorem update_status_settles_nfs :
    let h := HostOp.apply (.remoteUpdate ⟨"filesystem", 0⟩ (.app "nfs-server-proxy")
        (Databag.ofList [(endpointKey, "nfs://?v=1&hostname=192.168.1.1&path=%2Fsrv")])) <|
      HostOp.apply (.addRelation "filesystem" "nfs-server-proxy") <|
      HostOp.apply (.setConfig (.map [(.str "mountpoint", .str "/data")])) <|
      HostOp.apply (.setLeader true) <| Host.new "filesystem-client" "filesystem-client/0"
    let x : Executor := {}
    let run := (CharmKind.filesystemClient.run .updateStatus).run.run (h, x)
    h.Reachable ∧ h.deferred = [] ∧ run.1.isOk = true ∧ Settled run.2.1 run.2.2 := by
  intro h x run
  have hh : h.Reachable := .step _ (.step _ (.step _ (.step _ (.new _ _))))
  have hok : run.1.isOk = true := by decide +kernel
  have hrun : (CharmKind.filesystemClient.run .updateStatus).run.run (h, x) =
      (.ok (), run.2.1, run.2.2) := Prod.ext (eq_ok_of_isOk hok) rfl
  exact ⟨hh, rfl, hok, update_status_settles hh rfl hrun⟩

end FilesystemClient

end ShareBroker
