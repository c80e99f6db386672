import ShareBroker.Proofs.Charm.ClientConverge
import ShareBroker.Proofs.Mount.Machine

/-!
# What a pass of the filesystem client ends with

`run_converge` gives a pass of the filesystem client as its plan. This file reads plans back
from the status they leave on the unit.

A pass that shows the filesystem mounted at `p` took the one path that mounts
(`FilesystemClient.plan_mounted`):
- the endpoints had distinct kinds, and the one of least kind was chosen;
- the mountpoint came from exactly one of its two sources;
- the one-entry table was written and applied on a ready machine;
- the workloads were told it is mounted.

A pass that ends blocked or waiting either found the platform unable to mount, and then
touched nothing but the unit's status, or stopped on a ready machine before applying
anything (`FilesystemClient.plan_halted`). In the second case it told the workloads that
nothing is mounted.

## Key results

- `FilesystemClient.mounted_pass_mounts_one_filesystem`: `MountedAt`, what a mounted pass did.
- `FilesystemClient.halted_pass_leaves_table`: `HaltedPass`, what a blocked or waiting pass
  left.
-/

namespace ShareBroker

namespace FilesystemClient

/-! ## Reports written on the host -/

section Apply

variable {h : Host}

@[simp] theorem Report.unitStatus_apply (w : Report) (h : Host) :
    (w.apply h).unitStatus = w.status := rfl

@[simp] theorem Report.appStatus_apply (w : Report) (h : Host) :
    (w.apply h).appStatus = w.appStatus := rfl

theorem Report.deferred_apply (w : Report) (h : Host) : (w.apply h).deferred = h.deferred := by
  unfold Report.apply
  cases w.mounted with
  | none => rfl
  | some b => exact mount.deferred_flagged b

theorem Report.ownUnit_apply (w : Report) (h : Host) : (w.apply h).ownUnit = h.ownUnit := by
  unfold Report.apply
  cases w.mounted with
  | none => rfl
  | some b => exact mount.ownUnit_flagged b

/-- A report changes nothing a pass reads. -/
theorem Report.readsAlike_apply (hs : h.Sorted) (w : Report) : h.ReadsAlike (w.apply h) := by
  unfold Report.apply
  cases w.mounted with
  | none => exact Host.readsAlike_of_relations hs rfl rfl rfl rfl
  | some b =>
    have hf := mount.readsAlike_flagged hs b
    exact hf.trans (Host.readsAlike_of_relations hf.sorted' rfl rfl rfl rfl)

/-- The scopes after a report: its flag, if it gives one, merged into the unit's own scope of
every live `mount` relation. -/
theorem Report.bag_apply (hs : h.Sorted) (w : Report) (r : Relation) (s : Scope) :
    (w.apply h).bag r s =
      match w.mounted with
      | some b =>
        if r ∈ h.liveOn mount.endpoint ∧ s = h.ownUnit then
          (h.bag r s).merge (Databag.ofList [(mountedKey, Record.flag b)])
        else h.bag r s
      | none => h.bag r s := by
  unfold Report.apply
  cases w.mounted with
  | none => rfl
  | some b => exact mount.bag_flagged hs b r s

/-- A report that gives the workloads a flag leaves it in the unit's own scope of every live
`mount` relation. -/
theorem Report.get?_flag_apply (hs : h.Sorted) {w : Report} {b : Bool} (hw : w.mounted = some b)
    {r : Relation} (hr : (w.apply h).isLive r = true) (he : r.endpoint = mount.endpoint) :
    ((w.apply h).bag r (w.apply h).ownUnit).get? mountedKey = some (Record.flag b) := by
  have hlive : r ∈ h.liveOn mount.endpoint :=
    (hs.mem_liveOn _ r).2 ⟨((w.readsAlike_apply hs).isLive r).symm.trans hr, he⟩
  have hflag : (Databag.ofList [(mountedKey, Record.flag b)]).get? mountedKey =
      some (Record.flag b) := by
    simp
  rw [w.ownUnit_apply, w.bag_apply hs, hw]
  simp only [hlive, and_self, ↓reduceIte]
  rw [Databag.get?_merge_of_some hflag]
  cases b <;> rfl

end Apply

/-! ## Plans by the status they end with -/

/-- A status that makes the unit wait for something: blocked or waiting. -/
def Halting (st : Option Status) : Prop :=
  (∃ m, st = some (.blocked m)) ∨ ∃ m, st = some (.waiting m)

theorem not_halting_maintenance (m : String) : ¬ Halting (some (.maintenance m)) := by
  rintro (⟨_, h⟩ | ⟨_, h⟩) <;> cases h

theorem not_halting_active (m : String) : ¬ Halting (some (.active m)) := by
  rintro (⟨_, h⟩ | ⟨_, h⟩) <;> cases h

/-- The mountpoint named by a mounted status. -/
theorem mountpoint_of_message {p q : String}
    (h : "Mounted filesystem at `" ++ p ++ "`" = "Mounted filesystem at `" ++ q ++ "`") :
    p = q :=
  String.toList_inj.1 (by simpa using congrArg String.toList h)

/-- A plan that tells the workloads nothing is mounted and leaves the machine as `x`. -/
def Withdraws (p : Outcome Unit × Report × Executor) (x : Executor) : Prop :=
  p.1 = .ok () ∧ p.2.1.mounted = some false ∧ p.2.2 = x

section Plans

variable {h : Host} {ep : Endpoint} {info : MountInfo} {status shown : Option Status}
  {x : Executor} {p : String}

/-- A pass on a platform that can mount works on the prepared machine. -/
theorem plan_of_supported (hsup : x.supported = true) :
    plan h x = planReady h (some (.maintenance
      (if x.installed then "Updating status" else "Installing required packages"))) x.prepared := by
  unfold plan Executor.prepared
  simp only [hsup, Bool.not_true, Bool.false_eq_true, ↓reduceIte]
  split <;> rfl

theorem planMount_halted (hst : Halting (planMount ep info shown x).2.1.status) :
    Withdraws (planMount ep info shown x) x := by
  unfold planMount at hst ⊢
  rcases hadd : MountTable.empty.add ep.info info.mountpoint (MountOptions.ofMountInfo info)
    with err | table
  · exact ⟨rfl, rfl, rfl⟩
  · -- a pass that reaches the machine ends mounting or mounted, never waiting
    simp only [hadd] at hst
    rcases hrec : x.reconcile table false with ⟨e | b, x'⟩ <;> simp only [hrec] at hst
    · exact absurd hst (not_halting_maintenance _)
    · exact absurd hst (not_halting_active _)

theorem planEndpoint_halted (hm : ∃ m, status = some (.maintenance m))
    (hst : Halting (planEndpoint h ep status shown x).2.1.status) :
    Withdraws (planEndpoint h ep status shown x) x := by
  obtain ⟨m, rfl⟩ := hm
  unfold planEndpoint at hst ⊢
  rcases hmi : (mountInfo.run.run h).1 with e | s | info <;> simp only [hmi] at hst ⊢
  · exact absurd hst (not_halting_maintenance m)
  · exact ⟨rfl, rfl, rfl⟩
  · exact planMount_halted hst

theorem planReady_halted (hm : ∃ m, status = some (.maintenance m))
    (hst : Halting (planReady h status x).2.1.status) : Withdraws (planReady h status x) x := by
  obtain ⟨m, rfl⟩ := hm
  unfold planReady at hst ⊢
  rcases hep : (endpoint.run.run h).1 with e | s | ep <;> simp only [hep] at hst ⊢
  · exact absurd hst (not_halting_maintenance m)
  · exact ⟨rfl, rfl, rfl⟩
  · exact planEndpoint_halted ⟨m, rfl⟩ hst

/-- A pass that ends blocked or waiting found the platform unable to mount, or withdrew the
mount from a prepared machine without touching it further. -/
theorem plan_halted (hst : Halting (plan h x).2.1.status) :
    (x.supported = false ∧ plan h x =
        (.ok (), ⟨some (.blocked "Cannot mount filesystems on LXD containers"), h.appStatus,
          none⟩, x)) ∨
      (x.supported = true ∧ Withdraws (plan h x) x.prepared) := by
  cases hsup : x.supported with
  | false =>
    refine .inl ⟨rfl, ?_⟩
    simp only [plan, hsup, Bool.not_false, ↓reduceIte]
  | true =>
    rw [plan_of_supported hsup] at hst ⊢
    exact .inr ⟨rfl, planReady_halted ⟨_, rfl⟩ hst⟩

theorem planMount_mounted
    (hst : (planMount ep info shown x).2.1.status =
      some (.active ("Mounted filesystem at `" ++ p ++ "`"))) :
    info.mountpoint = p ∧ ∃ table b,
      MountTable.empty.add ep.info p (MountOptions.ofMountInfo info) = .ok table ∧
      (x.reconcile table false).1 = .ok b ∧
      planMount ep info shown x =
        (.ok (), ⟨some (.active ("Mounted filesystem at `" ++ p ++ "`")), shown, some true⟩,
          (x.reconcile table false).2) := by
  unfold planMount at hst ⊢
  rcases hadd : MountTable.empty.add ep.info info.mountpoint (MountOptions.ofMountInfo info)
    with err | table <;> simp only [hadd] at hst ⊢
  · cases hst
  · rcases hrec : x.reconcile table false with ⟨e | b, x'⟩ <;> simp only [hrec] at hst ⊢
    · cases hst
    · have hp : info.mountpoint = p := by
        injection hst with hst
        injection hst with hst
        exact mountpoint_of_message hst
      subst hp
      exact ⟨rfl, table, b, hadd, by rw [hrec], by rw [hrec]⟩

theorem planEndpoint_mounted (hm : ∃ m, status = some (.maintenance m))
    (hst : (planEndpoint h ep status shown x).2.1.status =
      some (.active ("Mounted filesystem at `" ++ p ++ "`"))) :
    ∃ info, (mountInfo.run.run h).1 = .ok (.ok info) ∧
      planEndpoint h ep status shown x = planMount ep info shown x := by
  obtain ⟨m, rfl⟩ := hm
  unfold planEndpoint at hst ⊢
  rcases hmi : (mountInfo.run.run h).1 with e | s | info <;> simp only [hmi] at hst ⊢
  · cases hst
  · -- a stop on the mountpoint blocks or waits
    have hstatus : some s.status = some (Status.active _) := hst
    rcases mountInfo_eq_stop (reads_mountInfo.run_of_fst hmi) with ⟨m', hs⟩ | ⟨m', hs⟩ <;>
      rw [hs] at hstatus <;> cases hstatus
  · exact ⟨info, rfl, rfl⟩

theorem planReady_mounted (hm : ∃ m, status = some (.maintenance m))
    (hst : (planReady h status x).2.1.status =
      some (.active ("Mounted filesystem at `" ++ p ++ "`"))) :
    ∃ ep, (endpoint.run.run h).1 = .ok (.ok ep) ∧
      planReady h status x =
        planEndpoint h ep status (if h.leader then some (integrated ep) else h.appStatus) x := by
  obtain ⟨m, rfl⟩ := hm
  unfold planReady at hst ⊢
  rcases hep : (endpoint.run.run h).1 with e | s | ep <;> simp only [hep] at hst ⊢
  · cases hst
  · -- a stop on the endpoint blocks
    have hstatus : some s.status = some (Status.active _) := hst
    obtain ⟨m', hs⟩ := endpoint_eq_stop (reads_endpoint.run_of_fst hep)
    rw [hs] at hstatus
    cases hstatus
  · exact ⟨ep, rfl, rfl⟩

/-- The one path of a pass that shows the filesystem mounted at `p`: a platform that can
mount, an endpoint, a mountpoint `p`, a table for the one entry, and a successful pass of
reconciling on the prepared machine. -/
theorem plan_mounted
    (hst : (plan h x).2.1.status = some (.active ("Mounted filesystem at `" ++ p ++ "`"))) :
    x.supported = true ∧ ∃ ep info table b,
      (endpoint.run.run h).1 = .ok (.ok ep) ∧ (mountInfo.run.run h).1 = .ok (.ok info) ∧
      info.mountpoint = p ∧
      MountTable.empty.add ep.info p (MountOptions.ofMountInfo info) = .ok table ∧
      (x.prepared.reconcile table false).1 = .ok b ∧
      plan h x =
        (.ok (), ⟨some (.active ("Mounted filesystem at `" ++ p ++ "`")),
          if h.leader then some (integrated ep) else h.appStatus, some true⟩,
          (x.prepared.reconcile table false).2) := by
  cases hsup : x.supported with
  | false =>
    -- a platform that cannot mount is only ever shown blocked
    simp only [plan, hsup, Bool.not_false, ↓reduceIte] at hst
    cases hst
  | true =>
    rw [plan_of_supported hsup] at hst ⊢
    -- each layer passes the mounted status down to the one below it
    obtain ⟨ep, hep, hready⟩ := planReady_mounted ⟨_, rfl⟩ hst
    rw [hready] at hst ⊢
    obtain ⟨info, hmi, hend⟩ := planEndpoint_mounted ⟨_, rfl⟩ hst
    rw [hend] at hst ⊢
    obtain ⟨hp, table, b, hadd, hrec, hmount⟩ := planMount_mounted hst
    exact ⟨rfl, ep, info, table, b, hep, hmi, hp, hadd, hrec, hmount⟩

end Plans

/-! ## Passes -/

/-- What a pass that shows the filesystem mounted at `p` did, between the host `h` it started
from and the host `h'` and machine `x'` it left: it mounted the endpoint `ep` at `p` with the
options of `info`, through the one-entry table `table`. -/
structure MountedAt (h h' : Host) (x' : Executor) (p : String) (ep : Endpoint) (info : MountInfo)
    (table : MountTable) : Prop where
  /-- The usable endpoints have distinct kinds, and `ep` is the one of least kind. -/
  chosen : ∃ eps, filesystem.endpoints.run.run h = (.ok eps, h) ∧
    (eps.map (·.info.kind)).Nodup ∧ ep ∈ eps ∧
    ∀ e ∈ eps, ep.info.kind.rank ≤ e.info.kind.rank
  /-- The mountpoint and options come from the configuration when no workload asks, or from
  the one workload that asks when the configuration names no mountpoint. -/
  source : info.mountpoint = p ∧ ∃ cfg, ClientConfig.load h.config = .ok cfg ∧
    ((∃ q, cfg.mountpoint = some q ∧ q ≠ "" ∧ h.liveOn mount.endpoint = [] ∧
        info = ⟨q, cfg.noexec, cfg.nosuid, cfg.nodev, cfg.readOnly⟩) ∨
      ((∀ q, cfg.mountpoint = some q → q = "") ∧ ∃ r, h.liveOn mount.endpoint = [r] ∧
        (mount.mountInfo r).run.run h = (.ok (some info), h)))
  /-- The map on the machine is the table of the one entry. -/
  applied : MountTable.empty.add ep.info p (MountOptions.ofMountInfo info) = .ok table ∧
    x'.table = table.render
  /-- The packages and the autofs files are in place. -/
  installed : x'.installed = true
  /-- Every workload is told the filesystem is mounted. -/
  flags : ∀ r, h'.isLive r = true → r.endpoint = mount.endpoint →
    (h'.bag r h'.ownUnit).get? mountedKey = some "true"
  /-- The leader shows the kind it integrates with. -/
  shown : h.leader = true → h'.appStatus = some (integrated ep)

/-- A pass that shows the filesystem mounted at `p` succeeded and mounted exactly the one
filesystem it should: the endpoint of least kind among endpoints of distinct kinds, at the
mountpoint of its one source, through a table of that entry alone on a ready machine, with
every workload told. -/
theorem mounted_pass_mounts_one_filesystem {h h' : Host} {x x' : Executor} {o : Outcome Unit}
    {p : String} (hh : h.Reachable) (hrun : converge.run.run (h, x) = (o, h', x'))
    (hst : h'.unitStatus = some (.active ("Mounted filesystem at `" ++ p ++ "`"))) :
    o = .ok () ∧ ∃ ep info table, MountedAt h h' x' p ep info table := by
  have hs := hh.sorted
  obtain ⟨rfl, rfl, rfl⟩ := eq_plan_of_converge hs hrun
  obtain ⟨-, ep, info, table, b, hep, hmi, hp, hadd, hrec, hplan⟩ := plan_mounted hst
  rw [hplan]
  -- the endpoint and the mountpoint from their reads, the rest from the plan's one path
  refine ⟨rfl, ep, info, table, ⟨?_, ?_, ?_, ?_, ?_, ?_⟩⟩
  · exact endpoint_eq_ok (reads_endpoint.run_of_fst hep)
  · exact ⟨hp, mountInfo_eq_ok (reads_mountInfo.run_of_fst hmi)⟩
  · exact ⟨hadd, Executor.table_reconcile_of_ok hrec⟩
  · rw [Executor.installed_reconcile, Executor.installed_prepared]
  · intro r hr he
    exact Report.get?_flag_apply hs rfl hr he
  · intro hl
    simp [hl]

/-- A leader configured to mount at `/data`, with one NFS provider, mounts it there. -/
theorem mounted_pass_mounts_one_filesystem_nfs :
    let h := HostOp.apply (.remoteUpdate ⟨"filesystem", 0⟩ (.app "nfs-server-proxy")
        (Databag.ofList [(endpointKey, "nfs://?v=1&hostname=192.168.1.1&path=%2Fsrv")])) <|
      HostOp.apply (.addRelation "filesystem" "nfs-server-proxy") <|
      HostOp.apply (.setConfig (.map [(.str "mountpoint", .str "/data")])) <|
      HostOp.apply (.setLeader true) <| Host.new "filesystem-client" "filesystem-client/0"
    let x : Executor := {}
    let run := converge.run.run (h, x)
    h.Reachable ∧
      run.2.1.unitStatus = some (.active ("Mounted filesystem at `" ++ "/data" ++ "`")) ∧
      run.1 = .ok () ∧ ∃ ep info table, MountedAt h run.2.1 run.2.2 "/data" ep info table := by
  intro h x run
  have hh : h.Reachable := .step _ (.step _ (.step _ (.step _ (.new _ _))))
  have hst : run.2.1.unitStatus =
      some (.active ("Mounted filesystem at `" ++ "/data" ++ "`")) := by
    decide +kernel
  -- the run equation by its components, so that the pass is not evaluated again
  have hrun : converge.run.run (h, x) = (run.1, run.2.1, run.2.2) :=
    Prod.ext rfl (Prod.ext rfl rfl)
  exact ⟨hh, hst, mounted_pass_mounts_one_filesystem hh hrun hst⟩

/-- What a pass that ends blocked or waiting left, from the host `h` and machine `x` it
started on. -/
structure HaltedPass (h : Host) (x : Executor) (o : Outcome Unit) (h' : Host) (x' : Executor) :
    Prop where
  /-- The pass succeeded. -/
  ok : o = .ok ()
  /-- The map on the machine is as it was. -/
  table : x'.table = x.table
  /-- No mountpoint was created, no map written and autofs not reloaded: at most the packages
  were installed. -/
  calls : x'.calls = x.calls ∨
    x'.calls = x.calls ++ requiredPackages.map .ensurePackage ++ [.initTables]
  /-- On a platform that can mount, every workload is told nothing is mounted. -/
  withdrawn : x.supported = true → ∀ r, h'.isLive r = true → r.endpoint = mount.endpoint →
    (h'.bag r h'.ownUnit).get? mountedKey = some "false"
  /-- On one that cannot, only the unit's status changes. -/
  untouched : x.supported = false → x' = x ∧
    h' = { h with unitStatus := some (.blocked "Cannot mount filesystems on LXD containers") }

/-- A pass that ends blocked or waiting succeeded without touching the map or reloading
autofs. On a platform that can mount it withdrew the mount from every workload; on an LXD
container it changed nothing but the unit's status. -/
theorem halted_pass_leaves_table {h h' : Host} {x x' : Executor} {o : Outcome Unit}
    (hh : h.Reachable) (hrun : converge.run.run (h, x) = (o, h', x'))
    (hst : (∃ m, h'.unitStatus = some (.blocked m)) ∨
      ∃ m, h'.unitStatus = some (.waiting m)) :
    HaltedPass h x o h' x' := by
  have hs := hh.sorted
  obtain ⟨rfl, rfl, rfl⟩ := eq_plan_of_converge hs hrun
  rcases plan_halted hst with ⟨hsup, hplan⟩ | ⟨hsup, hok, hflag, hmachine⟩
  · -- the platform cannot mount: nothing but the status is written
    rw [hplan]
    refine ⟨rfl, rfl, .inl rfl, fun h => ?_, fun _ => ⟨rfl, rfl⟩⟩
    rw [hsup] at h
    cases h
  · refine ⟨hok, ?_, ?_, fun _ r hr he => Report.get?_flag_apply hs hflag hr he, fun h => ?_⟩
    · rw [hmachine, Executor.table_prepared]
    · rw [hmachine]
      exact Executor.calls_prepared x
    · rw [hsup] at h
      cases h

/-- A machine that can mount, with a workload related and no provider, waits for one and
tells the workload nothing is mounted. -/
theorem halted_pass_leaves_table_no_provider :
    let h := HostOp.apply (.addRelation "mount" "workload") <|
      HostOp.apply (.setLeader true) <| Host.new "filesystem-client" "filesystem-client/0"
    let x : Executor := {}
    let run := converge.run.run (h, x)
    h.Reachable ∧
      run.2.1.unitStatus =
        some (.blocked "Waiting for an integration with a filesystem provider") ∧
      HaltedPass h x run.1 run.2.1 run.2.2 := by
  intro h x run
  have hh : h.Reachable := .step _ (.step _ (.new _ _))
  have hst : run.2.1.unitStatus =
      some (.blocked "Waiting for an integration with a filesystem provider") := by
    decide +kernel
  -- the run equation by its components, so that the pass is not evaluated again
  have hrun : converge.run.run (h, x) = (run.1, run.2.1, run.2.2) :=
    Prod.ext rfl (Prod.ext rfl rfl)
  exact ⟨hh, hst, halted_pass_leaves_table hh hrun (.inl ⟨_, hst⟩)⟩

/-- On an LXD container a pass blocks at once: a workload related over `mount` is not told
that nothing is mounted. -/
theorem unsupported_pass_leaves_workload_untold :
    let r : Relation := ⟨"mount", 0⟩
    let h := HostOp.apply (.addRelationUnit r "workload/0") <|
      HostOp.apply (.addRelation "mount" "workload") <|
      HostOp.apply (.setConfig (.map [(.str "noexec", .bool true)])) <|
      HostOp.apply (.setLeader true) <| Host.new "filesystem-client" "filesystem-client/0"
    let x : Executor := { virtualization := some "lxc" }
    let run := converge.run.run (h, x)
    run.2.1.unitStatus = some (.blocked "Cannot mount filesystems on LXD containers") ∧
      run.2.1.isLive r = true ∧ (run.2.1.bag r run.2.1.ownUnit).get? mountedKey = none := by
  decide +kernel

end FilesystemClient

end ShareBroker
