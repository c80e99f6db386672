import ShareBroker.Proofs.Charm.ClientReads
import ShareBroker.Proofs.Mount.Reconcile

/-!
# One pass of the filesystem client, in closed form

`FilesystemClient.converge` reads the host and the machine, and writes three things to the
host: the unit's status, the application's status, and the `mounted` flag in its own scope of
every live `mount` relation. A `Report` says what each of them ends as, and `Report.apply`
writes it. `FilesystemClient.plan` computes the outcome, the report and the machine from what
the pass reads, following the code's branches, and `run_converge` says that this is the pass:

  `converge.run.run (h, x) = ((plan h x).1, ((plan h x).2.1.apply h, (plan h x).2.2))`.

The proof follows the pass from its end: `mountAt` (the table and the mount), `mountEndpoint`
(the mountpoint) and `mountReady` (the endpoint and the leader's status) are the parts of
`converge` after each read, and each has its run lemma. Statuses written along the way are
overwritten by the report and never read, so each part's lemma holds from any status
(`Report.apply_restatus`, `Host.readsAlike_of_relations`).
-/

namespace ShareBroker

/-! ## Runs of the primitives -/

theorem CharmM.run_liftM {α : Type} (m : HostM α) (g : Host) (x : Executor) :
    (liftM m : CharmM α).run.run (g, x) = ((m.run.run g).1, (m.run.run g).2, x) := rfl

theorem HostM.run_leadership (g : Host) :
    HostM.leadership.run.run g = (.ok (if g.leader then some ⟨⟩ else none), g) := rfl

theorem HostM.run_setAppStatus_of_leader {g : Host} (hl : g.leader = true) (s : Status)
    (t : LeadershipToken) :
    (HostM.setAppStatus s t).run.run g = (.ok (), { g with appStatus := some s }) := by
  rw [HostM.run_setAppStatus, if_pos hl]

/-! ## The `mounted` flags -/

namespace MountProvides

variable {h : Host}

/-- The host after `setMountStatus mounted`: the flag merged into the unit's own scope of every
live relation of the endpoint, one relation after another. -/
def flagged (side : MountProvides) (h : Host) (mounted : Bool) : Host :=
  (h.liveOn side.endpoint).foldl
    (fun g r => g.remoteUpdate r h.ownUnit (Databag.ofList [(mountedKey, Record.flag mounted)])) h

/-- Writing one update into the unit's own scope of each relation of a list, all of them live. -/
theorem run_forIn_updateUnit (d : Databag) : ∀ (rs : List Relation) (g : Host),
    (∀ r ∈ rs, g.isLive r = true) →
    (forIn rs PUnit.unit fun r (_ : PUnit) => do
        HostM.updateUnit r d
        pure (ForInStep.yield PUnit.unit)).run.run g =
      (.ok PUnit.unit, rs.foldl (fun g' r => g'.remoteUpdate r g.ownUnit d) g) := by
  intro rs
  induction rs with
  | nil => intro g _; rfl
  | cons r rs ih =>
    intro g hlive
    have hwrite : (HostM.updateUnit r d).run.run g = (.ok (), g.remoteUpdate r g.ownUnit d) := by
      rw [HostM.run_updateUnit, if_pos (hlive r List.mem_cons_self)]
    have hpass : (HostM.updateUnit r d >>= fun _ =>
        (pure (ForInStep.yield PUnit.unit) : HostM _)).run.run g =
          (.ok (.yield PUnit.unit), g.remoteUpdate r g.ownUnit d) := by
      rw [run_bind_ok hwrite]
      rfl
    rw [List.forIn_cons, run_bind_ok hpass]
    -- the write keeps every relation live and the unit's scope where it was
    have hnext := ih (g.remoteUpdate r g.ownUnit d) fun r' hr' =>
      (Host.isLive_remoteUpdate g r _ d r').trans (hlive r' (List.mem_cons_of_mem _ hr'))
    rw [Host.ownUnit_remoteUpdate] at hnext
    exact hnext

theorem run_setMountStatus (hs : h.Sorted) (side : MountProvides) (mounted : Bool) :
    (side.setMountStatus mounted).run.run h = (.ok (), side.flagged h mounted) := by
  unfold setMountStatus flagged
  rw [run_bind_ok (HostM.run_relationsOn _ h),
    run_bind_ok (run_forIn_updateUnit _ _ h fun r hr => ((hs.mem_liveOn _ r).1 hr).1)]
  rfl

/-- Writes into relations commute with the statuses. -/
theorem foldl_remoteUpdate_restatus (sc : Scope) (d : Databag) (u a : Option Status) :
    ∀ (rs : List Relation) (g : Host),
      rs.foldl (fun g' r => g'.remoteUpdate r sc d) { g with unitStatus := u, appStatus := a } =
        { rs.foldl (fun g' r => g'.remoteUpdate r sc d) g with
          unitStatus := u, appStatus := a } := by
  intro rs
  induction rs with
  | nil => intro g; rfl
  | cons r rs ih =>
    intro g
    simp only [List.foldl_cons]
    rw [← ih]
    congr 1
    simp only [Host.remoteUpdate, Host.modifyRelation, Host.state?]
    split <;> rfl

theorem flagged_restatus (side : MountProvides) (mounted : Bool) (u a : Option Status) :
    side.flagged { h with unitStatus := u, appStatus := a } mounted =
      { side.flagged h mounted with unitStatus := u, appStatus := a } :=
  foldl_remoteUpdate_restatus _ _ u a _ h

theorem appStatus_flagged (side : MountProvides) (mounted : Bool) :
    (side.flagged h mounted).appStatus = h.appStatus := by
  have hst := congrArg Host.appStatus
    (flagged_restatus (h := h) side mounted h.unitStatus h.appStatus)
  exact hst

/-- Writing the flags reads alike. -/
theorem readsAlike_flagged (hs : h.Sorted) (side : MountProvides) (mounted : Bool) :
    h.ReadsAlike (side.flagged h mounted) := by
  unfold flagged
  -- one write after another into the unit's own scope, each read alike
  suffices hfold : ∀ (rs : List Relation) (g : Host), h.ReadsAlike g →
      h.ReadsAlike (rs.foldl (fun g' r => g'.remoteUpdate r h.ownUnit
        (Databag.ofList [(mountedKey, Record.flag mounted)])) g) from
    hfold _ h (.refl hs)
  intro rs
  induction rs with
  | nil => intro g hg; exact hg
  | cons r rs ih =>
    intro g hg
    exact ih _ (hg.trans (Host.readsAlike_remoteUpdate hg.sorted' r h.unit _))

/-- What every write into a relation keeps, the flags keep. -/
theorem flagged_keeps {β : Type} (f : Host → β)
    (hf : ∀ g r s d, f (g.remoteUpdate r s d) = f g) (side : MountProvides) (mounted : Bool) :
    f (side.flagged h mounted) = f h := by
  unfold flagged
  suffices hfold : ∀ (rs : List Relation) (g : Host), f g = f h →
      f (rs.foldl (fun g' r => g'.remoteUpdate r h.ownUnit
        (Databag.ofList [(mountedKey, Record.flag mounted)])) g) = f h from
    hfold _ h rfl
  intro rs
  induction rs with
  | nil => intro g hg; exact hg
  | cons r rs ih =>
    intro g hg
    exact ih _ ((hf g r _ _).trans hg)

theorem deferred_flagged (side : MountProvides) (mounted : Bool) :
    (side.flagged h mounted).deferred = h.deferred :=
  flagged_keeps Host.deferred (fun g r _ _ => Host.deferred_modifyRelation g r _) side mounted

theorem ownUnit_flagged (side : MountProvides) (mounted : Bool) :
    (side.flagged h mounted).ownUnit = h.ownUnit :=
  flagged_keeps Host.ownUnit Host.ownUnit_remoteUpdate side mounted

/-- The scopes after the flags: the unit's own scope of each live relation of the endpoint has
the flag merged in, and every other scope is as it was. -/
theorem bag_flagged (hs : h.Sorted) (side : MountProvides) (mounted : Bool) (r : Relation)
    (s : Scope) :
    (side.flagged h mounted).bag r s =
      if r ∈ h.liveOn side.endpoint ∧ s = h.ownUnit then
        (h.bag r s).merge (Databag.ofList [(mountedKey, Record.flag mounted)])
      else h.bag r s := by
  unfold flagged
  -- each relation once, each live when its turn comes
  suffices hfold : ∀ (rs : List Relation) (g : Host), rs.Nodup →
      (∀ r ∈ rs, g.isLive r = true) →
      (rs.foldl (fun g' r => g'.remoteUpdate r h.ownUnit
        (Databag.ofList [(mountedKey, Record.flag mounted)])) g).bag r s =
        if r ∈ rs ∧ s = h.ownUnit then
          (g.bag r s).merge (Databag.ofList [(mountedKey, Record.flag mounted)])
        else g.bag r s from
    hfold _ h (hs.liveOn_sorted _).nodup fun r hr => ((hs.mem_liveOn _ r).1 hr).1
  intro rs
  induction rs with
  | nil => intro g _ _; simp
  | cons r' rs ih =>
    intro g hnd hlive
    -- the first relation is written once, and the rest of the fold does not meet it again
    obtain ⟨hnotin, hnd⟩ := List.nodup_cons.1 hnd
    simp only [List.foldl_cons]
    rw [ih _ hnd fun r'' hr'' => (Host.isLive_remoteUpdate g r' _ _ r'').trans
      (hlive r'' (List.mem_cons_of_mem _ hr''))]
    rw [Host.bag_remoteUpdate (Host.isSome_state?_of_isLive (hlive r' List.mem_cons_self))]
    by_cases hr : r = r'
    · subst hr
      by_cases hsc : s = h.ownUnit
      · simp [hsc, hnotin]
      · simp [hsc, Ne.symm hsc]
    · simp [hr, Ne.symm hr]

theorem run_lift_setMountStatus (hs : h.Sorted) (side : MountProvides) (mounted : Bool)
    (x : Executor) : (liftM (side.setMountStatus mounted) : CharmM Unit).run.run (h, x) =
      (.ok (), side.flagged h mounted, x) := by
  rw [CharmM.run_liftM, run_setMountStatus hs]

end MountProvides

/-! ## Reports -/

namespace FilesystemClient

/-- What a pass of converging leaves on the host: the unit's status, the application's status
and the `mounted` flag it gave the workloads, if it gave one. -/
structure Report where
  status : Option Status
  appStatus : Option Status
  mounted : Option Bool

/-- The host with a report written. -/
def Report.apply (w : Report) (h : Host) : Host :=
  { (match w.mounted with
      | some b => mount.flagged h b
      | none => h) with
    unitStatus := w.status, appStatus := w.appStatus }

/-- The report of a stop: nothing is mounted, the unit shows why, and so does the application
when the reason concerns it and the unit leads; `shown` is what the application showed. -/
def Report.ofStop (leader : Bool) (s : Stop) (shown : Option Status) : Report :=
  ⟨some s.status, if s.app && leader then some s.status else shown, some false⟩

/-- A report overwrites both statuses, so those of the host it is written on do not matter. -/
theorem Report.apply_restatus (w : Report) (h : Host) (u a : Option Status) :
    w.apply { h with unitStatus := u, appStatus := a } = w.apply h := by
  unfold Report.apply
  cases w.mounted with
  | none => rfl
  | some b =>
    simp only
    rw [MountProvides.flagged_restatus]

theorem Report.apply_setStatus (w : Report) (h : Host) (u : Option Status) :
    w.apply { h with unitStatus := u } = w.apply h :=
  w.apply_restatus h u h.appStatus

theorem Report.apply_setAppStatus (w : Report) (h : Host) (a : Option Status) :
    w.apply { h with appStatus := a } = w.apply h :=
  w.apply_restatus h h.unitStatus a

/-! ## The plan of a pass -/

/-- The status the leader shows for the endpoint it integrates with. -/
def integrated (ep : Endpoint) : Status :=
  .active ("Integrated with `" ++ ep.info.kind.scheme ++ "` provider")

/-- The last steps of a pass, on a ready machine: the table of the one mount, applied, and the
workloads told. `shown` is the application's status so far. -/
def planMount (ep : Endpoint) (info : MountInfo) (shown : Option Status) (x : Executor) :
    Outcome Unit × Report × Executor :=
  match MountTable.empty.add ep.info info.mountpoint (MountOptions.ofMountInfo info) with
  | .error err => (.ok (), ⟨some (.blocked err.message), shown, some false⟩, x)
  | .ok table =>
    match x.reconcile table false with
    | (.error e, x') => (.error e, ⟨some (.maintenance "Mounting filesystem"), shown, none⟩, x')
    | (.ok _, x') =>
      (.ok (), ⟨some (.active ("Mounted filesystem at `" ++ info.mountpoint ++ "`")), shown,
        some true⟩, x')

/-- A pass once the endpoint is chosen: the mountpoint read from `h`, then the mount. `status`
and `shown` are the statuses so far. -/
def planEndpoint (h : Host) (ep : Endpoint) (status shown : Option Status) (x : Executor) :
    Outcome Unit × Report × Executor :=
  match (mountInfo.run.run h).1 with
  | .error e => (.error e, ⟨status, shown, none⟩, x)
  | .ok (.error s) => (.ok (), Report.ofStop h.leader s shown, x)
  | .ok (.ok info) => planMount ep info shown x

/-- A pass on a ready machine: the endpoint read from `h`, the leader's status for it, then
the rest. -/
def planReady (h : Host) (status : Option Status) (x : Executor) :
    Outcome Unit × Report × Executor :=
  match (endpoint.run.run h).1 with
  | .error e => (.error e, ⟨status, h.appStatus, none⟩, x)
  | .ok (.error s) => (.ok (), Report.ofStop h.leader s h.appStatus, x)
  | .ok (.ok ep) =>
    planEndpoint h ep status (if h.leader then some (integrated ep) else h.appStatus) x

/-- A whole pass: nothing on a platform that cannot mount, and otherwise the machine made ready
first. -/
def plan (h : Host) (x : Executor) : Outcome Unit × Report × Executor :=
  if !x.supported then
    (.ok (), ⟨some (.blocked "Cannot mount filesystems on LXD containers"), h.appStatus, none⟩,
      x)
  else if x.installed then planReady h (some (.maintenance "Updating status")) x
  else planReady h (some (.maintenance "Installing required packages")) x.install

/-- Plans read the host only through its reads. -/
theorem planEndpoint_congr {h g : Host} (ha : h.ReadsAlike g) (ep : Endpoint)
    (status shown : Option Status) (x : Executor) :
    planEndpoint g ep status shown x = planEndpoint h ep status shown x := by
  unfold planEndpoint
  rw [reads_mountInfo.alike h g ha, ha.leader]

theorem planReady_congr {h g : Host} (ha : h.ReadsAlike g) (happ : g.appStatus = h.appStatus)
    (status : Option Status) (x : Executor) : planReady g status x = planReady h status x := by
  unfold planReady
  rw [reads_endpoint.alike h g ha, ha.leader, happ]
  split <;> try rfl
  exact planEndpoint_congr ha _ _ _ _

/-! ## The parts of a pass -/

/-- The part of a pass after the mountpoint is known. -/
def mountAt (ep : Endpoint) (info : MountInfo) : CharmM Unit := do
  HostM.setStatus (.maintenance "Mounting filesystem")
  match MountTable.empty.add ep.info info.mountpoint (MountOptions.ofMountInfo info) with
  | .error err => stop (.blocked err.message false)
  | .ok table =>
    let _ ← CharmM.machine fun x => x.reconcile table false
    mount.setMountStatus true
    HostM.setStatus (.active ("Mounted filesystem at `" ++ info.mountpoint ++ "`"))

/-- The part of a pass after the endpoint is chosen and shown. -/
def mountEndpoint (ep : Endpoint) : CharmM Unit := do
  match ← (mountInfo : HostM _) with
  | .error s => stop s
  | .ok info => mountAt ep info

/-- The part of a pass once the machine is ready. -/
def mountReady : CharmM Unit := do
  match ← (endpoint : HostM _) with
  | .error s => stop s
  | .ok ep =>
    match ← HostM.leadership with
    | some token =>
      HostM.setAppStatus (.active ("Integrated with `" ++ ep.info.kind.scheme ++ "` provider"))
        token
      mountEndpoint ep
    | none => mountEndpoint ep

theorem converge_eq : converge = (do
    HostM.setStatus (.maintenance "Updating status")
    if !(← CharmM.observe Executor.supported) then
      HostM.setStatus (.blocked "Cannot mount filesystems on LXD containers")
      return
    if !(← CharmM.observe Executor.installed) then
      HostM.setStatus (.maintenance "Installing required packages")
      CharmM.change Executor.install
    mountReady) := rfl

/-! ## Runs of the parts -/

/-- A pass's outcome, host and machine, from its plan. -/
def written (p : Outcome Unit × Report × Executor) (h : Host) :
    Outcome Unit × Host × Executor :=
  (p.1, p.2.1.apply h, p.2.2)

section Runs

variable {α : Type} {g : Host}

theorem run_lift_setStatus (st : Status) (g : Host) (x : Executor) :
    (liftM (HostM.setStatus st) : CharmM Unit).run.run (g, x) =
      (.ok (), { g with unitStatus := some st }, x) := rfl

/-- A stop writes the flags, then the statuses. -/
theorem run_stop (hs : g.Sorted) (s : Stop) :
    (stop s).run.run g = (.ok (), (Report.ofStop g.leader s g.appStatus).apply g) := by
  unfold stop
  rw [run_bind_ok (mount.run_setMountStatus hs false)]
  have hl : (mount.flagged g false).leader = g.leader := (mount.readsAlike_flagged hs false).leader
  unfold Report.ofStop Report.apply
  cases happ : s.app with
  | false =>
    simp only [Bool.false_and, Bool.false_eq_true, ↓reduceIte]
    rw [← mount.appStatus_flagged (h := g) false]
    rfl
  | true =>
    cases hlead : g.leader with
    | false =>
      simp only [Bool.and_false, Bool.false_eq_true, ↓reduceIte]
      rw [run_bind_ok (show HostM.leadership.run.run (mount.flagged g false) =
        (.ok none, mount.flagged g false) by rw [HostM.run_leadership, hl, hlead]; rfl)]
      rw [← mount.appStatus_flagged (h := g) false]
      rfl
    | true =>
      simp only [Bool.and_true, ↓reduceIte]
      rw [run_bind_ok (HostM.run_leadership_of_leader (hl.trans hlead))]
      -- the leader shows the stop as the application's status too
      rw [run_bind_ok (HostM.run_setAppStatus_of_leader (hl.trans hlead) _ _)]
      rfl

/-- The last part of a pass runs as `planMount` says. -/
theorem run_mountAt (hs : g.Sorted) (ep : Endpoint) (info : MountInfo) (x : Executor) :
    (mountAt ep info).run.run (g, x) = written (planMount ep info g.appStatus x) g := by
  have hs₁ : ({ g with unitStatus := some (.maintenance "Mounting filesystem") } : Host).Sorted :=
    hs
  unfold mountAt planMount written
  rw [run_bind_ok (run_lift_setStatus _ g x)]
  split
  · -- the entry cannot be written: a stop that concerns the unit only
    rw [CharmM.run_liftM, run_stop hs₁]
    simp only [Report.ofStop]
    rw [Report.apply_setStatus]
    rfl
  · -- the entry is written: the machine reconciles the table, and a success flags the mount
    rename_i table _
    have hmachine : (CharmM.machine fun y => y.reconcile table false).run.run
        ({ g with unitStatus := some (.maintenance "Mounting filesystem") }, x) =
        ((x.reconcile table false).1,
          { g with unitStatus := some (.maintenance "Mounting filesystem") },
          (x.reconcile table false).2) := rfl
    rcases hrec : x.reconcile table false with ⟨e | applied, x'⟩
    · rw [hrec] at hmachine
      rw [run_bind_error hmachine]
      rfl
    · rw [hrec] at hmachine
      rw [run_bind_ok hmachine, run_bind_ok (mount.run_lift_setMountStatus hs₁ true x'),
        run_lift_setStatus]
      simp only [Report.apply]
      rw [show ({ g with unitStatus := some (.maintenance "Mounting filesystem") } : Host) =
          { g with
            unitStatus := some (.maintenance "Mounting filesystem")
            appStatus := g.appStatus } from rfl, mount.flagged_restatus]

/-- The part of a pass after the endpoint runs as `planEndpoint` says. -/
theorem run_mountEndpoint (hs : g.Sorted) (ep : Endpoint) (x : Executor) :
    (mountEndpoint ep).run.run (g, x) =
      written (planEndpoint g ep g.unitStatus g.appStatus x) g := by
  unfold mountEndpoint planEndpoint
  have hread : (liftM mountInfo : CharmM _).run.run (g, x) = ((mountInfo.run.run g).1, g, x) := by
    rw [CharmM.run_liftM, reads_mountInfo.readOnly g]
  rcases hmi : (mountInfo.run.run g).1 with e | s | info
  · rw [hmi] at hread
    rw [run_bind_error hread]
    rfl
  · rw [hmi] at hread
    rw [run_bind_ok hread, CharmM.run_liftM, run_stop hs]
    rfl
  · rw [hmi] at hread
    rw [run_bind_ok hread]
    exact run_mountAt hs ep info x

/-- The part of a pass on a ready machine runs as `planReady` says. -/
theorem run_mountReady (hs : g.Sorted) (x : Executor) :
    mountReady.run.run (g, x) = written (planReady g g.unitStatus x) g := by
  unfold mountReady planReady
  have hread : (liftM endpoint : CharmM _).run.run (g, x) = ((endpoint.run.run g).1, g, x) := by
    rw [CharmM.run_liftM, reads_endpoint.readOnly g]
  -- reading the endpoint fails, stops the pass, or gives the endpoint to mount from
  rcases hep : (endpoint.run.run g).1 with e | s | ep
  · rw [hep] at hread
    rw [run_bind_error hread]
    rfl
  · rw [hep] at hread
    rw [run_bind_ok hread, CharmM.run_liftM, run_stop hs]
    rfl
  · rw [hep] at hread
    rw [run_bind_ok hread]
    have hlead : (liftM HostM.leadership : CharmM _).run.run (g, x) =
        (.ok (if g.leader then some ⟨⟩ else none), g, x) := by
      rw [CharmM.run_liftM, HostM.run_leadership]
    cases hl : g.leader with
    | false =>
      -- a follower mounts at once
      rw [hl] at hlead
      rw [run_bind_ok hlead]
      exact run_mountEndpoint hs ep x
    | true =>
      rw [hl] at hlead
      rw [run_bind_ok hlead]
      simp only [↓reduceIte]
      -- the leader shows the endpoint's kind, then mounts from the host it left
      have hset : (liftM (HostM.setAppStatus
          (.active ("Integrated with `" ++ ep.info.kind.scheme ++ "` provider")) ⟨⟩) :
            CharmM Unit).run.run (g, x) =
            (.ok (), { g with appStatus := some (integrated ep) }, x) := by
        rw [CharmM.run_liftM, HostM.run_setAppStatus_of_leader hl]
        rfl
      have ha : g.ReadsAlike { g with appStatus := some (integrated ep) } :=
        Host.readsAlike_of_relations hs rfl rfl rfl rfl
      rw [run_bind_ok hset, run_mountEndpoint ha.sorted' ep x, planEndpoint_congr ha]
      unfold written
      rw [Report.apply_setAppStatus]

theorem run_observe {β : Type} (f : Executor → β) (g : Host) (x : Executor) :
    (CharmM.observe f).run.run (g, x) = (.ok (f x), g, x) := rfl

theorem run_change (f : Executor → Executor) (g : Host) (x : Executor) :
    (CharmM.change f).run.run (g, x) = (.ok (), g, f x) := rfl

end Runs

/-- A pass of converging writes its plan: the outcome, the report and the machine are those
that `plan` computes from what the pass reads. -/
theorem run_converge {h : Host} (hs : h.Sorted) (x : Executor) :
    converge.run.run (h, x) = written (plan h x) h := by
  rw [converge_eq, run_bind_ok (run_lift_setStatus _ h x), run_bind_ok (run_observe _ _ x)]
  unfold plan
  -- the pass follows the plan's three cases: an unsupported machine, a machine to install on,
  -- and one ready to mount
  cases hsup : x.supported with
  | false =>
    simp only [Bool.not_false, ↓reduceIte]
    rw [run_bind_ok (run_lift_setStatus _ _ x)]
    rfl
  | true =>
    simp only [Bool.not_true, Bool.false_eq_true, ↓reduceIte]
    rw [run_bind_ok (run_observe _ _ x)]
    -- the statuses written before the machine is ready are overwritten
    cases hinst : x.installed with
    | true =>
      simp only [Bool.not_true, Bool.false_eq_true, ↓reduceIte]
      have ha : h.ReadsAlike { h with unitStatus := some (.maintenance "Updating status") } :=
        Host.readsAlike_of_relations hs rfl rfl rfl rfl
      rw [run_mountReady ha.sorted' x, planReady_congr ha rfl]
      unfold written
      rw [Report.apply_setStatus]
    | false =>
      simp only [Bool.not_false, Bool.false_eq_true, ↓reduceIte]
      rw [run_bind_ok (run_lift_setStatus _ _ x), run_bind_ok (run_change _ _ x)]
      have ha : h.ReadsAlike
          { h with unitStatus := some (.maintenance "Installing required packages") } :=
        Host.readsAlike_of_relations hs rfl rfl rfl rfl
      rw [run_mountReady ha.sorted' x.install, planReady_congr ha rfl]
      unfold written
      rw [Report.apply_setStatus]

/-- The outcome, host and machine a pass ends with are those of its plan. -/
theorem eq_plan_of_converge {h h' : Host} {x x' : Executor} {o : Outcome Unit} (hs : h.Sorted)
    (hrun : converge.run.run (h, x) = (o, h', x')) :
    o = (plan h x).1 ∧ h' = (plan h x).2.1.apply h ∧ x' = (plan h x).2.2 := by
  rw [run_converge hs] at hrun
  unfold written at hrun
  obtain ⟨ho, hrest⟩ := Prod.mk.inj hrun
  obtain ⟨hh', hx'⟩ := Prod.mk.inj hrest
  exact ⟨ho.symm, hh'.symm, hx'.symm⟩

end FilesystemClient

end ShareBroker
