import ShareBroker.Proofs.Interface.FailedWrites
import ShareBroker.Proofs.Interface.ShareRedelivery
import ShareBroker.Charm.FilesystemClient

/-!
# What the filesystem client reads

Converging reads the configuration, leadership, the secrets, which relations are live, their
remote applications and the scopes those applications write. What it writes is statuses and
its own unit's scope, none of which it reads. `Host.ReadsAlike h g` says that `g` agrees with
`h` on everything the client reads, and `HostM.Reads m` that `m` writes nothing and answers
alike on such hosts. The two reads of the client, `FilesystemClient.endpoint` and
`FilesystemClient.mountInfo`, are built by `Reads.bind` and `Reads.forIn` from primitives that
read.

What they answer when they name a filesystem and a mountpoint:

- `FilesystemClient.endpoint_eq_ok`: the usable endpoints have distinct kinds, and the one
  chosen is of the least kind;
- `FilesystemClient.mountInfo_eq_ok`: the mountpoint comes from the configuration when no
  workload is related, or from the one related workload when the configuration names none;
- `FilesystemClient.endpoint_eq_stop`, `FilesystemClient.mountInfo_eq_stop`: when they name
  none, the unit is shown blocked or waiting.
-/

namespace ShareBroker

/-- A run of `x >>= f` that succeeds ran `x` to a success and then `f`. -/
theorem run_bind_eq_ok {σ α β : Type} {x : ExceptT Error (StateM σ) α}
    {f : α → ExceptT Error (StateM σ) β} {s s' : σ} {b : β}
    (h : (x >>= f).run.run s = (.ok b, s')) :
    ∃ a s₁, x.run.run s = (.ok a, s₁) ∧ (f a).run.run s₁ = (.ok b, s') := by
  rcases hx : x.run.run s with ⟨e | a, s₁⟩
  · rw [run_bind_error hx] at h
    cases h
  · exact ⟨a, s₁, rfl, by rwa [run_bind_ok hx] at h⟩

/-! ## Hosts that read alike -/

namespace Host

/-- `g` agrees with `h` on everything the filesystem client reads. Both list their relations
in order, so the live relations of an endpoint are listed alike. -/
structure ReadsAlike (h g : Host) : Prop where
  sorted : h.Sorted
  sorted' : g.Sorted
  config : g.config = h.config
  leader : g.leader = h.leader
  vault : g.vault = h.vault
  isLive : ∀ r, g.isLive r = h.isLive r
  remoteApp : ∀ r, (g.state? r).map (·.remoteApp) = (h.state? r).map (·.remoteApp)
  appBag : ∀ r a, g.bag r (.app a) = h.bag r (.app a)

variable {h g k : Host}

theorem ReadsAlike.refl (hs : h.Sorted) : h.ReadsAlike h :=
  ⟨hs, hs, rfl, rfl, rfl, fun _ => rfl, fun _ => rfl, fun _ _ => rfl⟩

theorem ReadsAlike.trans (hg : h.ReadsAlike g) (hk : g.ReadsAlike k) : h.ReadsAlike k :=
  ⟨hg.sorted, hk.sorted', hk.config.trans hg.config, hk.leader.trans hg.leader,
    hk.vault.trans hg.vault, fun r => (hk.isLive r).trans (hg.isLive r),
    fun r => (hk.remoteApp r).trans (hg.remoteApp r),
    fun r a => (hk.appBag r a).trans (hg.appBag r a)⟩

theorem ReadsAlike.liveOn (ha : h.ReadsAlike g) (endpoint : String) :
    g.liveOn endpoint = h.liveOn endpoint :=
  ha.sorted.liveOn_eq ha.sorted' fun r _ => ha.isLive r

/-- A change that keeps the relations, the configuration, leadership and the secrets, such as
a status, reads alike. -/
theorem readsAlike_of_relations (hs : h.Sorted) (hrel : g.relations = h.relations)
    (hc : g.config = h.config) (hl : g.leader = h.leader) (hv : g.vault = h.vault) :
    h.ReadsAlike g := by
  have hst := state?_congr hrel
  refine ⟨hs, ?_, hc, hl, hv, fun r => isLive_congr (hst r), fun r => by rw [hst r],
    fun r a => bag_congr (hst r) _⟩
  unfold Sorted
  rw [hrel]
  exact hs

/-- A write into a scope that is no application's, such as the unit's own, reads alike. -/
theorem readsAlike_remoteUpdate (hs : h.Sorted) (r : Relation) (unit : String) (u : Databag) :
    h.ReadsAlike (h.remoteUpdate r (.unit unit) u) := by
  refine ⟨hs, hs.modifyRelation r _, config_modifyRelation h r _, leader_modifyRelation h r _,
    vault_modifyRelation h r _, isLive_remoteUpdate h r _ u, fun r' => ?_, fun r' a => ?_⟩
  · rw [remoteUpdate, state?_modifyRelation]
    split
    · rename_i heq
      subst heq
      rw [Option.map_map]
      rfl
    · rfl
  · rw [bag_eq, bag_eq, remoteUpdate, state?_modifyRelation]
    split
    · rename_i heq
      subst heq
      cases h.state? r with
      | none => rfl
      | some st =>
        simp only [Option.map_some, Option.getD_some, RelationState.bag_merge]
        rw [if_neg (by simp)]
    · rfl

end Host

/-! ## Reads -/

namespace HostM

/-- `m` writes nothing, and answers alike on hosts that read alike. -/
structure Reads {α : Type} (m : HostM α) : Prop where
  readOnly : ReadOnly m
  alike : ∀ h g, h.ReadsAlike g → (m.run.run g).1 = (m.run.run h).1

section Reads

variable {α β γ : Type}

/-- A read runs to its answer and leaves the host as it was. -/
theorem Reads.run_of_fst {m : HostM α} (hm : Reads m) {h : Host} {a : Except Error α}
    (ha : (m.run.run h).1 = a) : m.run.run h = (a, h) :=
  Prod.ext ha (hm.readOnly h)

theorem reads_pure (a : α) : Reads (pure a : HostM α) := ⟨readOnly_pure a, fun _ _ _ => rfl⟩

theorem reads_throw (e : Error) : Reads (throw e : HostM α) :=
  ⟨readOnly_throw e, fun _ _ _ => rfl⟩

theorem reads_ofOutcome (o : Outcome α) : Reads (ofOutcome o) := by
  refine ⟨readOnly_ofOutcome o, fun _ _ _ => ?_⟩
  cases o <;> rfl

theorem reads_relationsOn (endpoint : String) : Reads (relationsOn endpoint) :=
  ⟨readOnly_relationsOn endpoint, fun _ _ ha => congrArg Except.ok (ha.liveOn endpoint)⟩

theorem reads_remoteApp (r : Relation) : Reads (remoteApp r) :=
  ⟨fun _ => rfl, fun _ _ ha => congrArg Except.ok (ha.remoteApp r)⟩

theorem reads_config : Reads config :=
  ⟨fun _ => rfl, fun _ _ ha => congrArg Except.ok ha.config⟩

/-- Reading an application's scope. -/
theorem reads_read_app (r : Relation) (app : String) : Reads (read r (.app app)) := by
  refine ⟨readOnly_read r _, fun h g ha => ?_⟩
  cases hr : h.isLive r with
  | true =>
    rw [run_read_of_isLive hr, run_read_of_isLive ((ha.isLive r).trans hr), ha.appBag]
  | false =>
    rw [run_read_of_not_isLive hr, run_read_of_not_isLive ((ha.isLive r).trans hr)]

/-- Reading the host itself, for its secrets only. -/
theorem reads_get_bind {f : Host → HostM β} (hf : ∀ s, Reads (f s))
    (hv : ∀ s t, s.vault = t.vault → f s = f t) : Reads (get >>= f) := by
  refine ⟨fun h => ?_, fun h g ha => ?_⟩
  · rw [run_get_bind]
    exact (hf h).readOnly h
  · rw [run_get_bind, run_get_bind, hv g h ha.vault]
    exact (hf h).alike h g ha

theorem Reads.bind {x : HostM α} {f : α → HostM β} (hx : Reads x) (hf : ∀ a, Reads (f a)) :
    Reads (x >>= f) := by
  refine ⟨hx.readOnly.bind fun a => (hf a).readOnly, fun h g ha => ?_⟩
  -- both runs of `x` answer alike and stay where they started
  have hxh : x.run.run h = ((x.run.run h).1, h) := Prod.ext rfl (hx.readOnly h)
  have hxg : x.run.run g = ((x.run.run h).1, g) := Prod.ext (hx.alike h g ha) (hx.readOnly g)
  rcases hres : (x.run.run h).1 with e | a
  · rw [hres] at hxh hxg
    rw [run_bind_error hxh, run_bind_error hxg]
  · rw [hres] at hxh hxg
    rw [run_bind_ok hxh, run_bind_ok hxg]
    exact (hf a).alike h g ha

/-- A loop whose every pass reads reads. -/
theorem Reads.forIn (xs : List γ) (b : β) {f : γ → β → HostM (ForInStep β)}
    (hf : ∀ a b, Reads (f a b)) : Reads (forIn xs b f) := by
  induction xs generalizing b with
  | nil => exact reads_pure b
  | cons a xs ih =>
    rw [List.forIn_cons]
    refine (hf a b).bind fun step => ?_
    cases step with
    | done b' => exact reads_pure b'
    | yield b' => exact ih b'

theorem run_attempt (m : HostM α) (h : Host) :
    (attempt m).run.run h = (.ok (m.run.run h).1, (m.run.run h).2) := rfl

theorem Reads.attempt {m : HostM α} (hm : Reads m) : Reads (attempt m) := by
  refine ⟨fun h => ?_, fun h g ha => ?_⟩
  · rw [run_attempt]
    exact hm.readOnly h
  · rw [run_attempt, run_attempt, hm.alike h g ha]

end Reads

end HostM

open HostM

/-! ## The reads of the filesystem client -/

theorem FilesystemRequires.reads_endpoints (side : FilesystemRequires) : Reads side.endpoints := by
  unfold FilesystemRequires.endpoints
  refine (reads_relationsOn _).bind fun rs => (Reads.forIn rs _ fun r found => ?_).bind
    fun _ => reads_pure _
  refine (reads_remoteApp r).bind fun app => ?_
  split
  · exact reads_pure _
  · refine (reads_read_app r _).bind fun data => ?_
    split
    · split
      · -- the URI is decoded with the secrets the host holds
        refine reads_get_bind (fun s => ?_) fun s t hst => by rw [hst]
        split
        · exact reads_pure _
        · exact reads_pure _
      · exact reads_pure _
    · exact reads_pure _

theorem FilesystemRequires.reads_endpointsByType (side : FilesystemRequires) :
    Reads side.endpointsByType := by
  unfold FilesystemRequires.endpointsByType
  refine side.reads_endpoints.bind fun eps => (Reads.forIn eps _ fun e byKind => ?_).bind
    fun _ => reads_pure _
  dsimp only
  split
  · exact (reads_throw _).bind fun _ => reads_pure _
  · exact reads_pure _

theorem MountProvides.reads_mountInfo (side : MountProvides) (r : Relation) :
    Reads (side.mountInfo r) := by
  unfold MountProvides.mountInfo
  refine (reads_remoteApp r).bind fun app => ?_
  split
  · exact reads_pure _
  · refine (reads_read_app r _).bind fun data => ?_
    split
    · split
      · exact reads_pure _
      · exact (reads_ofOutcome _).bind fun _ => reads_pure _
    · exact reads_pure _

namespace FilesystemClient

theorem reads_endpoint : Reads endpoint := by
  unfold endpoint
  refine filesystem.reads_endpointsByType.attempt.bind fun o => ?_
  split
  · exact reads_pure _
  · exact reads_throw _
  · split
    · exact reads_pure _
    · exact reads_pure _

theorem reads_mountInfo : Reads mountInfo := by
  unfold mountInfo
  refine reads_config.bind fun c => (reads_ofOutcome _).bind fun config => ?_
  refine (reads_relationsOn _).bind fun rs => ?_
  split
  · split
    · exact reads_pure _
    · exact (mount.reads_mountInfo _).bind fun info => by
        split
        · exact reads_pure _
        · exact reads_pure _
    · exact reads_pure _
  · split
    · exact reads_pure _
    · exact reads_pure _

end FilesystemClient

/-! ## Filing endpoints by kind -/

theorem FsKind.rank_injective : Function.Injective FsKind.rank := by
  intro a b hab
  cases a <;> cases b <;> first | rfl | cases hab

namespace FilesystemRequires

/-- Endpoints filed by kind: the kinds strictly ascending, each endpoint under its own kind. -/
def Filed (l : List (FsKind × Endpoint)) : Prop :=
  l.Pairwise (fun a b => a.1.rank < b.1.rank) ∧ ∀ p ∈ l, p.1 = p.2.info.kind

theorem insertByKind_perm (e : Endpoint) (l : List (FsKind × Endpoint)) :
    (insertByKind e l).Perm ((e.info.kind, e) :: l) := by
  induction l with
  | nil => exact List.Perm.refl _
  | cons q l ih =>
    simp only [insertByKind]
    split
    · exact List.Perm.refl _
    · exact (ih.cons q).trans (List.Perm.swap _ _ _)

/-- Filing an endpoint of a kind not yet filed keeps the filing in kind order. -/
theorem Filed.insertByKind {l : List (FsKind × Endpoint)} (hl : Filed l) {e : Endpoint}
    (hnew : ∀ p ∈ l, p.1 ≠ e.info.kind) : Filed (insertByKind e l) := by
  refine ⟨?_, fun p hp => ?_⟩
  · induction l with
    | nil => exact List.pairwise_singleton _ _
    | cons q l ih =>
      obtain ⟨k, e'⟩ := q
      obtain ⟨hq, hrest⟩ := List.pairwise_cons.1 hl.1
      simp only [FilesystemRequires.insertByKind]
      split
      · rename_i hlt
        refine List.Pairwise.cons (fun p hp => ?_) hl.1
        rcases List.mem_cons.1 hp with rfl | hp
        · exact hlt
        · exact hlt.trans (hq p hp)
      · rename_i hge
        -- the new kind differs from `k`, so it ranks strictly above it
        have hne : k.rank ≠ e.info.kind.rank := fun h =>
          hnew (k, e') List.mem_cons_self (FsKind.rank_injective h)
        refine List.Pairwise.cons (fun p hp => ?_) (ih ⟨hrest, fun p hp => hl.2 p
          (List.mem_cons_of_mem _ hp)⟩ fun p hp => hnew p (List.mem_cons_of_mem _ hp))
        rcases List.mem_cons.1 ((insertByKind_perm e l).mem_iff.1 hp) with rfl | hp
        · show k.rank < e.info.kind.rank
          omega
        · exact hq p hp
  · rcases List.mem_cons.1 ((insertByKind_perm e l).mem_iff.1 hp) with rfl | hp
    · rfl
    · exact hl.2 p hp

/-- Kinds strictly ascending are distinct. -/
theorem Filed.nodup_kinds {l : List (FsKind × Endpoint)} (hl : Filed l) :
    (l.map (·.2.info.kind)).Nodup := by
  have hkinds : l.map (·.2.info.kind) = l.map (·.1) :=
    List.map_congr_left fun p hp => (hl.2 p hp).symm
  rw [hkinds]
  exact List.Pairwise.map _ (fun a b hab heq => by rw [heq] at hab; omega) hl.1

/-- The filing loop of `endpointsByType`, from what one pass does: it refuses an endpoint of a
kind already filed and files any other. A run that succeeds files every endpoint, in kind
order. -/
theorem run_forIn_filed
    {body : Endpoint → List (FsKind × Endpoint) →
      HostM (ForInStep (List (FsKind × Endpoint)))}
    (hbody : ∀ e acc h step h', (body e acc).run.run h = (.ok step, h') →
      (∀ p ∈ acc, p.1 ≠ e.info.kind) ∧
        step = .yield (FilesystemRequires.insertByKind e acc)) :
    ∀ (eps : List Endpoint) (acc l : List (FsKind × Endpoint)) (h h' : Host),
      (forIn eps acc body).run.run h = (.ok l, h') → Filed acc →
        Filed l ∧ (l.map (·.2)).Perm (acc.map (·.2) ++ eps) := by
  intro eps
  induction eps with
  | nil =>
    intro acc l h h' hrun hacc
    obtain ⟨hl, -⟩ := Prod.mk.inj hrun
    obtain rfl := Except.ok.inj hl
    simp only [List.append_nil]
    exact ⟨hacc, List.Perm.refl _⟩
  | cons e rest ih =>
    intro acc l h h' hrun hacc
    rw [List.forIn_cons] at hrun
    obtain ⟨step, h₁, hstep, hnext⟩ := run_bind_eq_ok hrun
    obtain ⟨hnew, rfl⟩ := hbody e acc h step h₁ hstep
    -- the rest is filed after `e`
    obtain ⟨hl, hperm⟩ := ih _ l h₁ h' hnext (hacc.insertByKind hnew)
    refine ⟨hl, hperm.trans ?_⟩
    have hins := (List.Perm.map (·.2) (insertByKind_perm e acc)).append_right rest
    exact hins.trans (by simpa using List.perm_middle.symm)

end FilesystemRequires

namespace FilesystemClient

open FilesystemRequires

/-- A run of the filing that succeeds, read from the endpoints it started with. -/
theorem run_endpointsByType_ok {h h' : Host} {l : List (FsKind × Endpoint)}
    (hrun : filesystem.endpointsByType.run.run h = (.ok l, h')) :
    ∃ eps, filesystem.endpoints.run.run h = (.ok eps, h) ∧ Filed l ∧
      (l.map (·.2)).Perm eps := by
  unfold FilesystemRequires.endpointsByType at hrun
  obtain ⟨eps, h₁, heps, hloop⟩ := run_bind_eq_ok hrun
  obtain rfl : h = h₁ := by
    have := filesystem.reads_endpoints.readOnly h
    rw [heps] at this
    exact this.symm
  obtain ⟨l', h₂, hfiled, hpure⟩ := run_bind_eq_ok hloop
  obtain rfl : l' = l := Except.ok.inj (Prod.mk.inj hpure).1
  refine ⟨eps, heps, ?_⟩
  have hpass := run_forIn_filed (fun e acc g step g' hstep => by
      dsimp only at hstep
      split at hstep
      · rw [run_throw_bind] at hstep
        cases hstep
      · rename_i hany
        obtain ⟨hstep, -⟩ := Prod.mk.inj hstep
        refine ⟨fun p hp hk => hany (List.any_eq_true.2 ⟨p, hp, by simp [hk]⟩),
          (Except.ok.inj hstep).symm⟩)
    eps [] l' h h₂ hfiled ⟨List.Pairwise.nil, fun _ h => by cases h⟩
  simpa using hpass

/-- The endpoint the client mounts: the usable endpoints have distinct kinds, and it is one of
them, of the least kind. -/
theorem endpoint_eq_ok {h h' : Host} {e : Endpoint}
    (hrun : endpoint.run.run h = (.ok (.ok e), h')) :
    ∃ eps, filesystem.endpoints.run.run h = (.ok eps, h) ∧ (eps.map (·.info.kind)).Nodup ∧
      e ∈ eps ∧ ∀ e' ∈ eps, e.info.kind.rank ≤ e'.info.kind.rank := by
  unfold endpoint at hrun
  rw [run_bind_ok (run_attempt _ h), filesystem.reads_endpointsByType.readOnly h] at hrun
  have hbt : filesystem.endpointsByType.run.run h =
      ((filesystem.endpointsByType.run.run h).1, h) :=
    filesystem.reads_endpointsByType.run_of_fst rfl
  rcases hres : (filesystem.endpointsByType.run.run h).1 with err | l
  · -- a conflict is a stop, and any other failure is thrown
    rw [hres] at hrun
    cases err <;> cases hrun
  · rw [hres] at hrun hbt
    obtain ⟨eps, heps, hfiled, hperm⟩ := run_endpointsByType_ok hbt
    -- the first entry of the filing is the endpoint chosen
    cases l with
    | nil => cases hrun
    | cons p rest =>
      obtain ⟨k, ep⟩ := p
      obtain ⟨he, -⟩ := Prod.mk.inj hrun
      obtain rfl : ep = e := Except.ok.inj (Except.ok.inj he)
      have hmem : ∀ e', e' ∈ eps ↔ e' = ep ∨ e' ∈ rest.map (·.2) := fun e' => by
        rw [← hperm.mem_iff]
        simp
      have hkinds : ((((k, ep) :: rest).map (·.2)).map (·.info.kind)).Nodup := by
        rw [List.map_map]
        exact hfiled.nodup_kinds
      refine ⟨eps, heps, (hperm.map (·.info.kind)).nodup_iff.1 hkinds, (hmem ep).2 (.inl rfl),
        fun e' he' => ?_⟩
      rcases (hmem e').1 he' with rfl | he'
      · exact le_rfl
      · obtain ⟨q, hq, rfl⟩ := List.mem_map.1 he'
        have hlt := (List.pairwise_cons.1 hfiled.1).1 q hq
        rw [hfiled.2 (k, ep) List.mem_cons_self, hfiled.2 q (List.mem_cons_of_mem _ hq)] at hlt
        exact hlt.le

/-- When no endpoint is chosen, the client is blocked. -/
theorem endpoint_eq_stop {h h' : Host} {s : Stop}
    (hrun : endpoint.run.run h = (.ok (.error s), h')) : ∃ m, s.status = .blocked m := by
  unfold endpoint at hrun
  rw [run_bind_ok (run_attempt _ h), filesystem.reads_endpointsByType.readOnly h] at hrun
  rcases hres : (filesystem.endpointsByType.run.run h).1 with err | l
  · rw [hres] at hrun
    cases err with
    | relationConflict endpoint reason =>
      obtain ⟨hs, -⟩ := Prod.mk.inj hrun
      obtain rfl := Except.error.inj (Except.ok.inj hs)
      exact ⟨reason, rfl⟩
    | _ => cases hrun
  · rw [hres] at hrun
    cases l with
    | nil =>
      obtain ⟨hs, -⟩ := Prod.mk.inj hrun
      obtain rfl := Except.error.inj (Except.ok.inj hs)
      exact ⟨_, rfl⟩
    | cons p rest => cases hrun

/-- Where the client mounts: from the configuration when no workload is related, with the
configured flags, or from the one related workload when the configuration names no
mountpoint. -/
theorem mountInfo_eq_ok {h h' : Host} {info : MountInfo}
    (hrun : mountInfo.run.run h = (.ok (.ok info), h')) :
    ∃ cfg, ClientConfig.load h.config = .ok cfg ∧
      ((∃ p, cfg.mountpoint = some p ∧ p ≠ "" ∧ h.liveOn mount.endpoint = [] ∧
          info = ⟨p, cfg.noexec, cfg.nosuid, cfg.nodev, cfg.readOnly⟩) ∨
        ((∀ p, cfg.mountpoint = some p → p = "") ∧ ∃ r, h.liveOn mount.endpoint = [r] ∧
          (mount.mountInfo r).run.run h = (.ok (some info), h))) := by
  unfold mountInfo at hrun
  rw [run_bind_ok (HostM.run_config h)] at hrun
  -- a configuration that does not load ends the pass with its error
  cases hload : ClientConfig.load h.config with
  | error err =>
    rw [hload] at hrun
    cases hrun
  | ok cfg =>
    rw [hload, run_bind_ok (HostM.run_ofOutcome_ok cfg h),
      run_bind_ok (HostM.run_relationsOn _ h)] at hrun
    refine ⟨cfg, rfl, ?_⟩
    split at hrun
    · -- no mountpoint is configured: the one related workload names it
      rename_i hnone
      have hempty : ∀ p, cfg.mountpoint = some p → p = "" := fun p hp => by
        rw [hp] at hnone
        simpa [Option.filter] using hnone
      refine .inr ⟨hempty, ?_⟩
      -- no workload, or more than one, is a stop and not a mountpoint
      split at hrun
      · cases hrun
      · rename_i r hlive
        -- the workload's request read with an error, or absent, is not a mountpoint either
        rcases hres : ((mount.mountInfo r).run.run h).1 with err | _ | info'
        · rw [run_bind_error ((mount.reads_mountInfo r).run_of_fst hres)] at hrun
          cases hrun
        · rw [run_bind_ok ((mount.reads_mountInfo r).run_of_fst hres)] at hrun
          cases hrun
        · rw [run_bind_ok ((mount.reads_mountInfo r).run_of_fst hres)] at hrun
          obtain ⟨hi, -⟩ := Prod.mk.inj hrun
          obtain rfl := Except.ok.inj (Except.ok.inj hi)
          exact ⟨r, hlive, (mount.reads_mountInfo r).run_of_fst hres⟩
      · cases hrun
    · -- a mountpoint is configured, and no workload may be related
      rename_i p hsome
      split at hrun
      · cases hrun
      · -- the configured mountpoint is taken with the configured flags
        rename_i hrel
        obtain ⟨hi, -⟩ := Prod.mk.inj hrun
        obtain rfl := Except.ok.inj (Except.ok.inj hi)
        obtain ⟨hp, hne⟩ := Option.filter_eq_some_iff.1 hsome
        refine .inl ⟨p, hp, fun h => by simp [h] at hne, ?_, rfl⟩
        simpa using hrel

/-- When no mountpoint is known, the client is blocked, or waits for the related workload. -/
theorem mountInfo_eq_stop {h h' : Host} {s : Stop}
    (hrun : mountInfo.run.run h = (.ok (.error s), h')) :
    (∃ m, s.status = .blocked m) ∨ ∃ m, s.status = .waiting m := by
  unfold mountInfo at hrun
  rw [run_bind_ok (HostM.run_config h)] at hrun
  cases hload : ClientConfig.load h.config with
  | error err =>
    rw [hload] at hrun
    cases hrun
  | ok cfg =>
    rw [hload, run_bind_ok (HostM.run_ofOutcome_ok cfg h),
      run_bind_ok (HostM.run_relationsOn _ h)] at hrun
    -- every stop of the two sources, read off the branch that returns it
    split at hrun
    · split at hrun
      · obtain ⟨hs, -⟩ := Prod.mk.inj hrun
        obtain rfl := Except.error.inj (Except.ok.inj hs)
        exact .inl ⟨_, rfl⟩
      · -- one workload that has asked for nothing yet: the client waits for it
        rename_i r _
        rcases hres : ((mount.mountInfo r).run.run h).1 with err | _ | info'
        · rw [run_bind_error ((mount.reads_mountInfo r).run_of_fst hres)] at hrun
          cases hrun
        · rw [run_bind_ok ((mount.reads_mountInfo r).run_of_fst hres)] at hrun
          obtain ⟨hs, -⟩ := Prod.mk.inj hrun
          obtain rfl := Except.error.inj (Except.ok.inj hs)
          exact .inr ⟨_, rfl⟩
        · rw [run_bind_ok ((mount.reads_mountInfo r).run_of_fst hres)] at hrun
          cases hrun
      · obtain ⟨hs, -⟩ := Prod.mk.inj hrun
        obtain rfl := Except.error.inj (Except.ok.inj hs)
        exact .inl ⟨_, rfl⟩
    · split at hrun
      · obtain ⟨hs, -⟩ := Prod.mk.inj hrun
        obtain rfl := Except.error.inj (Except.ok.inj hs)
        exact .inl ⟨_, rfl⟩
      · cases hrun

end FilesystemClient

end ShareBroker
