import ShareBroker.Proofs.Charm.ClientReads
import ShareBroker.Proofs.Interface.Requests
import ShareBroker.Proofs.Interface.ShareRedelivery
import ShareBroker.Proofs.Charm.ClientSettles
import ShareBroker.Charm.Kind

/-!
# A workload asks for its mountpoint

On a change of configuration the workload charm asks every filesystem client on its `mount`
endpoint to mount at the configured mountpoint: `MountClient.publishAll` calls
`MountRequires.setMountInfo` on each live relation in turn and stops at the first refusal,
showing it as the reason the unit is blocked.

`setMountInfo` compares a request with what the other live relations already carry, the
workload's own earlier requests included. So the first relation is checked against all the
others, and once it is written every later one agrees: a pass writes every relation or none
(`MountClient.run_publishAll_placed`, `MountClient.run_publishAll_refused`). A pass places
the request exactly when no live relation but the first carries another mountpoint
(`MountClient.Placeable`). In particular, with two or more relations carrying an old
mountpoint, a new one is never placed.

A dispatch first delivers the events deferred before, and each of them may ask again. Every
action of the charm either keeps the application's scopes or is such a pass, so along a
dispatch the scopes stay as they were, or every live relation carries the request
(`MountClient.Requesting`, a relation between the host a dispatch starts from and any host
it passes through).

## Key results

- `HostM.Keeps`: every run of an action ends in a host related to its start; built by
  `Keeps.bind` and `Keeps.forIn` for relations that chain (`Host.Chain`).
- `MountClient.run_requestMount_placed`, `MountClient.run_requestMount_refused`: one request
  pass, in closed form.
- `MountClient.dispatch_configChanged_requests`: a dispatch is one request pass from a host
  that `Requesting` relates to its start.
- `MountClient.config_changed_places_request`: what a successful dispatch of a configuration
  change leaves.
-/

namespace ShareBroker

/-! ## Actions that keep a relation to their start -/

/-- A relation between hosts that chains along a run: from a host related to itself it is
transitive, and it relates every host it reaches to itself. -/
structure Host.Chain (R : Host → Host → Prop) : Prop where
  trans : ∀ a b c, R a a → R a b → R b c → R a c
  post : ∀ a b, R a b → R b b

namespace HostM

/-- Every run of `m`, whether it succeeds or fails, from a host that `R` relates to itself ends
in a host that `R` relates its start to. -/
def Keeps {α : Type} (R : Host → Host → Prop) (m : HostM α) : Prop :=
  ∀ h, R h h → R h (m.run.run h).2

/-- `m` writes at most the unit's own side (its scopes, its status, its queue of deferred
events): it ends in a host that reads like its start, of the same application. -/
def UnitOnly {α : Type} (m : HostM α) : Prop :=
  ∀ h, h.Sorted → h.ReadsAlike (m.run.run h).2 ∧ (m.run.run h).2.app = h.app

section Keeps

variable {α β γ : Type} {R : Host → Host → Prop}

theorem keeps_of_readOnly {m : HostM α} (hm : ReadOnly m) : Keeps R m := by
  intro h hh
  rw [hm h]
  exact hh

theorem Keeps.bind (hR : Host.Chain R) {x : HostM α} {f : α → HostM β} (hx : Keeps R x)
    (hf : ∀ a, Keeps R (f a)) : Keeps R (x >>= f) := by
  intro h hh
  have h₁ := hx h hh
  rcases hrun : x.run.run h with ⟨e | a, g⟩ <;> rw [hrun] at h₁
  · rw [run_bind_error hrun]
    exact h₁
  · rw [run_bind_ok hrun]
    exact hR.trans _ _ _ hh h₁ (hf a g (hR.post _ _ h₁))

theorem Keeps.forIn (hR : Host.Chain R) (xs : List γ) (b : β) {f : γ → β → HostM (ForInStep β)}
    (hf : ∀ a b, Keeps R (f a b)) : Keeps R (forIn xs b f) := by
  induction xs generalizing b with
  | nil => exact keeps_of_readOnly (readOnly_pure b)
  | cons a xs ih =>
    rw [List.forIn_cons]
    refine (hf a b).bind hR fun step => ?_
    cases step with
    | done b' => exact keeps_of_readOnly (readOnly_pure b')
    | yield b' => exact ih b'

/-- An action on the unit's side keeps every relation that hosts reading alike satisfy. -/
theorem UnitOnly.keeps {m : HostM α} (hm : UnitOnly m)
    (hR : ∀ h g, R h h → h.ReadsAlike g → g.app = h.app → R h g)
    (hs : ∀ h, R h h → h.Sorted) : Keeps R m := by
  intro h hh
  obtain ⟨ha, happ⟩ := hm h (hs h hh)
  exact hR h _ hh ha happ

theorem unitOnly_of_readOnly {m : HostM α} (hm : ReadOnly m) : UnitOnly m := by
  intro h hs
  rw [hm h]
  exact ⟨Host.ReadsAlike.refl hs, rfl⟩

theorem UnitOnly.bind {x : HostM α} {f : α → HostM β} (hx : UnitOnly x)
    (hf : ∀ a, UnitOnly (f a)) : UnitOnly (x >>= f) := by
  intro h hs
  obtain ⟨ha, happ⟩ := hx h hs
  rcases hrun : x.run.run h with ⟨e | a, g⟩ <;> rw [hrun] at ha happ
  · rw [run_bind_error hrun]
    exact ⟨ha, happ⟩
  · rw [run_bind_ok hrun]
    obtain ⟨ha', happ'⟩ := hf a g ha.sorted'
    exact ⟨ha.trans ha', happ'.trans happ⟩

theorem UnitOnly.forIn (xs : List γ) (b : β) {f : γ → β → HostM (ForInStep β)}
    (hf : ∀ a b, UnitOnly (f a b)) : UnitOnly (forIn xs b f) := by
  induction xs generalizing b with
  | nil => exact unitOnly_of_readOnly (readOnly_pure b)
  | cons a xs ih =>
    rw [List.forIn_cons]
    refine (hf a b).bind fun step => ?_
    cases step with
    | done b' => exact unitOnly_of_readOnly (readOnly_pure b')
    | yield b' => exact ih b'

end Keeps

/-! ### Actions on the unit's side -/

theorem readOnly_cached (r : Relation) (own observed : Scope) :
    ReadOnly (cached r own observed) := by
  unfold cached
  refine (readOnly_read r own).bind fun mine => ?_
  split
  · split
    · exact readOnly_pure _
    · split
      · exact readOnly_pure _
      · exact readOnly_throw _
  · exact readOnly_pure _

theorem readOnly_ownUnit : ReadOnly ownUnit := fun _ => rfl

theorem readOnly_leadership : ReadOnly leadership := fun _ => rfl

theorem unitOnly_updateUnit (r : Relation) (u : Databag) : UnitOnly (updateUnit r u) := by
  intro h hs
  rw [run_updateUnit]
  split
  · exact ⟨Host.readsAlike_remoteUpdate hs r h.unit u, Host.app_modifyRelation h r _⟩
  · exact ⟨Host.ReadsAlike.refl hs, rfl⟩

theorem unitOnly_setStatus (st : Status) : UnitOnly (setStatus st) :=
  fun _ hs => ⟨Host.readsAlike_of_relations hs rfl rfl rfl rfl, rfl⟩

theorem unitOnly_defer (e : HostEvent) : UnitOnly (defer e) :=
  fun _ hs => ⟨Host.readsAlike_of_relations hs rfl rfl rfl rfl, rfl⟩

theorem unitOnly_takeDeferred : UnitOnly takeDeferred :=
  fun _ hs => ⟨Host.readsAlike_of_relations hs rfl rfl rfl rfl, rfl⟩

/-- Comparing a relation's scope with its snapshot writes at most the new snapshot. -/
theorem unitOnly_diff (r : Relation) (own observed : Scope) : UnitOnly (diff r own observed) := by
  unfold diff
  refine (unitOnly_of_readOnly (readOnly_read r observed)).bind fun new => ?_
  refine (unitOnly_of_readOnly (readOnly_cached r own _)).bind fun old => ?_
  dsimp only
  split
  · exact (unitOnly_updateUnit r _).bind fun _ => unitOnly_of_readOnly (readOnly_pure _)
  · exact unitOnly_of_readOnly (readOnly_pure _)

end HostM

namespace MountRequires

open HostM

/-- Comparing a provider unit's scope with its snapshot writes at most the new snapshot. -/
theorem unitOnly_providerChanged (r : Relation) (unit : String) :
    UnitOnly (providerChanged r unit) := by
  unfold providerChanged
  refine (unitOnly_of_readOnly readOnly_ownUnit).bind fun own => ?_
  refine (unitOnly_of_readOnly (readOnly_cached r own _)).bind fun _ => ?_
  refine (unitOnly_diff r own _).bind fun t => unitOnly_of_readOnly ?_
  -- past the snapshot, the signal is worked out from reads alone
  dsimp only
  split
  · exact (readOnly_pure _).bind fun _ => readOnly_pure _
  · split
    · refine (readOnly_read r _).bind fun _ => ?_
      split <;> exact (readOnly_pure _).bind fun _ => readOnly_pure _
    · exact (readOnly_pure _).bind fun _ => readOnly_pure _

/-- The workload's side of the mount interface writes nothing but its own snapshots. -/
theorem unitOnly_handle (side : MountRequires) (e : HostEvent) : UnitOnly (side.handle e) := by
  unfold handle
  split
  · exact unitOnly_of_readOnly (readOnly_pure _)
  dsimp only
  -- whatever the signal, the answer is built without touching the host
  have hjp : ∀ x : HostM (Option Negotiation.RequirerSignal), ReadOnly x →
      ∀ f : Option Negotiation.RequirerSignal → List MountRequiresEvent, UnitOnly (x >>= fun s => pure (f s)) :=
    fun x hx f => unitOnly_of_readOnly (hx.bind fun _ => readOnly_pure _)
  split
  · refine (unitOnly_of_readOnly readOnly_leadership).bind fun _ => ?_
    split <;> exact hjp _ (readOnly_pure _) _
  · refine (unitOnly_of_readOnly readOnly_leadership).bind fun _ => ?_
    split <;> exact hjp _ (readOnly_pure _) _
  · exact (unitOnly_providerChanged _ _).bind fun _ => unitOnly_of_readOnly (readOnly_pure _)
  · exact hjp _ (readOnly_pure _) _

end MountRequires

/-! ## A request that holds along a dispatch -/

namespace MountClient

variable {m : String} {d : Databag} {h g k : Host}

/-- The request for mountpoint `m` can be placed on `h`: no live `mount` relation but the
first requests another mountpoint, compared as JSON text. -/
def Placeable (m : String) (h : Host) : Prop :=
  ∀ o ∈ (h.liveOn mount.endpoint).tail,
    (h.bag o h.ownApp).get? mountpointKey = none ∨
      (h.bag o h.ownApp).get? mountpointKey = some (Json.str m).write

/-- Every live `mount` relation carries each field of the saved request `d` in the
application's scope. -/
def Settled (d : Databag) (h : Host) : Prop :=
  ∀ o, h.isLive o = true → o.endpoint = mount.endpoint →
    ∀ key v, d.get? key = some v → (h.bag o h.ownApp).get? key = some v

/-- From `h` to `h'` the unit goes on asking for `m`, saved as `d`: it leads, its configuration
names `m`, its relations are live as in `h`, and the application's scopes are those of `h` or,
when the request could be placed on `h`, carry it on every live `mount` relation. -/
structure Requesting (m : String) (d : Databag) (h h' : Host) : Prop where
  sorted : h'.Sorted
  leader : h'.leader = true
  loads : MountClientConfig.load h'.config = .ok ⟨some m⟩
  app : h'.app = h.app
  live : ∀ r, h'.isLive r = h.isLive r
  scopes : (∀ r, h'.bag r h'.ownApp = h.bag r h.ownApp) ∨ (Placeable m h ∧ Settled d h')

/-- Whether a request can be placed depends only on the live relations and the application's
scopes. -/
theorem placeable_congr (hs : h.Sorted) (hs' : g.Sorted) (hlive : ∀ r, g.isLive r = h.isLive r)
    (hbag : ∀ r, g.bag r g.ownApp = h.bag r h.ownApp) : Placeable m g ↔ Placeable m h := by
  unfold Placeable
  rw [hs.liveOn_eq hs' fun r _ => hlive r]
  simp only [hbag]

theorem Settled.congr (hset : Settled d h) (hlive : ∀ r, g.isLive r = h.isLive r)
    (hbag : ∀ r, g.bag r g.ownApp = h.bag r h.ownApp) : Settled d g := by
  intro o ho he
  rw [hbag]
  exact hset o ((hlive o).symm.trans ho) he

/-- Where every live relation carries the request, it can be placed again. -/
theorem Settled.placeable (hs : h.Sorted) (hmp : d.get? mountpointKey = some (Json.str m).write)
    (hset : Settled d h) : Placeable m h := by
  intro o ho
  have hmem := (hs.mem_liveOn _ o).1 (List.mem_of_mem_tail ho)
  exact .inr (hset o hmem.1 hmem.2 _ _ hmp)

theorem Requesting.trans (hh : Requesting m d h h) (hg : Requesting m d h g)
    (hk : Requesting m d g k) : Requesting m d h k where
  sorted := hk.sorted
  leader := hk.leader
  loads := hk.loads
  app := hk.app.trans hg.app
  live r := (hk.live r).trans (hg.live r)
  scopes := by
    rcases hg.scopes with hsame | ⟨hp, hset⟩
    · rcases hk.scopes with hsame' | ⟨hp', hset'⟩
      · exact .inl fun r => (hsame' r).trans (hsame r)
      · exact .inr ⟨(placeable_congr hh.sorted hg.sorted hg.live hsame).1 hp', hset'⟩
    · refine .inr ⟨hp, ?_⟩
      rcases hk.scopes with hsame' | ⟨-, hset'⟩
      · exact hset.congr hk.live hsame'
      · exact hset'

theorem Requesting.post (hg : Requesting m d h g) : Requesting m d g g :=
  ⟨hg.sorted, hg.leader, hg.loads, rfl, fun _ => rfl, .inl fun _ => rfl⟩

theorem requesting_chain : Host.Chain (Requesting m d) :=
  ⟨fun _ _ _ => Requesting.trans, fun _ _ => Requesting.post⟩

/-- A host that reads alike keeps the request as it was. -/
theorem Requesting.of_readsAlike (hh : Requesting m d h h) (ha : h.ReadsAlike g)
    (happ : g.app = h.app) : Requesting m d h g where
  sorted := ha.sorted'
  leader := ha.leader.trans hh.leader
  loads := by rw [ha.config]; exact hh.loads
  app := happ
  live := ha.isLive
  scopes := .inl fun r => by
    show g.bag r (.app g.app) = h.bag r (.app h.app)
    rw [happ]
    exact ha.appBag r h.app

theorem keeps_of_unitOnly {α : Type} {x : HostM α} (hx : HostM.UnitOnly x) :
    HostM.Keeps (Requesting m d) x :=
  hx.keeps (fun _ _ hh ha happ => hh.of_readsAlike ha happ) fun _ hh => hh.sorted

/-! ## One pass of requests -/

/-- The host after the request `d` is written into the application's scope of each of `rs`, in
turn. -/
def placed (d : Databag) (rs : List Relation) (h : Host) : Host :=
  rs.foldl (fun k r => k.remoteUpdate r k.ownApp d) h

/-- What every write of the application's scope keeps, a whole pass keeps. -/
theorem placed_keeps {β : Type} (f : Host → β) (hf : ∀ k r, f (k.remoteUpdate r k.ownApp d) = f k)
    (rs : List Relation) (h : Host) : f (placed d rs h) = f h := by
  induction rs generalizing h with
  | nil => rfl
  | cons r rs ih => exact (ih _).trans (hf h r)

theorem sorted_placed (hs : h.Sorted) (rs : List Relation) : (placed d rs h).Sorted := by
  induction rs generalizing h with
  | nil => exact hs
  | cons r rs ih => exact ih (hs.modifyRelation r _)

/-- A pass over distinct live relations merges the request into each of their application
scopes and leaves every other scope. -/
theorem bag_placed {rs : List Relation} (hlive : ∀ r ∈ rs, h.isLive r = true) (hnd : rs.Nodup)
    (o : Relation) :
    (placed d rs h).bag o (placed d rs h).ownApp =
      if o ∈ rs then (h.bag o h.ownApp).merge d else h.bag o h.ownApp := by
  induction rs generalizing h with
  | nil => simp [placed]
  | cons r rs ih =>
    obtain ⟨hr, hnd⟩ := List.nodup_cons.1 hnd
    have hlive' : ∀ r' ∈ rs, (h.remoteUpdate r h.ownApp d).isLive r' = true := fun r' hr' =>
      (Host.isLive_remoteUpdate h r _ d r').trans (hlive r' (List.mem_cons_of_mem r hr'))
    have hone := Host.bag_remoteUpdate (Host.isSome_state?_of_isLive (hlive r List.mem_cons_self))
      h.ownApp d
    show (placed d rs _).bag o (placed d rs _).ownApp = _
    rw [ih hlive' hnd, Host.ownApp_remoteUpdate, hone]
    by_cases ho : o = r
    · subst ho
      simp [hr]
    · simp [ho, Ne.symm ho]

end MountClient

namespace MountRequires

variable {side : MountRequires} {h : Host} {r : Relation} {info : MountInfo} {d : Databag}

/-- A saved mount request sets every field to a non-empty text. -/
theorem noEmpty_save_toJson (hd : Record.save info.toJson = .ok d) : d.NoEmpty := by
  have hbool : ∀ b : Bool, (Json.bool b).write ≠ "" := by
    intro b
    cases b <;> decide
  cases hd
  exact ((((Databag.noEmpty_empty.insert _ (Json.write_str_ne_empty _)).insert _ (hbool _)).insert _
    (hbool _)).insert _ (hbool _)).insert _ (hbool _)

/-- Every refusal names the other relation and the mountpoint it requests. -/
theorem refusal_eq_some {o : Relation} {e : Error} {w : String}
    (he : side.refusal h r w o = some e) : o ≠ r ∧ ∃ v,
      (h.bag o h.ownApp).get? mountpointKey = some v ∧ v ≠ w ∧
        e = .relationConflict side.endpoint
          ("`" ++ o.toString ++ "` already requests mountpoint " ++ v) := by
  unfold refusal at he
  split at he
  · rename_i hne
    cases hget : (h.bag o h.ownApp).get? mountpointKey with
    | none => simp [hget] at he
    | some v =>
      rw [hget, Option.bind_some] at he
      split at he
      · rename_i hv
        cases he
        exact ⟨bne_iff_ne.1 hne, v, rfl, bne_iff_ne.1 hv, rfl⟩
      · cases he
  · cases he

end MountRequires

namespace MountClient

variable {m : String} {d : Databag} {g : Host} {r : Relation} {rs : List Relation}

/-- The request can be placed exactly when checking it for the first relation finds no other
relation in the way. -/
theorem placeable_iff (hs : g.Sorted) (hlive : g.liveOn mount.endpoint = r :: rs) :
    Placeable m g ↔
      (g.liveOn mount.endpoint).findSome? (mount.refusal g r (Json.str m).write) = none := by
  have hnd : r ∉ rs := by
    have := (hs.liveOn_sorted mount.endpoint).nodup
    rw [hlive] at this
    exact (List.nodup_cons.1 this).1
  rw [MountRequires.findSome?_refusal_eq_none_iff hs]
  unfold Placeable
  rw [hlive, List.tail_cons]
  constructor
  · intro hp o ho he hne
    have hmem : o ∈ r :: rs := hlive ▸ (hs.mem_liveOn _ o).2 ⟨ho, he⟩
    rcases List.mem_cons.1 hmem with rfl | hmem
    · exact absurd rfl hne
    · exact hp o hmem
  · intro hall o ho
    obtain ⟨hl, he⟩ := (hs.mem_liveOn _ o).1 (hlive ▸ List.mem_cons_of_mem r ho)
    exact hall o hl he fun hor => hnd (hor ▸ ho)

/-- A request pass, with the configuration naming `m` and the unit leading. -/
theorem run_requestMount (hc : MountClientConfig.load g.config = .ok ⟨some m⟩) (hm : m ≠ "")
    (hl : g.leader = true) :
    requestMount.run.run g = (do
      match ← publishAll ⟨⟩ { mountpoint := m } (g.liveOn mount.endpoint) with
      | some reason => HostM.setStatus (.blocked reason)
      | none => HostM.setStatus (.active "")).run.run g := by
  have hf : (some m).filter (fun x => !x.isEmpty) = some m := by simp [hm]
  unfold requestMount
  rw [run_bind_ok (HostM.run_config g), hc, run_bind_ok (HostM.run_ofOutcome_ok _ g)]
  simp only [hf]
  rw [run_bind_ok (HostM.run_leadership_of_leader hl)]
  dsimp only
  rw [run_bind_ok (HostM.run_relationsOn "mount" g)]
  rfl

variable (hd : Record.save (MountInfo.toJson { mountpoint := m }) = .ok d)
include hd

/-- A pass over relations that all agree with the request, but perhaps the first, writes it
into each of them and reports no conflict. -/
theorem run_publishAll_placed (t : LeadershipToken) :
    ∀ (rs : List Relation) (g : Host), g.Sorted → g.leader = true → rs.Nodup →
      (∀ r ∈ rs, g.isLive r = true) →
      (∀ o, g.isLive o = true → o.endpoint = mount.endpoint → rs.head? ≠ some o →
        (g.bag o g.ownApp).get? mountpointKey = none ∨
          (g.bag o g.ownApp).get? mountpointKey = some (Json.str m).write) →
      (publishAll t { mountpoint := m } rs).run.run g = (.ok none, placed d rs g) := by
  obtain ⟨d', hd', hmp⟩ := MountRequires.exists_save_toJson { mountpoint := m }
  obtain rfl : d = d' := Except.ok.inj (hd.symm.trans hd')
  -- induction on the relations left; the invariant is that every relation but the next one
  -- requests nothing or `m`
  intro rs
  induction rs with
  | nil => intro g _ _ _ _ _; rfl
  | cons r rs ih =>
    intro g hs hl hnd hlive hagree
    have hr := hlive r List.mem_cons_self
    have ha : mount.Accepts g r { mountpoint := m } :=
      ⟨hl, hr, fun o ho he hne => hagree o ho he fun hh => hne (Option.some.inj hh).symm⟩
    simp only [publishAll]
    rw [run_bind_ok ((HostM.run_attempt _ g).trans (by
      rw [MountRequires.run_setMountInfo_of_accepts hs hd ha t]))]
    -- after the first write, every relation agrees with the request
    refine ih _ (hs.modifyRelation r _) ((Host.leader_modifyRelation g r _).trans hl)
      (List.nodup_cons.1 hnd).2
      (fun r' hr' => (Host.isLive_remoteUpdate g r _ d r').trans (hlive r' (List.mem_cons_of_mem r hr')))
      fun o ho he _ => ?_
    rw [Host.isLive_remoteUpdate] at ho
    by_cases hor : o = r
    · subst hor
      rw [Host.get?_remoteUpdate_ownApp ho hmp, if_neg (Json.write_str_ne_empty m)]
      exact .inr rfl
    · rw [Host.ownApp_remoteUpdate, Host.bag_remoteUpdate_of_ne (Ne.symm hor)]
      exact hagree o ho he fun hh => hor (Option.some.inj hh).symm

/-- When the request cannot be placed, the first relation's check meets another relation that
requests a different mountpoint: the pass reports it and writes nothing. -/
theorem run_publishAll_refused (hs : g.Sorted) (hlive : g.liveOn mount.endpoint = r :: rs)
    (hp : ¬ Placeable m g) (t : LeadershipToken) :
    ∃ o ∈ rs, ∃ v, (g.bag o g.ownApp).get? mountpointKey = some v ∧ v ≠ (Json.str m).write ∧
      (publishAll t { mountpoint := m } (r :: rs)).run.run g =
        (.ok (some ("`" ++ o.toString ++ "` already requests mountpoint " ++ v)), g) := by
  obtain ⟨d', hd', hmp⟩ := MountRequires.exists_save_toJson { mountpoint := m }
  obtain rfl : d = d' := Except.ok.inj (hd.symm.trans hd')
  rw [placeable_iff hs hlive] at hp
  obtain ⟨e, hfind⟩ := Option.ne_none_iff_exists'.1 hp
  obtain ⟨o, ho, he⟩ := List.exists_of_findSome?_eq_some hfind
  obtain ⟨hor, v, hv, hne, rfl⟩ := MountRequires.refusal_eq_some he
  have hmem : o ∈ rs := by
    rw [hlive] at ho
    exact (List.mem_cons.1 ho).resolve_left hor
  refine ⟨o, hmem, v, hv, hne, ?_⟩
  have hset : (mount.setMountInfo t r { mountpoint := m }).run.run g =
      (.error (.relationConflict mount.endpoint
        ("`" ++ o.toString ++ "` already requests mountpoint " ++ v)), g) := by
    rw [MountRequires.run_setMountInfo hs hd t, hmp, Option.getD_some, hfind, Option.elim_some]
  simp only [publishAll]
  rw [run_bind_ok ((HostM.run_attempt _ g).trans (by rw [hset]))]
  rfl

/-- A pass that can place the request writes it into every live `mount` relation and shows the
unit active. -/
theorem run_requestMount_placed (hs : g.Sorted) (hl : g.leader = true)
    (hc : MountClientConfig.load g.config = .ok ⟨some m⟩) (hm : m ≠ "") (hp : Placeable m g) :
    requestMount.run.run g =
      (.ok (), { placed d (g.liveOn mount.endpoint) g with unitStatus := some (.active "") }) := by
  -- every live relation but the first already agrees
  have hagree : ∀ o, g.isLive o = true → o.endpoint = mount.endpoint →
      (g.liveOn mount.endpoint).head? ≠ some o →
      (g.bag o g.ownApp).get? mountpointKey = none ∨
        (g.bag o g.ownApp).get? mountpointKey = some (Json.str m).write := by
    intro o ho he hne
    have hmem := (hs.mem_liveOn _ o).2 ⟨ho, he⟩
    cases hlive : g.liveOn mount.endpoint with
    | nil => rw [hlive] at hmem; cases hmem
    | cons r rs =>
      rw [hlive] at hmem hne
      refine hp o ?_
      rw [hlive]
      exact (List.mem_cons.1 hmem).resolve_left fun hor => hne (hor ▸ rfl)
  rw [run_requestMount hc hm hl, run_bind_ok (run_publishAll_placed hd ⟨⟩ _ g hs hl
    (hs.liveOn_sorted _).nodup (fun r hr => ((hs.mem_liveOn _ r).1 hr).1) hagree)]
  rfl

/-- A pass that cannot place the request writes nothing and shows the unit blocked by the
first relation, after the first, that requests another mountpoint. -/
theorem run_requestMount_refused (hs : g.Sorted) (hl : g.leader = true)
    (hc : MountClientConfig.load g.config = .ok ⟨some m⟩) (hm : m ≠ "") (hp : ¬ Placeable m g) :
    ∃ o ∈ (g.liveOn mount.endpoint).tail, ∃ v, (g.bag o g.ownApp).get? mountpointKey = some v ∧
      v ≠ (Json.str m).write ∧
      requestMount.run.run g = (.ok (), { g with unitStatus := some (.blocked
        ("`" ++ o.toString ++ "` already requests mountpoint " ++ v)) }) := by
  cases hlive : g.liveOn mount.endpoint with
  | nil =>
    refine absurd (fun o ho => ?_) hp
    rw [hlive] at ho
    cases ho
  | cons r rs =>
    obtain ⟨o, ho, v, hv, hne, hrun⟩ := run_publishAll_refused hd hs hlive hp ⟨⟩
    refine ⟨o, ho, v, hv, hne, ?_⟩
    rw [run_requestMount hc hm hl, hlive, run_bind_ok hrun]
    rfl

/-- After a pass that places the request, every live `mount` relation carries it. -/
theorem settled_placed (hg : Requesting m d g g) :
    Settled d { placed d (g.liveOn mount.endpoint) g with unitStatus := some (.active "") } := by
  obtain ⟨d', hd', -⟩ := MountRequires.exists_save_toJson { mountpoint := m }
  obtain rfl : d = d' := Except.ok.inj (hd.symm.trans hd')
  have hne := MountRequires.noEmpty_save_toJson hd
  -- a live relation of the endpoint was written once, and the request reads back
  intro o ho he key v hk
  replace ho : g.isLive o = true :=
    (placed_keeps (·.isLive o) (fun k r' => Host.isLive_remoteUpdate k r' _ d o) _ g).symm.trans ho
  show ((placed d _ g).bag o (placed d _ g).ownApp).get? key = some v
  rw [bag_placed (fun r hr => ((hg.sorted.mem_liveOn _ r).1 hr).1)
    (hg.sorted.liveOn_sorted _).nodup o, if_pos ((hg.sorted.mem_liveOn _ o).2 ⟨ho, he⟩),
    Databag.get?_merge_of_some hk, if_neg (hne.ne_of_get? hk)]

/-- Placing the request keeps asking for it. -/
theorem requesting_placed (hg : Requesting m d g g) (hp : Placeable m g) :
    Requesting m d g
      { placed d (g.liveOn mount.endpoint) g with unitStatus := some (.active "") } := by
  refine ⟨sorted_placed hg.sorted _, ?_, ?_, ?_, fun r => ?_, .inr ⟨hp, settled_placed hd hg⟩⟩
  · exact (placed_keeps Host.leader (fun k r => Host.leader_modifyRelation k r _) _ g).trans
      hg.leader
  · show MountClientConfig.load (placed d _ g).config = _
    rw [placed_keeps Host.config (fun k r => Host.config_modifyRelation k r _) _ g]
    exact hg.loads
  · exact placed_keeps Host.app (fun k r => Host.app_modifyRelation k r _) _ g
  · exact placed_keeps (·.isLive r) (fun k r' => Host.isLive_remoteUpdate k r' _ d r) _ g

/-- Every request pass keeps asking for the configured mountpoint. -/
theorem keeps_requestMount (hm : m ≠ "") : HostM.Keeps (Requesting m d) requestMount := by
  intro g hg
  by_cases hp : Placeable m g
  · rw [run_requestMount_placed hd hg.sorted hg.leader hg.loads hm hp]
    exact requesting_placed hd hg hp
  · obtain ⟨o, -, v, -, -, hrun⟩ := run_requestMount_refused hd hg.sorted hg.leader hg.loads hm hp
    rw [hrun]
    exact hg.of_readsAlike (Host.readsAlike_of_relations hg.sorted rfl rfl rfl rfl) rfl

/-- Whatever event the workload reacts to, it keeps asking for the configured mountpoint. -/
theorem keeps_handle (hm : m ≠ "") (e : HostEvent) : HostM.Keeps (Requesting m d) (handle e) := by
  unfold handle
  dsimp only
  split
  on_goal 1 => refine (keeps_requestMount hd hm).bind requesting_chain fun _ => ?_
  -- the reactions to the interface's events are request passes and statuses
  all_goals
    refine (keeps_of_unitOnly (MountRequires.unitOnly_handle _ e)).bind requesting_chain
      fun evs => ?_
    refine (HostM.Keeps.forIn requesting_chain evs _ fun ev _ => ?_).bind requesting_chain
      fun _ => keeps_of_unitOnly (HostM.unitOnly_of_readOnly (HostM.readOnly_pure _))
    split
    · exact (keeps_requestMount hd hm).bind requesting_chain fun _ =>
        keeps_of_unitOnly (HostM.unitOnly_of_readOnly (HostM.readOnly_pure _))
    all_goals exact keeps_of_unitOnly ((HostM.unitOnly_setStatus _).bind fun _ =>
      HostM.unitOnly_of_readOnly (HostM.readOnly_pure _))

omit hd in
/-- A configuration change is one request pass. -/
theorem run_handle_configChanged {g' : Host} (hrm : requestMount.run.run g = (.ok (), g')) :
    (handle .configChanged).run.run g = (.ok .done, g') := by
  unfold handle
  dsimp only
  rw [if_pos rfl, run_bind_ok hrm]
  rfl

end MountClient

/-! ## Along a dispatch -/

namespace CharmM

/-- Every run of `m`, whether it succeeds or fails, from a state whose host `R` relates to
itself ends with a host that `R` relates the starting host to. -/
def Keeps {α : Type} (R : Host → Host → Prop) (m : CharmM α) : Prop :=
  ∀ s, R s.1 s.1 → R s.1 (m.run.run s).2.1

section Keeps

variable {α β γ : Type} {R : Host → Host → Prop}

theorem keeps_pure (a : α) : Keeps R (pure a : CharmM α) := fun _ hs => hs

theorem keeps_throw (e : Error) : Keeps R (throw e : CharmM α) := fun _ hs => hs

/-- A host action keeps in a charm what it keeps on the host. -/
theorem keeps_host {m : HostM α} (hm : HostM.Keeps R m) : Keeps R (CharmM.host m) :=
  fun s hs => hm s.1 hs

theorem Keeps.bind (hR : Host.Chain R) {x : CharmM α} {f : α → CharmM β} (hx : Keeps R x)
    (hf : ∀ a, Keeps R (f a)) : Keeps R (x >>= f) := by
  intro s hs
  have h₁ := hx s hs
  rcases hrun : x.run.run s with ⟨e | a, s'⟩ <;> rw [hrun] at h₁
  · rw [run_bind_error hrun]
    exact h₁
  · rw [run_bind_ok hrun]
    exact hR.trans _ _ _ hs h₁ (hf a s' (hR.post _ _ h₁))

/-- A handler runs from the state the failure left. -/
theorem Keeps.tryCatch (hR : Host.Chain R) {x : CharmM α} {handler : Error → CharmM α}
    (hx : Keeps R x) (hh : ∀ e, Keeps R (handler e)) : Keeps R (tryCatch x handler) := by
  intro s hs
  have h₁ := hx s hs
  rcases hrun : x.run.run s with ⟨e | a, s'⟩ <;> rw [hrun] at h₁
  · rw [run_tryCatch_error hrun]
    exact hR.trans _ _ _ hs h₁ (hh e s' (hR.post _ _ h₁))
  · rw [run_tryCatch_ok hrun]
    exact h₁

theorem Keeps.forIn (hR : Host.Chain R) (xs : List γ) (b : β)
    {f : γ → β → CharmM (ForInStep β)} (hf : ∀ a b, Keeps R (f a b)) :
    Keeps R (forIn xs b f) := by
  induction xs generalizing b with
  | nil => exact keeps_pure b
  | cons a xs ih =>
    rw [List.forIn_cons]
    refine (hf a b).bind hR fun step => ?_
    cases step with
    | done b' => exact keeps_pure b'
    | yield b' => exact ih b'

variable {handle : HostEvent → CharmM Handled} (hR : Host.Chain R)
  (hdefer : ∀ e, HostM.Keeps R (HostM.defer e)) (hh : ∀ e, Keeps R (handle e))
include hR hdefer hh

theorem keeps_deliver (e : HostEvent) : Keeps R (deliver handle e) := by
  unfold deliver
  refine (hh e).bind hR fun a => ?_
  cases a with
  | done => exact keeps_pure ()
  | defer => exact keeps_host (hdefer e)

theorem keeps_redeliver (e : HostEvent) : Keeps R (redeliver handle e) := by
  unfold redeliver
  split
  · refine (keeps_host (HostM.keeps_of_readOnly (HostM.readOnly_relationsOn _))).bind hR
      fun _ => ?_
    split
    · exact keeps_deliver hR hdefer hh e
    · exact keeps_pure ()
  · exact keeps_deliver hR hdefer hh e

/-- Redelivery keeps what every delivery and every requeued event keeps, on its failure path
too. -/
theorem keeps_redeliverAll : ∀ ds, Keeps R (redeliverAll handle ds)
  | [] => keeps_pure ()
  | e :: rest => by
    simp only [redeliverAll, seqRight_eq_bind]
    refine (Keeps.tryCatch hR (keeps_redeliver hR hdefer hh e) fun err => ?_).bind hR
      fun _ => keeps_redeliverAll rest
    exact (Keeps.forIn hR _ _ fun d _ => (keeps_host (hdefer d)).bind hR fun _ =>
      keeps_pure _).bind hR fun _ => keeps_throw err

end Keeps

end CharmM

namespace MountClient

/-- A successful dispatch of a configuration change first delivers the deferred events, which
keep asking for `m`, and then makes one request pass: it ends where that pass ends, from a host
`g` that `Requesting` relates to the start. -/
theorem dispatch_configChanged_requests {h h' : Host} {x x' : Executor} {m : String}
    {d : Databag} (hd : Record.save (MountInfo.toJson { mountpoint := m }) = .ok d)
    (hm : m ≠ "") (hreq : Requesting m d h h)
    (hrun : (CharmKind.mountClient.run .configChanged).run.run (h, x) = (.ok (), (h', x'))) :
    ∃ g, Requesting m d h g ∧ ∀ {g' : Host}, requestMount.run.run g = (.ok (), g') → g' = h' := by
  have hk : ∀ e, CharmM.Keeps (Requesting m d) (CharmKind.mountClient.handle e) := fun e =>
    CharmM.keeps_host (keeps_handle hd hm e)
  have htake : (liftM HostM.takeDeferred : CharmM (List HostEvent)).run.run (h, x) =
      (.ok h.deferred, queueAs [] (h, x)) := rfl
  have h₀ : Requesting m d h (queueAs [] (h, x)).1 :=
    keeps_of_unitOnly HostM.unitOnly_takeDeferred h hreq
  unfold CharmKind.run dispatch at hrun
  rw [run_bind_ok htake] at hrun
  -- the queued events are redelivered first; a failure there would fail the dispatch
  rcases hall : (redeliverAll CharmKind.mountClient.handle h.deferred).run.run
    (queueAs [] (h, x)) with ⟨err | u, ⟨g, y⟩⟩
  · rw [run_bind_error hall] at hrun
    cases hrun
  rw [run_bind_ok hall] at hrun
  -- every redelivery, and every event it puts back, keeps asking for `m`
  have hg : Requesting m d h g := by
    have := CharmM.keeps_redeliverAll requesting_chain
      (fun e => keeps_of_unitOnly (HostM.unitOnly_defer e)) hk h.deferred _ h₀.post
    rw [hall] at this
    exact hreq.trans h₀ this
  refine ⟨g, hg, fun {g'} hrm => ?_⟩
  have hcharm : (CharmKind.mountClient.handle .configChanged).run.run (g, y) =
      (.ok .done, (g', y)) := by
    rw [CharmKind.handle, CharmM.run_host, run_handle_configChanged hrm]
  rw [run_deliver_done hcharm] at hrun
  exact (Prod.mk.inj (Prod.mk.inj hrun).2).1

/-- What a successful dispatch of a configuration change leaves, for a leader whose
configuration names a mountpoint `m`. When no live `mount` relation but the first requests
another mountpoint at the start, every live `mount` relation carries the saved request and the
unit is active. Otherwise no application scope changes, and the unit is blocked by a relation
after the first that requests another mountpoint, named with what it requests. Events deferred
before are delivered first; the workload's reactions to them never change which case holds. -/
theorem config_changed_places_request {h h' : Host} {x x' : Executor} (hh : h.Reachable)
    (hl : h.leader = true) {m : String} (hc : MountClientConfig.load h.config = .ok ⟨some m⟩)
    (hm : m ≠ "") {d : Databag} (hd : Record.save (MountInfo.toJson { mountpoint := m }) = .ok d)
    (hrun : (CharmKind.mountClient.run .configChanged).run.run (h, x) = (.ok (), (h', x'))) :
    (Placeable m h → Settled d h' ∧ h'.unitStatus = some (.active "")) ∧
      (¬ Placeable m h → (∀ r, h'.bag r h'.ownApp = h.bag r h.ownApp) ∧
        ∃ o ∈ (h.liveOn mount.endpoint).tail, ∃ v,
          (h.bag o h.ownApp).get? mountpointKey = some v ∧ v ≠ (Json.str m).write ∧
          h'.unitStatus =
            some (.blocked ("`" ++ o.toString ++ "` already requests mountpoint " ++ v))) := by
  obtain ⟨d', hd', hmp⟩ := MountRequires.exists_save_toJson { mountpoint := m }
  obtain rfl : d = d' := Except.ok.inj (hd.symm.trans hd')
  have hreq : Requesting m d h h := ⟨hh.sorted, hl, hc, rfl, fun _ => rfl, .inl fun _ => rfl⟩
  -- the dispatch reaches `requestMount` at some `g` that reads as `h` does, and ends with it
  obtain ⟨g, hg, hlast⟩ := dispatch_configChanged_requests hd hm hreq hrun
  constructor
  · -- placeable at `h` is placeable at `g`, so the request is written everywhere
    intro hp
    have hpg : Placeable m g := by
      rcases hg.scopes with hsame | ⟨-, hset⟩
      · exact (placeable_congr hreq.sorted hg.sorted hg.live hsame).2 hp
      · exact hset.placeable hg.sorted hmp
    obtain rfl := hlast (run_requestMount_placed hd hg.sorted hg.leader hg.loads hm hpg)
    exact ⟨settled_placed hd hg.post, rfl⟩
  · -- not placeable: no request was written on the way, and the first conflict blocks
    intro hp
    have hsame : ∀ r, g.bag r g.ownApp = h.bag r h.ownApp :=
      hg.scopes.resolve_right fun hs => hp hs.1
    have hpg : ¬ Placeable m g := fun hpg =>
      hp ((placeable_congr hreq.sorted hg.sorted hg.live hsame).1 hpg)
    obtain ⟨o, ho, v, hv, hne, hrm⟩ :=
      run_requestMount_refused hd hg.sorted hg.leader hg.loads hm hpg
    obtain rfl := hlast hrm
    rw [hreq.sorted.liveOn_eq hg.sorted fun r _ => hg.live r] at ho
    exact ⟨hsame, o, ho, v, hsame o ▸ hv, hne, rfl⟩

/-- A leader related to two clients, configured for `/data`, asks both. -/
theorem config_changed_places_request_two_clients :
    let h := HostOp.apply (.setConfig (.map [(.str "mountpoint", .str "/data")])) <|
      HostOp.apply (.addRelation "mount" "client-b") <|
      HostOp.apply (.addRelation "mount" "client-a") <|
      HostOp.apply (.setLeader true) <| Host.new "workload" "workload/0"
    let d := Databag.ofList [(mountpointKey, "\"/data\""), ("noexec", "false"),
      ("nosuid", "false"), ("nodev", "false"), ("read_only", "false")]
    let run := (CharmKind.mountClient.run .configChanged).run.run (h, {})
    h.Reachable ∧ h.leader = true ∧
      MountClientConfig.load h.config = .ok ⟨some "/data"⟩ ∧ "/data" ≠ "" ∧
      Record.save (MountInfo.toJson { mountpoint := "/data" }) = .ok d ∧ run.1.isOk = true ∧
      (Placeable "/data" h → Settled d run.2.1 ∧ run.2.1.unitStatus = some (.active "")) ∧
      (¬ Placeable "/data" h → (∀ r, run.2.1.bag r run.2.1.ownApp = h.bag r h.ownApp) ∧
        ∃ o ∈ (h.liveOn mount.endpoint).tail, ∃ v,
          (h.bag o h.ownApp).get? mountpointKey = some v ∧ v ≠ (Json.str "/data").write ∧
          run.2.1.unitStatus =
            some (.blocked ("`" ++ o.toString ++ "` already requests mountpoint " ++ v))) := by
  intro h d run
  have hh : h.Reachable := .step _ (.step _ (.step _ (.step _ (.new _ _))))
  have hc : MountClientConfig.load h.config = .ok ⟨some "/data"⟩ := rfl
  have hd : Record.save (MountInfo.toJson { mountpoint := "/data" }) = .ok d := rfl
  have hok : run.1.isOk = true := by decide +kernel
  have hrun : (CharmKind.mountClient.run .configChanged).run.run (h, {}) =
      (.ok (), run.2.1, run.2.2) := Prod.ext (FilesystemClient.eq_ok_of_isOk hok) rfl
  exact ⟨hh, rfl, hc, by decide, hd, hok,
    config_changed_places_request hh rfl hc (by decide) hd hrun⟩

/-- Two clients were asked for `/data`, and the configuration now says `/srv`. The first
relation is checked against the second, which still requests `/data`: the dispatch succeeds
with the unit blocked, and both relations go on requesting `/data`. -/
theorem config_change_blocked_by_own_requests :
    let asked := HostOp.apply (.setConfig (.map [(.str "mountpoint", .str "/data")])) <|
      HostOp.apply (.addRelation "mount" "client-b") <|
      HostOp.apply (.addRelation "mount" "client-a") <|
      HostOp.apply (.setLeader true) <| Host.new "workload" "workload/0"
    let first := (CharmKind.mountClient.run .configChanged).run.run (asked, {})
    let h := HostOp.apply (.setConfig (.map [(.str "mountpoint", .str "/srv")])) first.2.1
    let run := (CharmKind.mountClient.run .configChanged).run.run (h, first.2.2)
    first.1.isOk = true ∧ h.leader = true ∧ run.1.isOk = true ∧
      run.2.1.unitStatus = some (.blocked "`mount:1` already requests mountpoint \"/data\"") ∧
      (run.2.1.bag ⟨"mount", 0⟩ run.2.1.ownApp).get? mountpointKey = some "\"/data\"" ∧
      (run.2.1.bag ⟨"mount", 1⟩ run.2.1.ownApp).get? mountpointKey = some "\"/data\"" := by
  intro asked first h run
  decide +kernel

end MountClient

end ShareBroker
