import ShareBroker.Proofs.Host.Follower
import ShareBroker.Proofs.Host.Order
import ShareBroker.Proofs.Host.Change
import ShareBroker.Proofs.Filesystem.Uri
import ShareBroker.Interface.Filesystem

/-!
# What a filesystem provider publishes

A provider publishes a record `i` as one URI: sealed, pointing at a host secret that holds the
record's credentials, when the host has secrets and the record has credentials; inline
otherwise. `FilesystemProvides.setInfo` keeps that URI and the secret's id in the first peer
relation, writes the URI into every live relation on the endpoint and grants the secret to it;
a relation that joins later is served from the peer copy, and a broken one loses its grant.

The invariant comes in three layers: `Prepared` (the host facts and the secret), `Keeps` (the
peer copy as well) and `Serving` (every live relation on the endpoint published to and
granted). `Succeeds m s Q` says that an action succeeds, with a result that satisfies `Q`.

* `FilesystemProvides.setInfo_serves`: `setInfo` succeeds and leaves the provider serving;
* `FilesystemProvides.Serving.joinAll`: so does serving relations that join, one after another;
* `FilesystemProvides.Serving.endpoints_mirror`: a requirer across a served relation reads the
  record, under the published URI;
* `FilesystemProvides.publishes_to_every_requirer`: the whole story, with the secret's grants
  and their revocation.
-/

namespace ShareBroker

/-! ## Actions that succeed -/

section Succeeds

variable {σ α β γ : Type}

/-- Run from `s`, the action `m` succeeds, with a value and a final state that satisfy `Q`. -/
def Succeeds (m : ExceptT Error (StateM σ) α) (s : σ) (Q : α → σ → Prop) : Prop :=
  ∃ a s', m.run.run s = (.ok a, s') ∧ Q a s'

theorem Succeeds.of_run {m : ExceptT Error (StateM σ) α} {s s' : σ} {a : α}
    (h : m.run.run s = (.ok a, s')) {Q : α → σ → Prop} (hq : Q a s') : Succeeds m s Q :=
  ⟨a, s', h, hq⟩

theorem Succeeds.pure {a : α} {s : σ} {Q : α → σ → Prop} (hq : Q a s) :
    Succeeds (Pure.pure a : ExceptT Error (StateM σ) α) s Q :=
  ⟨a, s, rfl, hq⟩

theorem Succeeds.bind {x : ExceptT Error (StateM σ) α} {f : α → ExceptT Error (StateM σ) β}
    {s : σ} {Q : α → σ → Prop} {R : β → σ → Prop} (hx : Succeeds x s Q)
    (hf : ∀ a s', Q a s' → Succeeds (f a) s' R) : Succeeds (x >>= f) s R := by
  obtain ⟨a, s', hrun, hq⟩ := hx
  obtain ⟨b, s'', hrun', hr⟩ := hf a s' hq
  exact ⟨b, s'', (run_bind_ok hrun f).trans hrun', hr⟩

/-- A first action whose run is known hands its result on. -/
theorem Succeeds.bind_of_run {x : ExceptT Error (StateM σ) α}
    {f : α → ExceptT Error (StateM σ) β} {s s' : σ} {a : α} (hx : x.run.run s = (.ok a, s')) {R : β → σ → Prop}
    (hf : Succeeds (f a) s' R) : Succeeds (x >>= f) s R := by
  unfold Succeeds
  rw [run_bind_ok hx f]
  exact hf

theorem Succeeds.mono {m : ExceptT Error (StateM σ) α} {s : σ} {Q R : α → σ → Prop}
    (h : Succeeds m s Q) (hqr : ∀ a s', Q a s' → R a s') : Succeeds m s R := by
  obtain ⟨a, s', hrun, hq⟩ := h
  exact ⟨a, s', hrun, hqr a s' hq⟩

/-- A loop whose body always goes on succeeds when each pass keeps an invariant of the
elements done so far. -/
theorem Succeeds.forIn {xs : List γ}
    {f : γ → PUnit → ExceptT Error (StateM σ) (ForInStep PUnit)} {I : List γ → σ → Prop}
    (hstep : ∀ pre x rest s, pre ++ x :: rest = xs → I pre s →
      Succeeds (f x ⟨⟩) s fun step s' => step = .yield ⟨⟩ ∧ I (pre ++ [x]) s')
    {s : σ} (hs : I [] s) : Succeeds (ForIn.forIn xs ⟨⟩ f) s fun _ s' => I xs s' := by
  -- run on what is left of `xs`, from any state that the part done leaves
  suffices h : ∀ rest pre s, pre ++ rest = xs → I pre s →
      Succeeds (ForIn.forIn rest ⟨⟩ f) s fun _ s' => I xs s' from h xs [] s rfl hs
  intro rest
  induction rest with
  | nil =>
    intro pre s hpre hs
    rw [List.append_nil] at hpre
    subst hpre
    rw [List.forIn_nil]
    exact Succeeds.pure hs
  | cons x rest ih =>
    intro pre s hpre hs
    rw [List.forIn_cons]
    refine (hstep pre x rest s hpre hs).bind fun step s' hpost => ?_
    obtain ⟨hyield, hs'⟩ := hpost
    subst hyield
    exact ih (pre ++ [x]) s' (by rw [List.append_assoc]; exact hpre) hs'

end Succeeds

/-! ## Hosts -/

namespace Host

variable {h : Host}

theorem leader_modifyRelation (h : Host) (r : Relation) (f : RelationState → RelationState) :
    (h.modifyRelation r f).leader = h.leader := by
  unfold modifyRelation
  split <;> rfl

theorem app_modifyRelation (h : Host) (r : Relation) (f : RelationState → RelationState) :
    (h.modifyRelation r f).app = h.app := by
  unfold modifyRelation
  split <;> rfl

theorem ownApp_modifyRelation (h : Host) (r : Relation) (f : RelationState → RelationState) :
    (h.modifyRelation r f).ownApp = h.ownApp := by
  rw [ownApp, ownApp, app_modifyRelation]

theorem isLive_congr {h' : Host} {r : Relation} (hst : h'.state? r = h.state? r) :
    h'.isLive r = h.isLive r := by
  unfold isLive
  rw [hst]

theorem state?_congr {h' : Host} (hrel : h'.relations = h.relations) (r : Relation) :
    h'.state? r = h.state? r := by
  rw [state?, state?, hrel]

theorem bag_congr {h' : Host} {r : Relation} (hst : h'.state? r = h.state? r) (s : Scope) :
    h'.bag r s = h.bag r s := by
  rw [bag_eq, bag_eq, hst]

theorem ownApp_remoteUpdate (h : Host) (r : Relation) (s : Scope) (u : Databag) :
    (h.remoteUpdate r s u).ownApp = h.ownApp :=
  ownApp_modifyRelation h r _

/-- Writing `u` into the application's scope of a live relation: a key that `u` sets reads
back as set, or as gone when set to the empty value. -/
theorem get?_remoteUpdate_ownApp {r : Relation} (hr : h.isLive r = true) {u : Databag}
    {k v : String} (hk : u.get? k = some v) :
    ((h.remoteUpdate r h.ownApp u).bag r (h.remoteUpdate r h.ownApp u).ownApp).get? k =
      if v = "" then none else some v := by
  rw [ownApp_remoteUpdate, bag_remoteUpdate (isSome_state?_of_isLive hr), if_pos ⟨rfl, rfl⟩,
    Databag.get?_merge_of_some hk]

/-- A write into one relation leaves every other relation's scopes. -/
theorem bag_remoteUpdate_of_ne {r r' : Relation} (hne : r ≠ r') (s : Scope) (u : Databag)
    (s' : Scope) : (h.remoteUpdate r s u).bag r' s' = h.bag r' s' := by
  rw [bag_eq, bag_eq, remoteUpdate, state?_modifyRelation, if_neg hne]

/-- A write leaves which relations are listed on each endpoint. -/
theorem Sorted.liveOn_remoteUpdate (hs : h.Sorted) (r : Relation) (s : Scope) (u : Databag)
    (endpoint : String) : (h.remoteUpdate r s u).liveOn endpoint = h.liveOn endpoint :=
  hs.liveOn_eq (hs.modifyRelation r _) fun r' _ => isLive_remoteUpdate h r s u r'

theorem Sorted.mem_of_head?_liveOn (hs : h.Sorted) {endpoint : String} {p : Relation}
    (hp : (h.liveOn endpoint).head? = some p) : h.isLive p = true ∧ p.endpoint = endpoint :=
  (hs.mem_liveOn endpoint p).1 (List.mem_of_mem_head? hp)

/-! ### The mirror across one relation -/

theorem isLive_mirror (h : Host) (app unit : String) (r : Relation) :
    (h.mirror app unit r).isLive r = true := by
  simp [isLive, state?, mirror]

theorem liveOn_mirror (h : Host) (app unit : String) (r : Relation) :
    (h.mirror app unit r).liveOn r.endpoint = [r] := by
  simp [liveOn, mirror]

theorem remoteApp_mirror (h : Host) (app unit : String) (r : Relation) :
    ((h.mirror app unit r).state? r).map (·.remoteApp) = some h.app := by
  simp [state?, mirror]

/-- The mirror sees the application's scope of the relation as the host wrote it. -/
theorem bag_mirror_ownApp (h : Host) (app unit : String) (r : Relation) :
    (h.mirror app unit r).bag r (.app h.app) = h.bag r h.ownApp := by
  have hempty : ∀ d : Databag, d.isEmpty = true → Databag.empty = d := by
    rintro ⟨_ | _⟩ hd
    · rfl
    · simp [Databag.isEmpty] at hd
  rw [bag_eq]
  simp only [state?, mirror, List.find?_cons, beq_self_eq_true, Option.map_some,
    Option.getD_some, List.filterMap_cons, List.filterMap_nil, ownApp, ownUnit]
  -- only whether each of the two scopes is empty matters
  by_cases ha : (h.bag r (.app h.app)).isEmpty = true
  · -- an empty scope is not copied, and reads as empty
    by_cases hu : (h.bag r (.unit h.unit)).isEmpty = true <;>
      simp [ha, hu, RelationState.bag, RelationState.putBag, hempty _ ha]
  · by_cases hu : (h.bag r (.unit h.unit)).isEmpty = true <;>
      simp [ha, hu, RelationState.bag, RelationState.putBag, Scope.lt]

end Host

theorem HostM.run_ownApp (h : Host) : HostM.ownApp.run.run h = (.ok h.ownApp, h) := rfl

theorem HostM.run_leadership_of_leader {h : Host} (hl : h.leader = true) :
    HostM.leadership.run.run h = (.ok (some ⟨⟩), h) := by
  simp only [HostM.leadership, HostM.run_get_bind, hl, ↓reduceIte, HostM.run_pure]

theorem HostM.run_modifyGet {α : Type} (f : Host → α × Host) (h : Host) :
    (modifyGet f : HostM α).run.run h = (.ok (f h).1, (f h).2) := rfl

theorem HostM.run_remoteApp (r : Relation) (h : Host) :
    (HostM.remoteApp r).run.run h = (.ok ((h.state? r).map (·.remoteApp)), h) := rfl

theorem HostM.run_ofOutcome_ok {α : Type} (a : α) (h : Host) :
    (HostM.ofOutcome (.ok a)).run.run h = (.ok a, h) := rfl

theorem HostM.run_secretsAvailable (h : Host) :
    HostM.secretsAvailable.run.run h = (.ok h.secretsAvailable, h) := rfl

theorem HostM.run_ensureSecret_of_available {h : Host} (ha : h.secretsAvailable = true)
    (c : Databag) (l : String) : (HostM.ensureSecret c l).run.run h =
      (.ok (h.vault.ensure c l).1, { h with vault := (h.vault.ensure c l).2 }) := by
  rw [HostM.run_ensureSecret, if_pos ha]

/-- With secrets, content is stored under its label and pointed at. -/
theorem HostM.run_conceal_of_available {h : Host} (ha : h.secretsAvailable = true)
    (c : Databag) (l : String) : (HostM.conceal c l).run.run h =
      (.ok (.secret (h.vault.ensure c l).1), { h with vault := (h.vault.ensure c l).2 }) := by
  rw [HostM.conceal, run_bind_ok (HostM.run_secretsAvailable h)]
  simp only [ha, ↓reduceIte]
  rw [run_bind_ok (HostM.run_ensureSecret_of_available ha c l), ha]
  rfl

/-- Without secrets, content travels inline. -/
theorem HostM.run_conceal_of_unavailable {h : Host} (ha : h.secretsAvailable = false)
    (c : Databag) (l : String) : (HostM.conceal c l).run.run h = (.ok (.plain c), h) := by
  rw [HostM.conceal, run_bind_ok (HostM.run_secretsAvailable h)]
  simp only [ha, Bool.false_eq_true, ↓reduceIte]
  rfl

theorem Vault.mem_insertRelation {r r' : Relation} {l : List Relation} :
    r' ∈ Vault.insertRelation r l ↔ r' = r ∨ r' ∈ l := by
  induction l with
  | nil => simp [Vault.insertRelation]
  | cons x l ih =>
    unfold Vault.insertRelation
    split
    · simp
    · split
      · rename_i heq
        subst heq
        simp
      · simp only [List.mem_cons, ih]
        exact or_left_comm

/-! ## Records as URIs -/

namespace FsInfo

theorem encode_ne_empty (i : FsInfo) (auth : Option SecretRef) : i.encode auth ≠ "" := by
  intro h
  have := congrArg String.length h
  simp [encode] at this

theorem toUri_ne_empty (i : FsInfo) : i.toUri ≠ "" := encode_ne_empty i _

theorem toUriSealed_ne_empty (i : FsInfo) (id : String) : i.toUriSealed id ≠ "" := by
  unfold toUriSealed
  split <;> exact encode_ne_empty i _

/-- The inline URI of a valid record reads back through any store: it carries its credentials
itself. -/
theorem fromUriWith_toUri {i : FsInfo} (hv : i.validate = .ok ())
    (lookup : String → Outcome Databag) : fromUriWith i.toUri lookup = .ok i := by
  cases i with
  | nfs h p path => exact (decode_encode_eq_ok (readFields_nfs _ _ h p path none) _).2 ⟨rfl, hv⟩
  | cephfs fsid name path ms user key =>
    obtain ⟨huser, hkey⟩ := secretContent_get? user key
    exact (decode_encode_eq_ok (readFields_cephfs _ fsid name path ms user key
      (SecretRef.parse_plain _) rfl huser hkey) _).2 ⟨rfl, hv⟩
  | lustre mgs fsName =>
    exact (decode_encode_eq_ok (readFields_lustre _ _ mgs fsName none) _).2 ⟨rfl, hv⟩

end FsInfo

namespace FilesystemProvides

/-! ## Publishing in two steps -/

/-- The URI a record is published as and the secret behind it: sealed when the host has
secrets and the record has credentials, inline otherwise. -/
def publication (i : FsInfo) : HostM (String × Option String) :=
  match i.secretContent with
  | some content => do
    match ← HostM.conceal content infoSecretLabel with
    | .secret id => pure (i.toUriSealed id, some id)
    | .plain _ => pure (i.toUri, none)
  | none => pure (i.toUri, none)

/-- Keeps the URI and the secret's id in the first peer relation, then publishes the URI on
every live relation of the endpoint. -/
def spread (side : FilesystemProvides) (token : LeadershipToken) (uri : String)
    (secret : Option String) : HostM Unit := do
  match (← HostM.relationsOn side.peers).head? with
  | some peer =>
    HostM.updateApp peer (Databag.ofList [(endpointKey, uri), (secretKey, secret.getD "")]) token
  | none => pure ()
  for r in ← HostM.relationsOn side.endpoint do
    publish token r uri secret

theorem setInfo_eq (side : FilesystemProvides) (token : LeadershipToken) (i : FsInfo) :
    side.setInfo token i = (do
      HostM.ofOutcome i.validate
      let (uri, secret) ← publication i
      side.spread token uri secret) := by
  unfold setInfo publication spread
  congr 1
  funext u
  cases i.secretContent with
  | none => rfl
  | some content =>
    simp only [bind_assoc]
    congr 1
    funext ref
    cases ref <;> rfl

/-! ## The provider's invariant -/

/-- The relation carries `uri` in the application's scope. -/
def Published (uri : String) (h : Host) (r : Relation) : Prop :=
  (h.bag r h.ownApp).get? endpointKey = some uri

/-- The relation is granted the secret `secret` names, if it names one. -/
def Granted (secret : Option String) (h : Host) (r : Relation) : Prop :=
  ∀ id, secret = some id → ∃ s, h.vault.get? id = some s ∧ r ∈ s.grants

/-- A host ready to publish `i` as `uri`, with the secret `secret` behind it: the host facts
every step relies on, and the secret holding the record's credentials under the provider's
label. -/
structure Prepared (i : FsInfo) (uri : String) (secret : Option String) (h : Host) : Prop where
  leader : h.leader = true
  sorted : h.Sorted
  vault : h.vault.WellFormed
  sealed : ∀ id, secret = some id →
    ∃ s, h.vault.get? id = some s ∧ s.label = infoSecretLabel ∧ i.secretContent = some s.content
  uri_eq : uri = secret.elim i.toUri i.toUriSealed

/-- What a provider that published `i` as `uri` keeps: a prepared host whose first peer
relation holds the URI and the secret's id. -/
structure Keeps (side : FilesystemProvides) (i : FsInfo) (uri : String) (secret : Option String)
    (h : Host) : Prop extends Prepared i uri secret h where
  peer : ∃ p, (h.liveOn side.peers).head? = some p ∧
    (h.bag p h.ownApp).get? endpointKey = some uri ∧ (h.bag p h.ownApp).get? secretKey = secret

/-- A provider serves `i` as `uri` when it keeps it and every live relation on its endpoint
carries the URI and is granted the secret. -/
structure Serving (side : FilesystemProvides) (i : FsInfo) (uri : String)
    (secret : Option String) (h : Host) : Prop extends Keeps side i uri secret h where
  published : ∀ r, h.isLive r = true → r.endpoint = side.endpoint → Published uri h r
  granted : ∀ r, h.isLive r = true → r.endpoint = side.endpoint → Granted secret h r

section Keeps

variable {side : FilesystemProvides} {i : FsInfo} {uri : String} {secret : Option String}
  {h : Host} {r : Relation}

theorem Prepared.uri_ne_empty (hp : Prepared i uri secret h) : uri ≠ "" := by
  rw [hp.uri_eq]
  cases secret with
  | some id => exact i.toUriSealed_ne_empty id
  | none => exact i.toUri_ne_empty

/-- The peer copy is what `stored` finds. -/
theorem Keeps.run_stored (hk : Keeps side i uri secret h) :
    side.stored.run.run h = (.ok (some (uri, secret)), h) := by
  obtain ⟨p, hhead, hu, hs⟩ := hk.peer
  have hp := (hk.sorted.mem_of_head?_liveOn hhead).1
  rw [stored, run_bind_ok (HostM.run_relationsOn _ _)]
  simp only [hhead]
  rw [run_bind_ok (HostM.run_ownApp h), run_bind_ok (HostM.run_read_of_isLive hp _)]
  simp [hu, hs]

/-- A change that keeps the relations ascending, the leader and the vault keeps a host
prepared. -/
theorem Prepared.congr (hp : Prepared i uri secret h) {h' : Host} (hs : h'.Sorted)
    (hl : h'.leader = h.leader) (hv : h'.vault = h.vault) : Prepared i uri secret h' := by
  refine ⟨hl.trans hp.leader, hs, hv ▸ hp.vault, ?_, hp.uri_eq⟩
  rw [hv]
  exact hp.sealed

theorem Prepared.secret_ne_empty (hp : Prepared i uri secret h) {id : String}
    (hid : secret = some id) : id ≠ "" := by
  obtain ⟨s, hs, -⟩ := hp.sealed id hid
  obtain ⟨t, ht, rfl⟩ := hp.vault.ids _ (Vault.mem_of_get? hs)
  simp [ht]

/-- A change that keeps the leader, the vault, the application and every peer relation keeps
everything the provider keeps. -/
theorem Keeps.congr (hk : Keeps side i uri secret h) {h' : Host} (hs : h'.Sorted)
    (hl : h'.leader = h.leader) (hv : h'.vault = h.vault) (ha : h'.app = h.app)
    (hpeers : ∀ r, r.endpoint = side.peers → h'.state? r = h.state? r) :
    Keeps side i uri secret h' := by
  obtain ⟨p, hhead, hu, hsec⟩ := hk.peer
  have hp := (hk.sorted.mem_of_head?_liveOn hhead).2
  have hown : h'.ownApp = h.ownApp := by rw [Host.ownApp, Host.ownApp, ha]
  refine ⟨hk.toPrepared.congr hs hl hv, ⟨p, ?_, ?_, ?_⟩⟩
  · rw [hk.sorted.liveOn_eq hs fun r hr => Host.isLive_congr (hpeers r hr)]
    exact hhead
  · rw [hown, Host.bag_congr (hpeers p hp)]
    exact hu
  · rw [hown, Host.bag_congr (hpeers p hp)]
    exact hsec

/-- A change of one relation off the peer endpoint keeps everything the provider keeps. -/
theorem Keeps.modifyRelation (hk : Keeps side i uri secret h) (hr : r.endpoint ≠ side.peers)
    (f : RelationState → RelationState) : Keeps side i uri secret (h.modifyRelation r f) :=
  hk.congr (hk.sorted.modifyRelation r f) (Host.leader_modifyRelation h r f)
    (Host.vault_modifyRelation h r f) (Host.app_modifyRelation h r f) fun r' hr' => by
      rw [Host.state?_modifyRelation, if_neg fun (e : r = r') => hr (e ▸ hr')]

/-- Adding a relation on the endpoint keeps everything the provider keeps. -/
theorem Keeps.addRelation (hk : Keeps side i uri secret h) (hne : side.endpoint ≠ side.peers)
    (app : String) : Keeps side i uri secret (h.addRelation side.endpoint app).2 :=
  hk.congr (hk.sorted.addRelation side.endpoint app) rfl rfl rfl fun r' hr' => by
    rw [Host.state?_addRelation, if_neg]
    rintro rfl
    exact hne hr'

/-- The host after granting the secret `id`, whose secret is `s`, to `r`. -/
def granted (h : Host) (id : String) (s : Secret) (r : Relation) : Host :=
  { h with vault := h.vault.put id { s with grants := Vault.insertRelation r s.grants } }

theorem run_grantSecret (hv : h.vault.WellFormed) {id : String} {s : Secret}
    (hs : h.vault.get? id = some s) (r : Relation) :
    (HostM.grantSecret id r).run.run h = (.ok (), granted h id s r) := by
  simp only [HostM.grantSecret, HostM.withVault, HostM.run_get_bind, (hv.grant hs r).1,
    HostM.run_set, granted]

theorem run_revokeSecret (hv : h.vault.WellFormed) {id : String} {s : Secret}
    (hs : h.vault.get? id = some s) (r : Relation) :
    (HostM.revokeSecret id r).run.run h =
      (.ok (), { h with
        vault := h.vault.put id { s with grants := s.grants.filter (· != r) } }) := by
  simp only [HostM.revokeSecret, HostM.withVault, HostM.run_get_bind, (hv.revoke hs r).1,
    HostM.run_set]

/-- Granting a secret changes its grants only. -/
theorem Keeps.grant (hk : Keeps side i uri secret h) {id : String} {s : Secret}
    (hs : h.vault.get? id = some s) (r : Relation) :
    Keeps side i uri secret (granted h id s r) := by
  refine ⟨⟨hk.leader, hk.sorted, (hk.vault.grant hs r).2, fun id' hid' => ?_, hk.uri_eq⟩,
    hk.peer⟩
  obtain ⟨s', hs', hlabel, hcontent⟩ := hk.sealed id' hid'
  simp only [granted, Vault.get?_put]
  split
  · rename_i heq
    subst heq
    obtain rfl : s = s' := Option.some.inj (hs.symm.trans hs')
    exact ⟨_, rfl, hlabel, hcontent⟩
  · exact ⟨s', hs', hlabel, hcontent⟩

theorem granted_grant {id : String} {s : Secret} (hs : h.vault.get? id = some s) {r r' : Relation}
    (hr' : r' = r ∨ Granted (some id) h r') : Granted (some id) (granted h id s r) r' := by
  intro id' hid'
  obtain rfl := Option.some.inj hid'
  refine ⟨{ s with grants := Vault.insertRelation r s.grants }, by simp [granted, Vault.get?_put],
    Vault.mem_insertRelation.2 ?_⟩
  rcases hr' with rfl | hr'
  · exact .inl rfl
  · obtain ⟨s', hs', hmem⟩ := hr' id rfl
    obtain rfl : s = s' := Option.some.inj (hs.symm.trans hs')
    exact .inr hmem

theorem published_congr {h' : Host} {r' : Relation} (hst : h'.state? r' = h.state? r')
    (ha : h'.app = h.app) : Published uri h' r' ↔ Published uri h r' := by
  unfold Published
  rw [Host.ownApp, Host.ownApp, ha, Host.bag_congr hst]

theorem granted_remoteUpdate (secret : Option String) (h : Host) (r : Relation) (s : Scope)
    (u : Databag) (r' : Relation) :
    Granted secret (h.remoteUpdate r s u) r' ↔ Granted secret h r' := by
  simp only [Granted, Host.remoteUpdate, Host.vault_modifyRelation]

/-- Writing the URI into a live relation publishes it there and keeps it everywhere else. -/
theorem published_write (hr : h.isLive r = true) (huri : uri ≠ "") {r' : Relation}
    (hr' : r' = r ∨ Published uri h r') :
    Published uri (h.remoteUpdate r h.ownApp (Databag.ofList [(endpointKey, uri)])) r' := by
  have hu : (Databag.ofList [(endpointKey, uri)]).get? endpointKey = some uri := by
    rw [Databag.get?_ofList_of_nodup (by simp)]
    simp [Databag.lookupIn]
  unfold Published
  by_cases heq : r = r'
  · subst heq
    rw [Host.get?_remoteUpdate_ownApp hr hu, if_neg huri]
  · rw [Host.ownApp_remoteUpdate, Host.bag_remoteUpdate_of_ne heq]
    rcases hr' with rfl | hr'
    · exact absurd rfl heq
    · exact hr'

/-- Publishing on a live relation off the peer endpoint succeeds: it grants the secret, then
writes the URI, and keeps what the provider keeps. -/
theorem Keeps.publish (hk : Keeps side i uri secret h) (hr : h.isLive r = true)
    (hend : r.endpoint ≠ side.peers) (t : LeadershipToken) :
    Succeeds (publish t r uri secret) h fun _ h' =>
      Keeps side i uri secret h' ∧ (∀ r', h'.isLive r' = h.isLive r') ∧
        (∀ r', r' = r ∨ Published uri h r' → Published uri h' r') ∧
        (∀ r', r' = r ∨ Granted secret h r' → Granted secret h' r') := by
  have huri := hk.uri_ne_empty
  cases secret with
  | none =>
    -- no secret: the write of the URI is all
    have hrun : (publish t r uri none).run.run h =
        (.ok (), h.remoteUpdate r h.ownApp (Databag.ofList [(endpointKey, uri)])) := by
      simp only [publish]
      rw [HostM.run_updateApp, if_pos hk.leader, if_pos hr]
    exact Succeeds.of_run hrun ⟨hk.modifyRelation hend _, Host.isLive_remoteUpdate h r _ _,
      fun r' hr' => published_write hr huri hr', fun r' _ id hid => nomatch hid⟩
  | some id =>
    -- the grant changes the secret's grants, then the write one scope of `r`
    obtain ⟨s, hs, -, -⟩ := hk.sealed id rfl
    have hrun : (publish t r uri (some id)).run.run h = (.ok (),
        (granted h id s r).remoteUpdate r (granted h id s r).ownApp
          (Databag.ofList [(endpointKey, uri)])) := by
      simp only [publish]
      rw [run_bind_ok (run_grantSecret hk.vault hs r), HostM.run_updateApp,
        if_pos (show (granted h id s r).leader = true from hk.leader),
        if_pos (show (granted h id s r).isLive r = true from hr)]
    have hk' := hk.grant hs r
    refine Succeeds.of_run hrun ⟨hk'.modifyRelation hend _, Host.isLive_remoteUpdate _ r _ _,
      fun r' hr' => published_write (show (granted h id s r).isLive r = true from hr) huri hr',
      fun r' hr' => ?_⟩
    rw [granted_remoteUpdate]
    exact granted_grant hs hr'


/-- The loop's invariant once the relations `done` of `h₀` are published to: what the provider
keeps, the live relations of `h₀`, and every relation done carrying the URI and granted. -/
def Publishing (side : FilesystemProvides) (i : FsInfo) (uri : String) (secret : Option String)
    (h₀ : Host) (done : List Relation) (h : Host) : Prop :=
  Keeps side i uri secret h ∧ (∀ r, h.isLive r = h₀.isLive r) ∧
    ∀ r ∈ done, Published uri h r ∧ Granted secret h r

/-- Publishing on every live relation of the endpoint, one after another, serves them all. -/
theorem Keeps.publishAll (hk : Keeps side i uri secret h) (hne : side.endpoint ≠ side.peers)
    (t : LeadershipToken) :
    Succeeds (ForIn.forIn (h.liveOn side.endpoint) PUnit.unit fun r (_ : PUnit) => do
        FilesystemProvides.publish t r uri secret
        pure (ForInStep.yield PUnit.unit)) h
      fun _ h' => Serving side i uri secret h' := by
  have hinit : Publishing side i uri secret h [] h := ⟨hk, fun _ => rfl, fun _ h => nomatch h⟩
  refine (Succeeds.forIn (fun pre x rest h' hpre hI => ?_) hinit).mono fun _ h' hI => ?_
  · -- one pass: `x` is live on the endpoint, so publishing on it succeeds
    obtain ⟨hk', hlive, hdone⟩ := hI
    have hx : x ∈ h.liveOn side.endpoint := by
      rw [← hpre]
      exact List.mem_append_right _ List.mem_cons_self
    obtain ⟨hxl, hxe⟩ := (hk.sorted.mem_liveOn _ x).1 hx
    refine (hk'.publish ((hlive x).trans hxl) (hxe ▸ hne) t).bind fun _ h'' hpost => ?_
    obtain ⟨hk'', hlive', hpub, hgr⟩ := hpost
    refine Succeeds.pure ⟨rfl, hk'', fun r => (hlive' r).trans (hlive r), fun r hr => ?_⟩
    rcases List.mem_append.1 hr with hr | hr
    · exact ⟨hpub r (.inr (hdone r hr).1), hgr r (.inr (hdone r hr).2)⟩
    · obtain rfl := List.mem_singleton.1 hr
      exact ⟨hpub r (.inl rfl), hgr r (.inl rfl)⟩
  · -- every live relation on the endpoint was listed, so it was published to
    obtain ⟨hk', hlive, hdone⟩ := hI
    have hmem : ∀ r, h'.isLive r = true → r.endpoint = side.endpoint →
        r ∈ h.liveOn side.endpoint := fun r hr he =>
      (hk.sorted.mem_liveOn _ r).2 ⟨(hlive r).symm.trans hr, he⟩
    exact ⟨hk', fun r hr he => (hdone r (hmem r hr he)).1,
      fun r hr he => (hdone r (hmem r hr he)).2⟩

theorem get?_peerCopy (uri x : String) :
    (Databag.ofList [(endpointKey, uri), (secretKey, x)]).get? endpointKey = some uri ∧
      (Databag.ofList [(endpointKey, uri), (secretKey, x)]).get? secretKey = some x := by
  rw [Databag.get?_ofList_of_nodup (by simp [endpointKey, secretKey]),
    Databag.get?_ofList_of_nodup (by simp [endpointKey, secretKey])]
  simp [Databag.lookupIn, endpointKey, secretKey]

/-- The peer copy of the URI and the secret's id, written into a live peer relation, is what
the provider keeps. -/
theorem Prepared.keeps_peerCopy (hp : Prepared i uri secret h) {p : Relation}
    (hhead : (h.liveOn side.peers).head? = some p) (hpl : h.isLive p = true) :
    Keeps side i uri secret (h.remoteUpdate p h.ownApp
      (Databag.ofList [(endpointKey, uri), (secretKey, secret.getD "")])) := by
  obtain ⟨hu, hx⟩ := get?_peerCopy uri (secret.getD "")
  refine ⟨hp.congr (hp.sorted.modifyRelation p _) (Host.leader_modifyRelation h p _)
    (Host.vault_modifyRelation h p _), p, ?_, ?_, ?_⟩
  · rw [hp.sorted.liveOn_remoteUpdate]
    exact hhead
  · rw [Host.get?_remoteUpdate_ownApp hpl hu, if_neg hp.uri_ne_empty]
  · rw [Host.get?_remoteUpdate_ownApp hpl hx]
    -- an id is never empty, and no secret is written as the empty value
    cases secret with
    | none => rfl
    | some id => exact if_neg (hp.secret_ne_empty rfl)

/-- From a prepared host with a live peer relation, `spread` keeps the URI in the first peer
relation, then publishes it on every live relation of the endpoint. -/
theorem Prepared.spread_serves (hp : Prepared i uri secret h) (hne : side.endpoint ≠ side.peers)
    (hpeer : ∃ p, h.isLive p = true ∧ p.endpoint = side.peers) (t : LeadershipToken) :
    Succeeds (side.spread t uri secret) h fun _ h' => Serving side i uri secret h' := by
  obtain ⟨p, hpl, hpe⟩ := hpeer
  -- the first peer relation exists, since `p` is listed
  obtain ⟨p₀, hhead⟩ : ∃ p₀, (h.liveOn side.peers).head? = some p₀ :=
    Option.isSome_iff_exists.1 (List.isSome_head?.2
      (List.ne_nil_of_mem ((hp.sorted.mem_liveOn _ p).2 ⟨hpl, hpe⟩)))
  have hp₀ := (hp.sorted.mem_of_head?_liveOn hhead).1
  unfold FilesystemProvides.spread
  refine Succeeds.bind_of_run (HostM.run_relationsOn _ _) ?_
  simp only [hhead]
  refine Succeeds.bind_of_run (by rw [HostM.run_updateApp, if_pos hp.leader, if_pos hp₀]) ?_
  refine Succeeds.bind_of_run (HostM.run_relationsOn _ _) ?_
  exact ((hp.keeps_peerCopy hhead hp₀).publishAll hne t).bind fun _ _ hs => Succeeds.pure hs

end Keeps

section Steps

variable {side : FilesystemProvides} {i : FsInfo} {h : Host}

/-- `publication` changes the vault only, and leaves a host prepared to publish the record; the
URI is sealed whenever the host has secrets and the record has credentials. -/
theorem publication_prepared (hl : h.leader = true) (hs : h.Sorted) (hv : h.vault.WellFormed)
    (i : FsInfo) :
    Succeeds (publication i) h fun p h' => Prepared i p.1 p.2 h' ∧ h'.relations = h.relations ∧
      (h.secretsAvailable = true → i.secretContent.isSome → p.2.isSome) := by
  unfold publication
  cases hc : i.secretContent with
  | none =>
    exact Succeeds.pure
      ⟨⟨hl, hs, hv, (fun _ h => nomatch h), rfl⟩, rfl, fun _ h => nomatch h⟩
  | some content =>
    cases ha : h.secretsAvailable with
    | false =>
      refine Succeeds.bind_of_run (HostM.run_conceal_of_unavailable ha _ _) ?_
      exact Succeeds.pure
        ⟨⟨hl, hs, hv, (fun _ h => nomatch h), rfl⟩, rfl, fun h => nomatch h⟩
    | true =>
      -- the credentials go into the secret with the provider's label
      obtain ⟨hwf, s, hs', hlabel, hcontent⟩ := hv.ensure content infoSecretLabel
      refine Succeeds.bind_of_run (HostM.run_conceal_of_available ha _ _) ?_
      refine Succeeds.pure ⟨⟨hl, hs, hwf, ?_, rfl⟩, rfl, fun _ _ => rfl⟩
      rintro id ⟨⟩
      exact ⟨s, hs', hlabel, by rw [hcontent]; exact hc⟩

/-- On a leader with a live peer relation, setting a valid record succeeds and leaves the
provider serving it; the URI is sealed whenever the host has secrets and the record has
credentials. -/
theorem setInfo_serves (hl : h.leader = true) (hs : h.Sorted) (hv : h.vault.WellFormed)
    (hvalid : i.validate = .ok ()) (hne : side.endpoint ≠ side.peers)
    (hpeer : ∃ p, h.isLive p = true ∧ p.endpoint = side.peers) (t : LeadershipToken) :
    Succeeds (side.setInfo t i) h fun _ h' => ∃ uri secret, Serving side i uri secret h' ∧
      (h.secretsAvailable = true → i.secretContent.isSome → secret.isSome) := by
  obtain ⟨p, hpl, hpe⟩ := hpeer
  rw [setInfo_eq, hvalid]
  refine Succeeds.bind_of_run (HostM.run_ofOutcome_ok () h) ?_
  refine (publication_prepared hl hs hv i).bind fun sealed h₁ hpost => ?_
  obtain ⟨uri, secret⟩ := sealed
  obtain ⟨hp, hrel, havail⟩ := hpost
  -- sealing touched the vault only, so the peer relation is still live
  have hpl₁ : h₁.isLive p = true := (Host.isLive_congr (Host.state?_congr hrel p)).trans hpl
  exact (hp.spread_serves hne ⟨p, hpl₁, hpe⟩ t).mono
    fun _ h' hserv => ⟨uri, secret, hserv, havail⟩

/-- Relations joining one after another: each is added on the endpoint for a remote
application, and the provider handles its unit joining. -/
def joinAll (side : FilesystemProvides) : List (String × String) → HostM Unit
  | [] => pure ()
  | (app, unit) :: rest => do
    let r ← modifyGet fun h => h.addRelation side.endpoint app
    side.handle (.relationJoined r app unit)
    side.joinAll rest

/-- A relation that joins a serving provider is served from the peer copy. -/
theorem Serving.handle_joined (hs : Serving side i uri secret h)
    (hne : side.endpoint ≠ side.peers) (app unit : String) :
    Succeeds (side.handle (.relationJoined (h.addRelation side.endpoint app).1 app unit))
      (h.addRelation side.endpoint app).2 fun _ h' => Serving side i uri secret h' := by
  have hk := hs.toKeeps.addRelation hne app
  -- the new relation is live, and every other relation is as it was
  have hnew : (h.addRelation side.endpoint app).2.isLive (h.addRelation side.endpoint app).1 := by
    rw [Host.id_addRelation, Host.isLive, Host.state?_addRelation, if_pos rfl]
    rfl
  have hold : ∀ r', r' ≠ (h.addRelation side.endpoint app).1 →
      (h.addRelation side.endpoint app).2.state? r' = h.state? r' := fun r' hr' => by
    rw [Host.state?_addRelation]
    exact if_neg (Ne.symm hr')
  have hon : (HostEvent.relationJoined (h.addRelation side.endpoint app).1 app unit).relationOn
      side.endpoint = some (h.addRelation side.endpoint app).1 := by
    simp [HostEvent.relationOn, HostEvent.relation?, Host.addRelation]
  unfold handle
  rw [hon]
  refine Succeeds.bind_of_run (HostM.run_leadership_of_leader hk.leader) ?_
  refine Succeeds.bind_of_run hk.run_stored ?_
  refine (hk.publish hnew hne ⟨⟩).mono fun _ h' hpost => ?_
  obtain ⟨hk', hlive, hpub, hgr⟩ := hpost
  -- a live relation on the endpoint is the new one, or one the provider already served
  have hserved : ∀ r', h'.isLive r' = true → r'.endpoint = side.endpoint →
      r' = (h.addRelation side.endpoint app).1 ∨
        (Published uri (h.addRelation side.endpoint app).2 r' ∧
          Granted secret (h.addRelation side.endpoint app).2 r') := by
    intro r' hr' he
    by_cases heq : r' = (h.addRelation side.endpoint app).1
    · exact .inl heq
    · have hst := hold r' heq
      have hlive' : h.isLive r' = true := by
        rw [← Host.isLive_congr hst, ← hlive r']
        exact hr'
      exact .inr ⟨(published_congr hst rfl).2 (hs.published r' hlive' he),
        hs.granted r' hlive' he⟩
  exact ⟨hk', fun r' hr' he => hpub r' ((hserved r' hr' he).imp_right And.left),
    fun r' hr' he => hgr r' ((hserved r' hr' he).imp_right And.right)⟩

/-- A serving provider serves every relation that joins, one after another. -/
theorem Serving.joinAll (hs : Serving side i uri secret h) (hne : side.endpoint ≠ side.peers)
    (joins : List (String × String)) :
    Succeeds (side.joinAll joins) h fun _ h' => Serving side i uri secret h' := by
  induction joins generalizing h with
  | nil => exact Succeeds.pure hs
  | cons j rest ih =>
    obtain ⟨app, unit⟩ := j
    unfold FilesystemProvides.joinAll
    refine Succeeds.bind_of_run (HostM.run_modifyGet _ h) ?_
    exact (hs.handle_joined hne app unit).bind fun _ _ hs' => ih hs'

/-- When a relation on the endpoint breaks, the provider revokes the secret from it, and from
it only. -/
theorem Keeps.handle_broken {id : String} (hk : Keeps side i uri (some id) h) {r : Relation}
    (hr : r.endpoint = side.endpoint) (hne : side.endpoint ≠ side.peers) {s : Secret}
    (hs : h.vault.get? id = some s) (app : Option String) :
    (side.handle (.relationBroken r app)).run.run (h.breakRelation r) =
      (.ok (), { h.breakRelation r with
        vault := h.vault.put id { s with grants := s.grants.filter (· != r) } }) := by
  have hk' : Keeps side i uri (some id) (h.breakRelation r) := hk.modifyRelation (hr ▸ hne) _
  have hv : (h.breakRelation r).vault = h.vault := Host.vault_modifyRelation h r _
  have hon : (HostEvent.relationBroken r app).relationOn side.endpoint = some r := by
    simp [HostEvent.relationOn, HostEvent.relation?, hr]
  unfold handle
  rw [hon, run_bind_ok (HostM.run_leadership_of_leader hk'.leader),
    run_bind_ok hk'.run_stored, run_revokeSecret hk'.vault (hv ▸ hs) r, hv]

/-- The published URI reads back as the record through the host's secrets. -/
theorem Prepared.fromUriWith_uri (hp : Prepared i uri secret h) (hvalid : i.validate = .ok ()) :
    FsInfo.fromUriWith uri h.vault.content = .ok i := by
  rw [hp.uri_eq]
  cases secret with
  | none => exact FsInfo.fromUriWith_toUri hvalid _
  | some id =>
    obtain ⟨s, hs, -, hcontent⟩ := hp.sealed id rfl
    -- an id is a pointer `secret:<t>`, under which the vault holds the credentials
    obtain ⟨t, ht, hid⟩ := hp.vault.ids _ (Vault.mem_of_get? hs)
    obtain rfl : id = "secret:" ++ t := hid
    refine FsInfo.fromUriWith_toUriSealed hvalid ht fun c hc => ?_
    rw [hcontent, Option.some.injEq] at hc
    rw [Vault.content, hs]
    exact congrArg Except.ok hc

/-- A requirer on the other side of a served relation reads exactly the record, under the
published URI, over that relation. -/
theorem Serving.endpoints_mirror (hs : Serving side i uri secret h)
    (hvalid : i.validate = .ok ()) {r : Relation} (hr : h.isLive r = true)
    (he : r.endpoint = side.endpoint) (app unit : String) :
    (FilesystemRequires.endpoints ⟨side.endpoint⟩).run.run (h.mirror app unit r) =
      (.ok [⟨i, uri, r⟩], h.mirror app unit r) := by
  have hpub := hs.published r hr he
  have hdecode := hs.fromUriWith_uri hvalid
  unfold FilesystemRequires.endpoints
  rw [run_bind_ok (HostM.run_relationsOn _ _), ← he, Host.liveOn_mirror]
  simp only [List.forIn_cons, List.forIn_nil, bind_assoc]
  rw [run_bind_ok (HostM.run_remoteApp _ _), Host.remoteApp_mirror]
  simp only [bind_assoc]
  rw [run_bind_ok (HostM.run_read_of_isLive (Host.isLive_mirror h app unit r) _),
    Host.bag_mirror_ownApp, hpub]
  have hne : (!uri.isEmpty) = true := by simpa using hs.uri_ne_empty
  have hvault : (h.mirror app unit r).vault = h.vault := rfl
  simp only [hne, ↓reduceIte, bind_assoc, HostM.run_get_bind, hvault, hdecode]
  rfl

end Steps

/-! ## What every requirer reads -/

/-- What a provider publishes is what every requirer reads. On a leader that can reach a live
peer relation, setting a valid record succeeds, and so does serving relations that join later.
Afterwards every live relation on the endpoint carries one URI in the application's scope, and
a requirer on the other side of any of them reads exactly the record over it. When the host
has secrets and the record has credentials, the URI points at the one secret with the
provider's label, which holds the credentials and is granted to the relation; when the
relation breaks, the provider revokes that grant and changes nothing else in the vault. -/
theorem publishes_to_every_requirer (side : FilesystemProvides) {P : Host} (hP : P.Reachable)
    (hl : P.leader = true) (hpeer : ∃ p, P.isLive p = true ∧ p.endpoint = side.peers)
    (hne : side.endpoint ≠ side.peers) {i : FsInfo} (hvalid : i.validate = .ok ())
    (t : LeadershipToken) (joins : List (String × String)) :
    ∃ P₁ P₂ uri, (side.setInfo t i).run.run P = (.ok (), P₁) ∧
      (side.joinAll joins).run.run P₁ = (.ok (), P₂) ∧
      ∀ r, P₂.isLive r = true → r.endpoint = side.endpoint →
        (P₂.bag r P₂.ownApp).get? endpointKey = some uri ∧
        (∀ app unit, (FilesystemRequires.endpoints ⟨side.endpoint⟩).run.run (P₂.mirror app unit r) =
          (.ok [⟨i, uri, r⟩], P₂.mirror app unit r)) ∧
        (P.secretsAvailable = true → ∀ c, i.secretContent = some c →
          ∃ id s, uri = i.toUriSealed id ∧ P₂.vault.get? id = some s ∧
            s.label = infoSecretLabel ∧ s.content = c ∧
            (∀ id' s', P₂.vault.get? id' = some s' → s'.label = infoSecretLabel → id' = id) ∧
            r ∈ s.grants ∧
            ∀ app, (side.handle (.relationBroken r app)).run.run (P₂.breakRelation r) =
              (.ok (), { P₂.breakRelation r with
                vault := P₂.vault.put id { s with grants := s.grants.filter (· != r) } })) := by
  obtain ⟨_, P₁, hrun₁, uri, secret, hs₁, havail⟩ :=
    setInfo_serves hl hP.sorted hP.vault_wellFormed hvalid hne hpeer t
  obtain ⟨_, P₂, hrun₂, hs₂⟩ := hs₁.joinAll hne joins
  refine ⟨P₁, P₂, uri, hrun₁, hrun₂, fun r hr he => ⟨hs₂.published r hr he,
    fun app unit => hs₂.endpoints_mirror hvalid hr he app unit, fun ha c hc => ?_⟩⟩
  -- with secrets and credentials the URI is sealed, behind the secret granted to `r`
  obtain ⟨id, rfl⟩ := Option.isSome_iff_exists.1 (havail ha (by simp [hc]))
  obtain ⟨s, hs, hlabel, hcontent⟩ := hs₂.sealed id rfl
  obtain ⟨s', hs', hmem⟩ := hs₂.granted r hr he id rfl
  obtain rfl : s = s' := Option.some.inj (hs.symm.trans hs')
  have hunique :
      ∀ id' s', P₂.vault.get? id' = some s' → s'.label = infoSecretLabel → id' = id :=
    fun id' s' hs'' hl' => hs₂.vault.labels _ (Vault.mem_of_get? hs'') _ (Vault.mem_of_get? hs)
      (hl'.trans hlabel.symm)
  refine ⟨id, s, hs₂.uri_eq, hs, hlabel, ?_, hunique, hmem,
    fun app => hs₂.toKeeps.handle_broken he hne hs app⟩
  rw [hc, Option.some.injEq] at hcontent
  exact hcontent.symm

/-- A CephFS record published by a leader with secrets, to a relation that joins later. -/
theorem publishes_to_every_requirer_cephfs :
    let side : FilesystemProvides := ⟨"filesystem", "server-peers"⟩
    let P := HostOp.apply (.addRelation "server-peers" "fs") <|
      HostOp.apply (.setSecretsAvailable true) <| HostOp.apply (.setLeader true) <|
        Host.new "fs" "fs/0"
    let i := FsInfo.cephfs "7d4c" "share" "/" ["10.0.0.1"] "admin" "AQB=="
    P.Reachable ∧ P.leader = true ∧ (∃ p, P.isLive p = true ∧ p.endpoint = side.peers) ∧
      side.endpoint ≠ side.peers ∧ i.validate = .ok () ∧
      ∃ P₁ P₂ uri, (side.setInfo ⟨⟩ i).run.run P = (.ok (), P₁) ∧
        (side.joinAll [("client", "client/0")]).run.run P₁ = (.ok (), P₂) ∧
        ∀ r, P₂.isLive r = true → r.endpoint = side.endpoint →
          (P₂.bag r P₂.ownApp).get? endpointKey = some uri ∧
          (∀ app unit, (FilesystemRequires.endpoints ⟨side.endpoint⟩).run.run
            (P₂.mirror app unit r) = (.ok [⟨i, uri, r⟩], P₂.mirror app unit r)) ∧
          (P.secretsAvailable = true → ∀ c, i.secretContent = some c →
            ∃ id s, uri = i.toUriSealed id ∧ P₂.vault.get? id = some s ∧
              s.label = infoSecretLabel ∧ s.content = c ∧
              (∀ id' s', P₂.vault.get? id' = some s' → s'.label = infoSecretLabel → id' = id) ∧
              r ∈ s.grants ∧
              ∀ app, (side.handle (.relationBroken r app)).run.run (P₂.breakRelation r) =
                (.ok (), { P₂.breakRelation r with
                  vault := P₂.vault.put id { s with grants := s.grants.filter (· != r) } })) := by
  intro side P i
  have hP : P.Reachable := .step _ (.step _ (.step _ (.new "fs" "fs/0")))
  have hl : P.leader = true := rfl
  have hpeer : ∃ p, P.isLive p = true ∧ p.endpoint = side.peers := ⟨⟨"server-peers", 0⟩, rfl, rfl⟩
  have hne : side.endpoint ≠ side.peers := by decide
  have hvalid : i.validate = .ok () := rfl
  exact ⟨hP, hl, hpeer, hne, hvalid,
    publishes_to_every_requirer side hP hl hpeer hne hvalid ⟨⟩ [("client", "client/0")]⟩

end FilesystemProvides

end ShareBroker
