import ShareBroker.Proofs.Json.Record
import ShareBroker.Proofs.Interface.ShareRedelivery
import ShareBroker.Proofs.Charm.ClientSettles

/-!
# A published share reaches the client

The server answers a share request with `ShareProvides.setShare`: the share's record as JSON
under `share_info`, and under `auth` a pointer to the credentials, which are sealed in the
relation's secret `auth-info-<id>` and granted to the relation when the host supports secrets,
and written inline otherwise. The client's unit sees the relation through `Host.mirror`: the
server's application scope as remote data, and the server's secrets.

The client reads the answer back whole, for every share and credentials whatever their
strings hold:

* `ShareInfo.readRecord_toJson`, `ShareInfo.ofJson_toJson`: the record reads back;
* `ShareRequires.run_shareInfo_of_written`, `ShareRequires.run_authInfo_of_written`: what the
  client reads from a relation that carries a record and a pointer;
* `ShareRequires.run_handle_share_added`: a change that adds `share_info` asks the client to
  mount;
* `ShareProvides.Answered`: what a successful `setShare` leaves, built by
  `ShareProvides.answered_of_run` and read across the mirror by the `Answered.run_*_mirror`
  lemmas;
* `ShareProvides.published_share_reaches_client`: the whole round trip. The mirror copies the
  server's own unit scope too, so a client unit that is the server's own unit starts from the
  server's snapshot, and is asked to mount only if that snapshot has no `share_info`.
-/

namespace ShareBroker

/-! ## The share's record -/

theorem Json.decodeStrings_ofStrings (l : List String) : Json.decodeStrings (.ofStrings l) = .ok l := by
  induction l with
  | nil => rfl
  | cons s l ih =>
    simp only [Json.decodeStrings, Json.ofStrings, List.map_cons, List.mapM_cons] at ih ⊢
    rw [ih]
    rfl

namespace ShareInfo

/-- The written record of a share is read back as its JSON form. -/
theorem readRecord_toJson (s : ShareInfo) :
    Json.readRecord (schema.map (·.name)) s.toJson.write = .ok s.toJson := by
  apply Json.readRecord_write
  intro kv hkv
  simp only [List.mem_cons, List.not_mem_nil, or_false] at hkv
  rcases hkv with rfl | rfl | rfl | rfl
  · exact ⟨by simp [schema, FieldSpec.string], .str _⟩
  · exact ⟨by simp [schema, FieldSpec.string], .str _⟩
  · exact ⟨by simp [schema, FieldSpec.string], .str _⟩
  · exact ⟨by simp [schema, FieldSpec.strings], .strings _⟩

/-- The JSON form of a share decodes as the share. -/
theorem ofJson_toJson (s : ShareInfo) : ofJson s.toJson = .ok s := by
  simp [ofJson, toJson, schema, Fields.collect, FieldSpec.string, FieldSpec.strings,
    Json.decodeString, Json.decodeStrings_ofStrings, Except.map, bind, Except.bind, ofMet,
    Fields.required, Fields.lookup]
  rfl

end ShareInfo

/-- The credentials a secret holds are read back. -/
theorem AuthInfo.ofDatabag_toDatabag (a : AuthInfo) : AuthInfo.ofDatabag a.toDatabag = some a := by
  have hget : ∀ k, a.toDatabag.get? k =
      (([("username", a.username), ("key", a.key)] : List (String × String)).find?
        (·.1 == k)).map (·.2) := fun k =>
    Databag.get?_ofList_of_nodup (by simp) k
  simp [AuthInfo.ofDatabag, hget]

/-! ## What the client reads -/

namespace ShareRequires

variable {g : Host} {r : Relation} {app : String}

/-- The server's scope is read through the relation's remote application. -/
theorem run_serverData (hr : g.isLive r = true)
    (happ : (g.state? r).map (·.remoteApp) = some app) :
    (serverData r).run.run g = (.ok (g.bag r (.app app)), g) := by
  unfold serverData
  rw [run_bind_ok (HostM.run_remoteApp r g), happ]
  exact HostM.run_read_of_isLive hr _

/-- A relation carrying a share's written record gives that share. -/
theorem run_shareInfo_of_written (side : ShareRequires) (hr : g.isLive r = true)
    (happ : (g.state? r).map (·.remoteApp) = some app) {s : ShareInfo}
    (hs : (g.bag r (.app app)).get? shareInfoKey = some s.toJson.write) :
    (side.shareInfo r).run.run g = (.ok (some s), g) := by
  have hne : s.toJson.write.isEmpty = false := by
    simpa [String.isEmpty_iff] using ShareProvides.write_toJson_ne_empty s
  unfold shareInfo
  rw [run_bind_ok (run_serverData hr happ), hs]
  simp [hne, ShareInfo.readRecord_toJson, ShareInfo.ofJson_toJson]
  rfl

/-- A relation carrying a pointer that parses as itself and resolves to the credentials' databag
gives those credentials. -/
theorem run_authInfo_of_written (side : ShareRequires) (hr : g.isLive r = true)
    (happ : (g.state? r).map (·.remoteApp) = some app) {p : SecretRef} {a : AuthInfo}
    (hp : (g.bag r (.app app)).get? authKey = some p.toString)
    (hparse : SecretRef.parse p.toString = .ok p)
    (hres : p.resolve g.vault.content = .ok a.toDatabag) :
    (side.authInfo r).run.run g = (.ok (some a), g) := by
  -- the empty text names no kind, so it is not the pointer
  have hne : p.toString.isEmpty = false := by
    cases h : p.toString.isEmpty
    · rfl
    · rw [String.isEmpty_iff.1 h] at hparse
      simp [SecretRef.parse, SecretRef.splitKind] at hparse
  unfold authInfo
  rw [run_bind_ok (run_serverData hr happ), hp]
  simp only [hne, Bool.false_eq_true, ↓reduceIte, SecretRef.parseLenient, hparse]
  rw [run_bind_ok (by simp only [HostM.resolve, HostM.run_get_bind, hres]; rfl)]
  simp [AuthInfo.ofDatabag_toDatabag]

end ShareRequires

/-! ## What the server leaves -/

/-- In a well-formed vault a secret is the one its label names. -/
theorem Vault.WellFormed.lookup_of_mem {v : Vault} (hv : v.WellFormed) {id : String} {sec : Secret}
    (hmem : (id, sec) ∈ v.entries) : v.lookup sec.label = some id := by
  cases hl : v.lookup sec.label with
  | none => exact absurd rfl (Vault.lookup_eq_none hl (id, sec) hmem)
  | some id' =>
    obtain ⟨sec', hmem', hlabel⟩ := Vault.lookup_eq_some hl
    exact congrArg some (hv.labels _ hmem' _ hmem hlabel)

/-- A write of the application's scope that succeeds was made by the leader on a live
relation. -/
theorem HostM.eq_of_run_updateApp {h h' : Host} {r : Relation} {u : Databag}
    {t : LeadershipToken} (hup : (HostM.updateApp r u t).run.run h = (.ok (), h')) :
    h.leader = true ∧ h.isLive r = true ∧ h' = h.remoteUpdate r h.ownApp u := by
  rw [HostM.run_updateApp] at hup
  split at hup
  · split at hup
    · exact ⟨‹_›, ‹_›, (Prod.mk.inj hup).2.symm⟩
    · cases hup
  · cases hup

namespace ShareProvides

variable {h h' : Host} {r : Relation} {s : ShareInfo} {a : AuthInfo}

/-- What a successful answer with `s` and `a` on `r` leaves, from `h` to `h'`. The relation is
live, the application and the unit keep their names, and the application's scope of `r` carries
the share's record. Under `auth` it carries the id of the relation's secret, which holds the
credentials and is granted to the relation, when the host supports secrets, and the credentials
inline otherwise. -/
structure Answered (h : Host) (r : Relation) (s : ShareInfo) (a : AuthInfo) (h' : Host) :
    Prop where
  live : h'.isLive r = true
  app : h'.app = h.app
  unit : h'.unit = h.unit
  shareInfo : (h'.bag r h'.ownApp).get? shareInfoKey = some s.toJson.write
  sealed : h.secretsAvailable = true → ∃ id sec,
    (h'.bag r h'.ownApp).get? authKey = some id ∧ h'.vault.lookup (authSecretLabel r) = some id ∧
      h'.vault.get? id = some sec ∧ sec.content = a.toDatabag ∧ r ∈ sec.grants ∧
      ∃ t, t ≠ "" ∧ id = "secret:" ++ t
  inline : h.secretsAvailable = false →
    (h'.bag r h'.ownApp).get? authKey = some (SecretRef.plain a.toDatabag).toString

/-- The record and the pointer `setShare` writes, read back from the scope it writes them
into. -/
theorem get?_answer (s : ShareInfo) (hr : h.isLive r = true) (p : SecretRef) :
    let u := Databag.ofList [(shareInfoKey, s.toJson.write), (authKey, p.toString)]
    ((h.remoteUpdate r h.ownApp u).bag r (h.remoteUpdate r h.ownApp u).ownApp).get?
        shareInfoKey = some s.toJson.write ∧
      (p.toString ≠ "" →
        ((h.remoteUpdate r h.ownApp u).bag r (h.remoteUpdate r h.ownApp u).ownApp).get?
          authKey = some p.toString) := by
  intro u
  have hget : ∀ k, u.get? k =
      (([(shareInfoKey, s.toJson.write), (authKey, p.toString)] : List (String × String)).find?
        (·.1 == k)).map (·.2) := fun k =>
    Databag.get?_ofList_of_nodup (by simp [shareInfoKey, authKey]) k
  have hinfo : u.get? shareInfoKey = some s.toJson.write := by
    rw [hget]
    simp [shareInfoKey, authKey]
  have hauth : u.get? authKey = some p.toString := by
    rw [hget]
    simp [shareInfoKey, authKey]
  refine ⟨?_, fun hp => ?_⟩
  · rw [Host.get?_remoteUpdate_ownApp hr hinfo,
      if_neg (write_toJson_ne_empty s)]
  · rw [Host.get?_remoteUpdate_ownApp hr hauth, if_neg hp]

/-- A successful `setShare` leaves what `Answered` says. -/
theorem answered_of_run (side : ShareProvides) (hv : h.vault.WellFormed) {t : LeadershipToken}
    (hrun : (side.setShare t r s a).run.run h = (.ok (), h')) : Answered h r s a h' := by
  unfold setShare at hrun
  cases ha : h.secretsAvailable with
  | false =>
    -- the credentials travel inline, and the one write is the answer
    rw [run_bind_ok (HostM.run_conceal_of_unavailable ha _ _)] at hrun
    obtain ⟨-, hr, rfl⟩ := HostM.eq_of_run_updateApp hrun
    have hans := get?_answer s hr (.plain a.toDatabag)
    refine ⟨(Host.isLive_remoteUpdate _ _ _ _ r).trans hr, Host.app_modifyRelation _ _ _,
      Host.unit_modifyRelation _ _ _, hans.1, fun hs => absurd (ha.symm.trans hs) Bool.false_ne_true,
      fun _ => hans.2 ?_⟩
    simp [SecretRef.toString]
  | true =>
    -- the credentials are sealed under the relation's label and granted to it
    obtain ⟨hwf, sec, hsec, hlabel, hcontent⟩ := hv.ensure a.toDatabag (authSecretLabel r)
    rw [run_bind_ok (HostM.run_conceal_of_available ha _ _)] at hrun
    generalize h.vault.ensure a.toDatabag (authSecretLabel r) = e at hrun hwf hsec
    obtain ⟨id, w⟩ := e
    simp only [] at hrun hwf hsec
    rw [run_bind_ok (FilesystemProvides.run_grantSecret hwf hsec r)] at hrun
    -- the secret's id is a pointer `secret:<t>`, written as itself
    obtain ⟨tid, htid, hid⟩ := hwf.ids _ (Vault.mem_of_get? hsec)
    simp only at hid
    subst hid
    rw [SecretRef.toString_secret_prefixed] at hrun
    obtain ⟨-, hr, rfl⟩ := HostM.eq_of_run_updateApp hrun
    have hans := get?_answer s hr (.secret ("secret:" ++ tid))
    rw [SecretRef.toString_secret_prefixed] at hans
    -- the granted secret, in the vault the write leaves
    let granted : Secret := { sec with grants := Vault.insertRelation r sec.grants }
    have hget : (w.put ("secret:" ++ tid) granted).get? ("secret:" ++ tid) = some granted :=
      (Vault.get?_put _ _ _ _).trans (if_pos rfl)
    refine ⟨(Host.isLive_remoteUpdate _ _ _ _ r).trans hr, Host.app_modifyRelation _ _ _,
      Host.unit_modifyRelation _ _ _, hans.1, fun _ => ⟨_, granted, hans.2 (by simp), ?_,
        ?_, hcontent, Vault.mem_insertRelation.2 (.inl rfl), tid, htid, rfl⟩,
      fun hs => absurd (ha.symm.trans hs) (by decide)⟩
    · rw [Host.remoteUpdate, Host.vault_modifyRelation, ← hlabel]
      -- granting keeps the label the secret was sealed under
      have hfound := (hwf.grant hsec r).2.lookup_of_mem (Vault.mem_of_get? hget)
      exact hfound
    · rw [Host.remoteUpdate, Host.vault_modifyRelation]
      exact hget

end ShareProvides

/-! ## Across the relation -/

namespace Host

/-- The mirror copies only the host's own two scopes of the relation; every other scope of it
is empty there. -/
theorem bag_mirror_of_ne (h : Host) (app unit : String) (r : Relation) {s : Scope}
    (ha : s ≠ .app h.app) (hu : s ≠ .unit h.unit) : (h.mirror app unit r).bag r s = .empty := by
  rw [bag_eq]
  simp only [state?, mirror, List.find?_cons, beq_self_eq_true, Option.map_some,
    Option.getD_some, List.filterMap_cons, List.filterMap_nil, ownApp, ownUnit]
  -- the copied scopes are the two own ones, whichever of them is not empty
  by_cases hea : (h.bag r (.app h.app)).isEmpty = true <;>
    by_cases heu : (h.bag r (.unit h.unit)).isEmpty = true <;>
    simp [hea, heu, RelationState.bag, RelationState.putBag, Scope.lt, Ne.symm ha, Ne.symm hu]

end Host

namespace ShareRequires

open Negotiation

variable {g : Host} {r : Relation} {app : String} {unit : Option String} {old : Databag}

/-- A change of the server's scope asks the client to mount when `share_info` appears in it:
the server's data holds the key and the snapshot does not, whatever else changed. -/
theorem run_handle_share_added (side : ShareRequires) (hr : g.isLive r = true)
    (he : r.endpoint = side.endpoint) (hb : Baseline g r g.ownUnit (.app app) old)
    (hold : old.get? shareInfoKey = none)
    (hnew : ((g.bag r (.app app)).get? shareInfoKey).isSome) :
    ((side.handle (.relationChanged r app unit)).run.run g).1 = .ok [.mountShare r] := by
  have hon : (HostEvent.relationChanged r app unit).relationOn side.endpoint = some r := by
    simp [HostEvent.relationOn, HostEvent.relation?, he]
  have hadded :
      shareInfoKey ∈ (Transaction.between old (dataOnly (g.bag r (.app app)))).added := by
    rw [Transaction.mem_added_between]
    exact ⟨by simpa [shareInfoKey, isReserved] using hnew, hold⟩
  unfold handle
  rw [hon]
  simp only []
  rw [run_bind_ok (HostM.run_ownUnit g), run_bind_ok (run_cached_of_baseline hr hb),
    run_bind_ok (run_diff hr g.ownUnit (.app app) (run_cached_of_baseline hr hb))]
  -- a key that appears is `ready`, which mounts from every state
  simp [hadded, RequirerState.step]

end ShareRequires

namespace ShareProvides

variable {P P' : Host} {r : Relation} {s : ShareInfo} {a : AuthInfo}

/-! ### The answer read across the relation -/

namespace Answered

/-- Across the relation, the client reads the share back. -/
theorem run_shareInfo_mirror (ans : Answered P r s a P') (client : ShareRequires)
    (x unit : String) :
    (client.shareInfo r).run.run (P'.mirror x unit r) = (.ok (some s), P'.mirror x unit r) := by
  have hinfo : ((P'.mirror x unit r).bag r (.app P'.app)).get? shareInfoKey =
      some s.toJson.write := by
    rw [Host.bag_mirror_ownApp]
    exact ans.shareInfo
  exact client.run_shareInfo_of_written (Host.isLive_mirror P' x unit r)
    (Host.remoteApp_mirror P' x unit r) hinfo

/-- Across the relation, the client reads the credentials back through whichever pointer was
written. -/
theorem run_authInfo_mirror (ans : Answered P r s a P') (client : ShareRequires)
    (x unit : String) :
    (client.authInfo r).run.run (P'.mirror x unit r) = (.ok (some a), P'.mirror x unit r) := by
  have hr := Host.isLive_mirror P' x unit r
  have happ := Host.remoteApp_mirror P' x unit r
  cases hs : P.secretsAvailable with
  | true =>
    obtain ⟨id, sec, hid, -, hget, hcontent, -, tid, htid, rfl⟩ := ans.sealed hs
    have hp : ((P'.mirror x unit r).bag r (.app P'.app)).get? authKey =
        some (SecretRef.secret ("secret:" ++ tid)).toString := by
      rw [Host.bag_mirror_ownApp, SecretRef.toString_secret_prefixed, hid]
    have hparse : SecretRef.parse (SecretRef.secret ("secret:" ++ tid)).toString =
        .ok (.secret ("secret:" ++ tid)) := by
      rw [SecretRef.toString_secret_prefixed]
      exact SecretRef.parse_secret htid
    -- the mirror holds the server's secrets
    have hres : (SecretRef.secret ("secret:" ++ tid)).resolve
        (P'.mirror x unit r).vault.content = .ok a.toDatabag := by
      simp only [SecretRef.resolve, Host.mirror, Vault.content, hget, hcontent]
    exact client.run_authInfo_of_written hr happ hp hparse hres
  | false =>
    have hp : ((P'.mirror x unit r).bag r (.app P'.app)).get? authKey =
        some (SecretRef.plain a.toDatabag).toString := by
      rw [Host.bag_mirror_ownApp, ans.inline hs]
    exact client.run_authInfo_of_written hr happ hp
      (SecretRef.parse_plain _) rfl

/-- Across the relation, a unit other than the server's own is asked to mount by the first
change of the server's scope it handles. -/
theorem run_handle_mirror (ans : Answered P r s a P') (client : ShareRequires) (x : String)
    {unit : String} (he : client.endpoint = r.endpoint) (hunit : P.unit ≠ unit)
    (u : Option String) :
    ((client.handle (.relationChanged r P.app u)).run.run (P'.mirror x unit r)).1 =
      .ok [.mountShare r] := by
  -- the client's own scope of `r` is neither of the two the mirror copies: no snapshot yet
  have hown : (P'.mirror x unit r).bag r (.unit unit) = .empty :=
    Host.bag_mirror_of_ne P' x unit r (fun he' => Scope.noConfusion he')
      fun he' => hunit (ans.unit ▸ (Scope.unit.inj he').symm)
  have hou : (P'.mirror x unit r).ownUnit = .unit unit := rfl
  have hb : Baseline (P'.mirror x unit r) r (P'.mirror x unit r).ownUnit (.app P'.app) .empty :=
    .inl ⟨by rw [hou, hown]; rfl, rfl⟩
  have hnew : (((P'.mirror x unit r).bag r (.app P'.app)).get? shareInfoKey).isSome := by
    rw [Host.bag_mirror_ownApp, ans.shareInfo]
    rfl
  rw [← ans.app]
  exact client.run_handle_share_added (Host.isLive_mirror P' x unit r) he.symm hb rfl hnew

end Answered

/-- **A published share reaches the client intact.** After a successful `setShare` of `s` and
`a` on `r`, the unit `unit` of an application `x` across `r` reads back exactly `s` and `a`, and
the first change of the server's scope it handles asks it to mount, unless it is the server's
own unit, whose scope the mirror copies with whatever snapshot it holds. The pointer under
`auth` is the id `secret:<t>` of the relation's secret, which holds the credentials and is
granted to the relation, when the host supports secrets, and the credentials inline
otherwise. -/
theorem published_share_reaches_client (hP : P.Reachable) (side : ShareProvides)
    {t : LeadershipToken} (hrun : (side.setShare t r s a).run.run P = (.ok (), P'))
    (client : ShareRequires) (x unit : String) :
    (client.shareInfo r).run.run (P'.mirror x unit r) = (.ok (some s), P'.mirror x unit r) ∧
    (client.authInfo r).run.run (P'.mirror x unit r) = (.ok (some a), P'.mirror x unit r) ∧
    (client.endpoint = r.endpoint → P.unit ≠ unit → ∀ u,
      ((client.handle (.relationChanged r P.app u)).run.run (P'.mirror x unit r)).1 =
        .ok [.mountShare r]) ∧
    (P.secretsAvailable = true → ∃ id sec,
      (P'.bag r P'.ownApp).get? authKey = some id ∧
      P'.vault.lookup (authSecretLabel r) = some id ∧ P'.vault.get? id = some sec ∧
      sec.content = a.toDatabag ∧ r ∈ sec.grants ∧ ∃ t, t ≠ "" ∧ id = "secret:" ++ t) ∧
    (P.secretsAvailable = false →
      (P'.bag r P'.ownApp).get? authKey = some ("plain:" ++ a.toDatabag.toText)) := by
  -- a reachable host's vault is well formed, which is all the answer needs of it
  have ans := answered_of_run side hP.vault_wellFormed hrun
  exact ⟨ans.run_shareInfo_mirror client x unit, ans.run_authInfo_mirror client x unit,
    fun he hunit u => ans.run_handle_mirror client x he hunit u, ans.sealed, ans.inline⟩

/-- A leader with secrets answers its one client, whose unit `x/0` reads the share and the
credentials back and is asked to mount. -/
theorem published_share_reaches_client_sealed :
    let P := HostOp.apply (.addRelation "cephfs-share" "cephfs-client") <|
      HostOp.apply (.setSecretsAvailable true) <|
      HostOp.apply (.setLeader true) <| Host.new "cephfs-server-proxy" "cephfs-server-proxy/0"
    let r : Relation := ⟨"cephfs-share", 0⟩
    let s : ShareInfo := ⟨"354ca7c4", "ceph-fs", "/", ["10.5.0.80:6789"]⟩
    let a : AuthInfo := ⟨"ceph-client", "AQAPdQld"⟩
    let run := (ShareProvides.setShare ⟨"cephfs-share"⟩ ⟨⟩ r s a).run.run P
    let client : ShareRequires := ⟨"cephfs-share"⟩
    let M := run.2.mirror "x" "x/0" r
    P.Reachable ∧ run.1.isOk = true ∧
      (client.shareInfo r).run.run M = (.ok (some s), M) ∧
      (client.authInfo r).run.run M = (.ok (some a), M) ∧
      ∀ u, ((client.handle (.relationChanged r P.app u)).run.run M).1 = .ok [.mountShare r] := by
  intro P r s a run client M
  have hP : P.Reachable := .step _ (.step _ (.step _ (.new _ _)))
  have hok : run.1.isOk = true := by decide +kernel
  have hrun : (ShareProvides.setShare ⟨"cephfs-share"⟩ ⟨⟩ r s a).run.run P = (.ok (), run.2) :=
    Prod.ext (FilesystemClient.eq_ok_of_isOk hok) rfl
  obtain ⟨hinfo, hauth, hmount, -, -⟩ := published_share_reaches_client hP _ hrun client "x" "x/0"
  exact ⟨hP, hok, hinfo, hauth, hmount rfl (by decide)⟩

/-- The client's unit is the server's own `x/0`, whose scope of the relation holds a snapshot
that already has `share_info`. The mirror copies that scope as the client's own, so the answer
changes `share_info` rather than adding it, and the client is not asked to mount. -/
theorem first_answer_unseen_by_servers_own_unit :
    let r : Relation := ⟨"cephfs-share", 0⟩
    let P := HostOp.apply (.updateUnit r (Databag.ofList [("cache",
        "\x7b\"share_info\":\"old\"\x7d")])) <|
      HostOp.apply (.addRelation "cephfs-share" "cephfs-client") <|
      HostOp.apply (.setLeader true) <| Host.new "cephfs-server-proxy" "x/0"
    let run := (ShareProvides.setShare ⟨"cephfs-share"⟩ ⟨⟩ r ⟨"f1", "fs", "/", ["10.0.0.1"]⟩
      ⟨"u", "k"⟩).run.run P
    let client : ShareRequires := ⟨"cephfs-share"⟩
    let M := run.2.mirror "x" "x/0" r
    P.Reachable ∧ run.1.isOk = true ∧
      ((client.handle (.relationChanged r P.app none)).run.run M).1.toOption = some [] := by
  intro r P run client M
  exact ⟨.step _ (.step _ (.step _ (.new _ _))), by decide +kernel, by decide +kernel⟩

end ShareProvides

end ShareBroker
