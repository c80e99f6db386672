import ShareBroker.Proofs.Interface.FilesystemPublish
import ShareBroker.Proofs.Charm.Dispatch
import ShareBroker.Proofs.Interface.MountNotices
import ShareBroker.Charm.Kind

/-!
# A deferred share request, delivered again

The CephFS proxy defers a share request that arrives while its configuration is unusable, and
the next dispatch delivers it again. By then the first delivery has moved the snapshot of the
client's scope on: nothing is added or changed, and the provider's input is a retry. Whether the
retry answers the request depends on what the relation shows, not on whether this request was
answered: `ShareProvides.handle` takes the relation as served as soon as it holds a
`share_info`, whichever request it answered.

## Key results

- `ShareProvides.run_handle_retry`: on a retry the provider asks to serve the request exactly
  when the relation holds no `share_info`.
- `CephfsProxy.redelivered_request`: once the configuration is valid, the redelivered request
  is answered by `setShare` when no `share_info` is there, and otherwise completes without
  writing anything; either way it leaves the queue.
- `CephfsProxy.redelivered_request_keeps_stale_share`: so a `share_info` left by an answer under
  an older configuration is never replaced by the share the valid configuration names.
-/

namespace ShareBroker

namespace Host

/-- A host still delivers an event about a relation it holds live. -/
theorem redelivers_of_isLive {h : Host} {d : HostEvent} {r : Relation} (hd : d.relation? = some r)
    (hr : h.isLive r = true) : h.redelivers d = true := by
  obtain ⟨st, hst, hbroken⟩ := (isLive_iff h r).1 hr
  simp only [redelivers, hd, List.any_eq_true]
  exact ⟨(r, st), mem_of_state? hst, by simp [hbroken]⟩

theorem config_modifyRelation (h : Host) (r : Relation) (f : RelationState → RelationState) :
    (h.modifyRelation r f).config = h.config := by
  unfold modifyRelation
  split <;> rfl

theorem deferred_modifyRelation (h : Host) (r : Relation) (f : RelationState → RelationState) :
    (h.modifyRelation r f).deferred = h.deferred := by
  unfold modifyRelation
  split <;> rfl

end Host

namespace ShareProvides

open Negotiation

variable {side : ShareProvides} {h : Host} {r : Relation} {app : String} {unit : Option String}

/-- On a retry, with the client's `name` present, the provider asks to serve exactly when the
relation holds no `share_info`; reading and diffing change nothing. -/
theorem run_handle_retry (hl : h.leader = true) (hr : h.isLive r = true)
    (he : r.endpoint = side.endpoint)
    (hb : Baseline h r h.ownUnit (.app app) (dataOnly (h.bag r (.app app))))
    (hname : (h.bag r (.app app)).contains shareNameKey = true) :
    (side.handle (.relationChanged r app unit)).run.run h =
      (.ok (if (h.bag r h.ownApp).contains shareInfoKey then []
        else [.shareRequested r (((h.bag r (.app app)).get? shareNameKey).getD "")]), h) := by
  have hon : (HostEvent.relationChanged r app unit).relationOn side.endpoint = some r := by
    simp [HostEvent.relationOn, HostEvent.relation?, he]
  -- the snapshot already is the data, so it holds the name and the diff is empty
  have hprev : (dataOnly (h.bag r (.app app))).contains shareNameKey = true := by
    simpa [Databag.contains, shareNameKey, isReserved] using hname
  have hdiff := run_diff_of_baseline_eq hr hb rfl
  unfold handle
  rw [hon, run_bind_ok (HostM.run_leadership_of_leader hl)]
  simp only [Option.isNone_some, Bool.false_eq_true, ↓reduceIte, pure_bind]
  rw [run_bind_ok (HostM.run_ownUnit h), run_bind_ok (run_cached_of_baseline hr hb),
    run_bind_ok (HostM.run_ownApp h), run_bind_ok (HostM.run_read_of_isLive hr _),
    run_bind_ok hdiff]
  -- an empty diff is a retry, which serves a request not yet served
  simp only [Transaction.empty, Transaction.isEmpty, List.contains_nil, List.isEmpty_nil,
    Bool.false_eq_true, ↓reduceIte, and_self, decide_true, Option.bind_some, hprev]
  cases (h.bag r h.ownApp).contains shareInfoKey
  · simp only [ProviderState.observe, ProviderState.step, Bool.false_eq_true, ↓reduceIte]
    rw [run_bind_ok (HostM.run_read_of_isLive hr _)]
    rfl
  · rfl

theorem write_toJson_ne_empty (s : ShareInfo) : s.toJson.write ≠ "" := by
  intro h
  have := congrArg String.length h
  simp [ShareInfo.toJson, Json.write] at this

/-- Answering on a live relation of a leader succeeds: the credentials go behind a pointer,
granted to the relation when sealed, and the relation carries the share's record. -/
theorem run_setShare (hv : h.vault.WellFormed) (hl : h.leader = true) (hr : h.isLive r = true)
    (t : LeadershipToken) (s : ShareInfo) (a : AuthInfo) :
    ∃ h', (side.setShare t r s a).run.run h = (.ok (), h') ∧
      (h'.bag r h'.ownApp).get? shareInfoKey = some s.toJson.write ∧ h'.deferred = h.deferred := by
  -- the record is written with the pointer, whatever the pointer is
  have hwrite : ∀ (h₀ : Host) (p : SecretRef), h₀.leader = true → h₀.isLive r = true →
      ∃ h', (HostM.updateApp r (Databag.ofList [(shareInfoKey, s.toJson.write),
          (authKey, p.toString)]) t).run.run h₀ = (.ok (), h') ∧
        (h'.bag r h'.ownApp).get? shareInfoKey = some s.toJson.write ∧
        h'.deferred = h₀.deferred := by
    intro h₀ p hl₀ hr₀
    have hu : (Databag.ofList [(shareInfoKey, s.toJson.write), (authKey, p.toString)]).get?
        shareInfoKey = some s.toJson.write := by
      rw [Databag.get?_ofList_of_nodup (by simp [shareInfoKey, authKey])]
      simp [Databag.lookupIn, shareInfoKey, authKey]
    refine ⟨_, by rw [HostM.run_updateApp, if_pos hl₀, if_pos hr₀], ?_, ?_⟩
    · rw [Host.get?_remoteUpdate_ownApp hr₀ hu,
        if_neg (write_toJson_ne_empty s)]
    · exact Host.deferred_modifyRelation _ _ _
  unfold setShare
  cases ha : h.secretsAvailable with
  | false =>
    rw [run_bind_ok (HostM.run_conceal_of_unavailable ha _ _)]
    exact hwrite h _ hl hr
  | true =>
    -- the credentials are stored under the relation's label and granted to it
    obtain ⟨hwf, sec, hsec, -, -⟩ := hv.ensure a.toDatabag (authSecretLabel r)
    rw [run_bind_ok (HostM.run_conceal_of_available ha _ _)]
    simp only []
    rw [run_bind_ok (FilesystemProvides.run_grantSecret hwf hsec r)]
    exact hwrite _ _ hl hr

end ShareProvides

theorem HostM.run_config (h : Host) : HostM.config.run.run h = (.ok h.config, h) := rfl

theorem CharmM.run_host {α : Type} (m : HostM α) (h : Host) (x : Executor) :
    (CharmM.host m).run.run (h, x) = ((m.run.run h).1, ((m.run.run h).2, x)) := rfl

namespace CephfsProxy

variable {h : Host} {r : Relation} {app : String} {unit : Option String} {c : CephfsConfig}
  {s : ShareInfo} {a : AuthInfo}

/-- With a usable configuration, a leader answers a request by `setShare` and is done with
it. -/
theorem run_serveShare (hc : CephfsConfig.load h.config = .ok c) (hs : c.toShare = .ok (s, a))
    (hl : h.leader = true) {h' : Host} (hset : (share.setShare ⟨⟩ r s a).run.run h = (.ok (), h'))
    (name : String) : (serveShare (.shareRequested r name)).run.run h = (.ok .done, h') := by
  unfold serveShare
  rw [run_bind_ok (HostM.run_config h), hc, run_bind_ok (HostM.run_ofOutcome_ok c h)]
  simp only [hs]
  rw [run_bind_ok (HostM.run_leadership_of_leader hl), run_bind_ok hset]
  rfl

/-- A share request delivered again once the configuration is usable, with its snapshot
already current and its `name` still set: it completes, and it is answered by `setShare`
exactly when the relation holds no `share_info`; otherwise nothing is written. -/
theorem run_handle_retry (hv : h.vault.WellFormed) (hl : h.leader = true)
    (hr : h.isLive r = true) (he : r.endpoint = share.endpoint) (unit : Option String)
    (hc : CephfsConfig.load h.config = .ok c) (hs : c.toShare = .ok (s, a))
    (hb : Baseline h r h.ownUnit (.app app) (dataOnly (h.bag r (.app app))))
    (hname : (h.bag r (.app app)).contains shareNameKey = true) :
    ∃ h', (handle (.relationChanged r app unit)).run.run h = (.ok .done, h') ∧
      h'.deferred = h.deferred ∧
      ((h.bag r h.ownApp).contains shareInfoKey = true → h' = h) ∧
      ((h.bag r h.ownApp).contains shareInfoKey = false →
        (share.setShare ⟨⟩ r s a).run.run h = (.ok (), h') ∧
        (h'.bag r h'.ownApp).get? shareInfoKey = some s.toJson.write) := by
  -- the filesystem side ignores the event, which is not on its endpoint
  have hfs : (proxyFilesystem.handle (.relationChanged r app unit)).run.run h = (.ok (), h) := by
    have hnone : (HostEvent.relationChanged r app unit).relationOn proxyFilesystem.endpoint =
        none := by
      simp [HostEvent.relationOn, HostEvent.relation?, he, proxyFilesystem, share]
    unfold FilesystemProvides.handle
    rw [hnone]
    rfl
  unfold handle
  simp only [reconfigures, Bool.false_eq_true, ↓reduceIte]
  rw [run_bind_ok hfs, run_bind_ok (ShareProvides.run_handle_retry hl hr he hb hname)]
  cases hserved : (h.bag r h.ownApp).contains shareInfoKey
  · -- not served yet: the one request is answered
    obtain ⟨h', hset, hinfo, hdef⟩ := share.run_setShare hv hl hr ⟨⟩ s a
    refine ⟨h', ?_, hdef, fun h => absurd h Bool.false_ne_true, fun _ => ⟨hset, hinfo⟩⟩
    simp only [Bool.false_eq_true, ↓reduceIte, List.forIn_cons, List.forIn_nil, bind_assoc]
    rw [run_bind_ok (run_serveShare hc hs hl hset _)]
    rfl
  · -- served before: no request, and nothing is written
    exact ⟨h, rfl, rfl, fun _ => rfl, fun h => absurd h.symm Bool.false_ne_true⟩

/-- A redelivered event about a live relation is handed to the proxy; when the proxy is done
with it, it is not queued again. -/
theorem run_redeliver_of_done {x : Executor} (hr : h.isLive r = true) {h' : Host}
    (hrun : (handle (.relationChanged r app unit)).run.run h = (.ok .done, h')) :
    (redeliver CharmKind.cephfsServerProxy.handle (.relationChanged r app unit)).run.run (h, x) =
      (.ok (), (h', x)) := by
  have hcharm : (CharmKind.cephfsServerProxy.handle (.relationChanged r app unit)).run.run
      (h, x) = (.ok .done, (h', x)) := by
    rw [CharmKind.handle, CharmM.run_host, hrun]
  rw [run_redeliver_of_true (Host.redelivers_of_isLive rfl hr), run_deliver_done hcharm]

/-- A share request deferred while the configuration was unusable, delivered again once it is
usable, with the client's scope unchanged since (so its snapshot is current) and its `name`
still set. The redelivery completes and does not queue the request again. It is answered by
`setShare`, and the relation then carries the share the configuration names, exactly when the
relation holds no `share_info`; when it holds one, left by an earlier answer, nothing is
written and that `share_info` stays. -/
theorem redelivered_request {x : Executor} (hP : h.Reachable) (hl : h.leader = true)
    (hr : h.isLive r = true) (he : r.endpoint = share.endpoint)
    (hc : CephfsConfig.load h.config = .ok c) (hs : c.toShare = .ok (s, a))
    (hb : Baseline h r h.ownUnit (.app app) (dataOnly (h.bag r (.app app))))
    (hname : (h.bag r (.app app)).contains shareNameKey = true) :
    ∃ h', (redeliver CharmKind.cephfsServerProxy.handle (.relationChanged r app unit)).run.run
        (h, x) = (.ok (), (h', x)) ∧
      h'.deferred = h.deferred ∧
      ((h.bag r h.ownApp).contains shareInfoKey = true → h' = h) ∧
      ((h.bag r h.ownApp).contains shareInfoKey = false →
        (share.setShare ⟨⟩ r s a).run.run h = (.ok (), h') ∧
        (h'.bag r h'.ownApp).get? shareInfoKey = some s.toJson.write) := by
  obtain ⟨h', hrun, hdef, hserved, hfresh⟩ :=
    run_handle_retry hP.vault_wellFormed hl hr he unit hc hs hb hname
  exact ⟨h', run_redeliver_of_done hr hrun, hdef, hserved, hfresh⟩

/-- The request redelivered on a relation never answered before: the proxy answers it. -/
theorem redelivered_request_unanswered :
    let config : Yaml := .map [(.str "fsid", .str "f1"), (.str "sharepoint", .str "fs:/"),
      (.str "monitor-hosts", .str "10.0.0.1"), (.str "auth-info", .str "u:k")]
    let r : Relation := ⟨"cephfs-share", 0⟩
    let asked := HostOp.apply (.remoteUpdate r (.app "client") (Databag.ofList [("name", "fs")])) <|
      HostOp.apply (.addRelation "cephfs-share" "client") <| HostOp.apply (.setConfig config) <|
        HostOp.apply (.setLeader true) <| Host.new "proxy" "proxy/0"
    let h := HostOp.apply (.remoteUpdate r (.unit "proxy/0")
      (Databag.ofList [("cache", (Databag.ofList [("name", "fs")]).toText)])) asked
    let c : CephfsConfig := ⟨some "f1", some "fs:/", some "10.0.0.1", some "u:k"⟩
    let s : ShareInfo := ⟨"f1", "fs", "/", ["10.0.0.1"]⟩
    let a : AuthInfo := ⟨"u", "k"⟩
    h.Reachable ∧ h.leader = true ∧ h.isLive r = true ∧ r.endpoint = share.endpoint ∧
      CephfsConfig.load h.config = .ok c ∧ c.toShare = .ok (s, a) ∧
      Baseline h r h.ownUnit (.app "client") (dataOnly (h.bag r (.app "client"))) ∧
      (h.bag r (.app "client")).contains shareNameKey = true ∧
      ∃ h', (redeliver CharmKind.cephfsServerProxy.handle
          (.relationChanged r "client" (some "client/0"))).run.run (h, default) =
          (.ok (), (h', default)) ∧
        h'.deferred = h.deferred ∧
        ((h.bag r h.ownApp).contains shareInfoKey = true → h' = h) ∧
        ((h.bag r h.ownApp).contains shareInfoKey = false →
          (share.setShare ⟨⟩ r s a).run.run h = (.ok (), h') ∧
          (h'.bag r h'.ownApp).get? shareInfoKey = some s.toJson.write) := by
  intro config r asked h c s a
  have hP : h.Reachable := .step _ (.step _ (.step _ (.step _ (.step _ (.new _ _)))))
  have hl : h.leader = true := by decide
  have hr : h.isLive r = true := by decide
  have he : r.endpoint = share.endpoint := rfl
  have hc : CephfsConfig.load h.config = .ok c := by
    simp only [h, asked, HostOp.apply, Host.remoteUpdate, Host.config_modifyRelation]
    rfl
  have hs : c.toShare = .ok (s, a) := by decide
  -- the snapshot under `cache` is the text of the client's data: it already saw the request
  have hb : Baseline h r h.ownUnit (.app "client") (dataOnly (h.bag r (.app "client"))) :=
    .inr (by decide)
  have hname : (h.bag r (.app "client")).contains shareNameKey = true := by decide
  exact ⟨hP, hl, hr, he, hc, hs, hb, hname, redelivered_request hP hl hr he hc hs hb hname⟩

/-- A request redelivered on a relation that an earlier answer, under an older configuration,
left a `share_info` on. The configuration is valid now, yet the proxy takes the relation as
served: the redelivery completes and leaves the host as it was, so the relation keeps the old
share and never gets the one the configuration now names. -/
theorem redelivered_request_keeps_stale_share :
    let config : Yaml := .map [(.str "fsid", .str "f1"), (.str "sharepoint", .str "fs:/"),
      (.str "monitor-hosts", .str "10.0.0.1"), (.str "auth-info", .str "u:k")]
    let r : Relation := ⟨"cephfs-share", 0⟩
    let old : ShareInfo := ⟨"f0", "fs", "/", ["10.0.0.1"]⟩
    let answered :=
      HostOp.apply (.updateApp r (Databag.ofList [("share_info", old.toJson.write)])) <|
      HostOp.apply (.remoteUpdate r (.app "client") (Databag.ofList [("name", "fs")])) <|
      HostOp.apply (.addRelation "cephfs-share" "client") <|
        HostOp.apply (.setLeader true) <| Host.new "proxy" "proxy/0"
    let h := HostOp.apply (.remoteUpdate r (.unit "proxy/0")
      (Databag.ofList [("cache", (Databag.ofList [("name", "fs")]).toText)])) <|
      HostOp.apply (.setConfig config) answered
    let c : CephfsConfig := ⟨some "f1", some "fs:/", some "10.0.0.1", some "u:k"⟩
    let s : ShareInfo := ⟨"f1", "fs", "/", ["10.0.0.1"]⟩
    let a : AuthInfo := ⟨"u", "k"⟩
    CephfsConfig.load h.config = .ok c ∧ c.toShare = .ok (s, a) ∧
      (redeliver CharmKind.cephfsServerProxy.handle
          (.relationChanged r "client" (some "client/0"))).run.run (h, default) =
        (.ok (), (h, default)) ∧
      (h.bag r h.ownApp).get? shareInfoKey = some old.toJson.write ∧
      old.toJson.write ≠ s.toJson.write := by
  intro config r old answered h c s a
  have hP : h.Reachable := .step _ (.step _ (.step _ (.step _ (.step _ (.step _ (.new _ _))))))
  have hl : h.leader = true := by decide
  have hr : h.isLive r = true := by decide
  have hc : CephfsConfig.load h.config = .ok c := by
    simp only [h, HostOp.apply, Host.remoteUpdate, Host.config_modifyRelation]
    rfl
  have hs : c.toShare = .ok (s, a) := by decide
  have hb : Baseline h r h.ownUnit (.app "client") (dataOnly (h.bag r (.app "client"))) :=
    .inr (by decide)
  have hname : (h.bag r (.app "client")).contains shareNameKey = true := by decide
  have hold : (h.bag r h.ownApp).get? shareInfoKey = some old.toJson.write := by decide
  -- the old `share_info` marks the relation as served, so the retry leaves the host alone
  obtain ⟨h', hrun, -, hserved, -⟩ := run_handle_retry hP.vault_wellFormed hl hr
    rfl (some "client/0") hc hs hb hname
  obtain rfl : h' = h := hserved (by decide)
  exact ⟨hc, hs, run_redeliver_of_done hr hrun, hold, by decide⟩

end CephfsProxy

end ShareBroker
