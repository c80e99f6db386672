import ShareBroker.Proofs.Record.RoundTrip
import ShareBroker.Proofs.Interface.Requests
import ShareBroker.Proofs.Interface.ProviderRequests
import ShareBroker.Proofs.Interface.ShareRoundTrip

/-!
# Records read back across a relation

The interfaces publish their records through the per-field codec: `Record.save` writes one key
per field, and `MountRequires.setMountInfo` merges those keys into the application's scope of
the relation, which may hold other keys already. The provider's `MountProvides.mountInfo` reads
the scope back with `Record.load`, which reads every non-reserved key, not only the record's.

* `ShareInfo.load_save`: a share survives the codec, as a mount request does
  (`MountInfo.load_save`);
* `MountRequires.bag_of_run_setMountInfo`: what an accepted request leaves in the scope;
* `MountRequires.mountInfo_mirror_eq_ok_iff`: the provider across the relation reads the
  request back exactly when every other non-reserved value of the scope reads as JSON;
* `records_survive_codec`: all of it together.
-/

namespace ShareBroker

/-! ## The share record -/

theorem Json.depth_ofStrings (l : List String) : (Json.ofStrings l).depth = 1 := by
  induction l with
  | nil => rfl
  | cons s l ih => simpa [Json.ofStrings, Json.depth, Json.depthItems] using ih

theorem Json.plain_ofStrings (l : List String) : Json.Plain (.ofStrings l) :=
  .arr _ fun x hx => by
    obtain ⟨s, -, rfl⟩ := List.mem_map.1 hx
    exact .str s

namespace ShareInfo

/-- An object with distinct keys that holds the fields of a share, whatever else it holds,
decodes as that share. -/
theorem ofJson_eq_ok {s : ShareInfo} {gs : Json.Fields} (hnd : (gs.map (·.1)).Nodup)
    (hs : ∀ k j, s.toJson.field? k = some j → (k, j) ∈ gs) : ofJson (.obj gs) = .ok s := by
  obtain ⟨fsid, name, path, mons⟩ := s
  obtain ⟨met, hcol, hl⟩ := @Fields.exists_collect schema _ _ hnd
    (by simp [schema, Json.Fields.find?, FieldSpec.string, FieldSpec.strings, Json.decodeString,
      Json.decodeStrings_ofStrings, Except.map]) hs
  simp only [ofJson, hcol]
  change ofMet met = _
  simp [ofMet, Fields.required, hl "fsid" (.str fsid) rfl rfl, hl "name" (.str name) rfl rfl,
    hl "path" (.str path) rfl rfl, hl "monitor_hosts" (.ofStrings mons) rfl rfl,
    Json.decodeString, Json.decodeStrings_ofStrings, bind, Except.bind, pure, Except.pure]

/-- A share saved one field per key loads back as itself. -/
theorem load_save (s : ShareInfo) : (Record.save s.toJson >>= Record.load ofJson) = .ok s := by
  refine Record.load_save_eq (by simp) (fun k j hj => ?_) fun _ hnd hs => ofJson_eq_ok hnd hs
  have hmem := mem_of_find?_key hj
  simp only [List.mem_cons, Prod.mk.injEq, List.not_mem_nil, or_false] at hmem
  rcases hmem with ⟨rfl, rfl⟩ | ⟨rfl, rfl⟩ | ⟨rfl, rfl⟩ | ⟨rfl, rfl⟩
  · exact ⟨.str _, by simp [Json.depth], by simp [isReserved]⟩
  · exact ⟨.str _, by simp [Json.depth], by simp [isReserved]⟩
  · exact ⟨.str _, by simp [Json.depth], by simp [isReserved]⟩
  · exact ⟨Json.plain_ofStrings _, by simp [Json.depth_ofStrings], by simp [isReserved]⟩

end ShareInfo

/-! ## A mount request across the relation -/

namespace MountRequires

variable {P P' : Host} {side : MountRequires} {t : LeadershipToken} {r : Relation}
  {m : MountInfo}

/-- An accepted request merges the saved record into the application's scope of the relation. -/
theorem bag_of_run_setMountInfo (hs : P.Sorted) {d : Databag} (hd : Record.save m.toJson = .ok d)
    (hrun : (side.setMountInfo t r m).run.run P = (.ok (), P')) :
    P'.bag r P'.ownApp = (P.bag r P.ownApp).merge d := by
  rw [run_setMountInfo hs hd t] at hrun
  cases hfind : (P.liveOn side.endpoint).findSome?
      (side.refusal P r ((d.get? mountpointKey).getD "")) with
  | some e =>
    rw [hfind] at hrun
    cases hrun
  | none =>
    rw [hfind, Option.elim_none, HostM.run_updateApp] at hrun
    split_ifs at hrun with hl hlive
    · obtain ⟨-, rfl⟩ := Prod.mk.inj hrun
      rw [Host.ownApp_remoteUpdate, Host.bag_remoteUpdate (Host.isSome_state?_of_isLive hlive),
        if_pos ⟨rfl, rfl⟩]
    · cases hrun
    · cases hrun

/-- After an accepted request, the provider's unit across the relation reads the request back
exactly when every other non-reserved value that the requirer's scope held reads as JSON. -/
theorem mountInfo_mirror_eq_ok_iff (hP : P.Reachable)
    (hrun : (side.setMountInfo t r m).run.run P = (.ok (), P')) (prov : MountProvides)
    (x unit : String) :
    (prov.mountInfo r).run.run (P'.mirror x unit r) = (.ok (some m), P'.mirror x unit r) ↔
      ∀ k w, (P.bag r P.ownApp).get? k = some w → isReserved k = false →
        k ∉ MountInfo.schema.map (·.name) → ∃ j, Json.read w = .ok j := by
  obtain ⟨d, hd, hmp⟩ := exists_save_toJson m
  have hP' : P'.Reachable := by
    have hreach : ((side.setMountInfo t r m).run.run P).2.Reachable := setMountInfo_reachable hP t
    rwa [hrun] at hreach
  -- the mirror reads the requirer's scope, which now holds the mountpoint, as the remote one
  rw [MountProvides.run_mountInfo (hP'.wellFormed.mirror x unit r) (Host.isLive_mirror P' x unit r)
    (Host.remoteApp_mirror P' x unit r), Host.bag_mirror_ownApp,
    bag_of_run_setMountInfo hP.sorted hd hrun, Databag.get?_merge_of_some hmp,
    if_neg (Json.write_str_ne_empty _), ← MountInfo.load_merge_save_iff m, hd]
  simp only [Option.isSome_some, if_true, bind, Except.bind]
  cases Record.load MountInfo.ofJson ((P.bag r P.ownApp).merge d) with
  | error e => exact iff_of_false (fun h => by cases h) (fun h => by cases h)
  | ok v => exact ⟨fun h => by cases h; rfl, fun h => by cases h; rfl⟩

end MountRequires

/-! ## Records survive the codec -/

/-- The per-field codec keeps records. A plain object (no doubles, integers of a 64-bit word,
distinct keys in order) under keys that are not reserved is saved as exactly its fields, each
key holding the field's text, never empty; it loads back as itself exactly when no field nests
128 containers deep. Mount requests and shares load back as themselves, and reserved keys play
no part in loading. After a request for a mount is accepted, the provider's unit across the
relation reads it back exactly when every other non-reserved value of the requirer's scope
reads as JSON. -/
theorem records_survive_codec :
    (∀ fs : Json.Fields, Json.Plain (.obj fs) → (∀ kv ∈ fs, isReserved kv.1 = false) →
      (∃ d, Record.save (.obj fs) = .ok d ∧ d.entries = fs.map (fun kv => (kv.1, kv.2.write)) ∧
        d.NoEmpty) ∧
      ((Record.save (.obj fs) >>= Record.load fun j => .ok j) = .ok (.obj fs) ↔
        ∀ kv ∈ fs, kv.2.depth < 128)) ∧
    (∀ m : MountInfo, (Record.save m.toJson >>= Record.load MountInfo.ofJson) = .ok m) ∧
    (∀ s : ShareInfo, (Record.save s.toJson >>= Record.load ShareInfo.ofJson) = .ok s) ∧
    (∀ (α : Type) (decode : Json → Except DecodeError α) (d : Databag),
      Record.load decode (dataOnly d) = Record.load decode d) ∧
    (∀ (P P' : Host) (side : MountRequires) (t : LeadershipToken) (r : Relation) (m : MountInfo),
      P.Reachable → (side.setMountInfo t r m).run.run P = (.ok (), P') →
      ∀ (prov : MountProvides) (x unit : String),
        (prov.mountInfo r).run.run (P'.mirror x unit r) = (.ok (some m), P'.mirror x unit r) ↔
          ∀ k w, (P.bag r P.ownApp).get? k = some w → isReserved k = false →
            k ∉ MountInfo.schema.map (·.name) → ∃ j, Json.read w = .ok j) :=
  ⟨fun _ hv hres => ⟨Record.save_plain hv, Record.load_save_plain_iff hv hres⟩,
    MountInfo.load_save, ShareInfo.load_save, fun _ => Record.load_dataOnly,
    fun _ _ _ _ _ _ hP hrun => MountRequires.mountInfo_mirror_eq_ok_iff hP hrun⟩

/-- A leader with one relation asks for a mount at `/data`, and the provider's unit reads it
back; a one-field object of text loads back as itself. -/
theorem records_survive_codec_at_data :
    let r : Relation := ⟨"mount", 0⟩
    let P := HostOp.apply (.addRelation "mount" "filesystem-client") <|
      HostOp.apply (.setLeader true) <| Host.new "workload" "workload/0"
    let m : MountInfo := ⟨"/data", false, false, false, false⟩
    let run := (MountRequires.setMountInfo ⟨"mount"⟩ ⟨⟩ r m).run.run P
    let M := run.2.mirror "filesystem-client" "filesystem-client/0" r
    P.Reachable ∧ run.1.isOk = true ∧
      (Record.save (.obj [("a", .str "b")]) >>= Record.load fun j => .ok j) =
        .ok (.obj [("a", .str "b")]) ∧
      (MountProvides.mountInfo ⟨"mount"⟩ r).run.run M = (.ok (some m), M) := by
  intro r P m run M
  have hP : P.Reachable := .step _ (.step _ (.new _ _))
  have hok : run.1.isOk = true := by decide +kernel
  have hrun : (MountRequires.setMountInfo ⟨"mount"⟩ ⟨⟩ r m).run.run P = (.ok (), run.2) :=
    Prod.ext (FilesystemClient.eq_ok_of_isOk hok) rfl
  have hplain : Json.Plain (.obj [("a", .str "b")]) :=
    .obj _ (by simp) fun kv hkv => by
      rw [List.mem_singleton.1 hkv]
      exact .str _
  obtain ⟨hobj, -, -, -, hmount⟩ := records_survive_codec
  refine ⟨hP, hok, (hobj _ hplain (by simp [isReserved])).2.2 (by simp [Json.depth]),
    (hmount P run.2 ⟨"mount"⟩ ⟨⟩ r m hP hrun ⟨"mount"⟩ _ _).2 fun k w hw => ?_⟩
  -- the requirer's scope held nothing before the request
  rw [show P.bag r P.ownApp = .empty from rfl, Databag.get?_empty] at hw
  cases hw

/-- A stray value that is not JSON text, written to the requirer's scope before the request,
stops the provider from reading the request back, though the request itself is accepted. -/
theorem mount_request_unread_beside_stray_value :
    let r : Relation := ⟨"mount", 0⟩
    let P := HostOp.apply (.updateApp r (Databag.ofList [("extra", "x")])) <|
      HostOp.apply (.addRelation "mount" "filesystem-client") <|
      HostOp.apply (.setLeader true) <| Host.new "workload" "workload/0"
    let m : MountInfo := ⟨"/data", false, false, false, false⟩
    let run := (MountRequires.setMountInfo ⟨"mount"⟩ ⟨⟩ r m).run.run P
    let M := run.2.mirror "filesystem-client" "filesystem-client/0" r
    P.Reachable ∧ run.1.isOk = true ∧
      ((MountProvides.mountInfo ⟨"mount"⟩ r).run.run M).1.isOk = false := by
  intro r P m run M
  exact ⟨.step _ (.step _ (.step _ (.new _ _))), by decide +kernel, by decide +kernel⟩

end ShareBroker
