import Mathlib.Data.List.SplitBy
import Mathlib.Data.List.Chain
import Mathlib.Data.List.TakeWhile
import ShareBroker.Proofs.Interface.FilesystemPublish
import ShareBroker.Charm.ServerProxy

/-!
# Proxy configurations yield publishable records

A server proxy turns its configuration into a filesystem record. The NFS proxy runs
`FsInfo.validate` on the record it builds; the Lustre and CephFS proxies check their values in
their own way instead: a value made of blanks counts as missing, host lists are cut at blanks,
pairs are cut at the first `:`, and every monitor must read as an address. This file shows
that those checks are at least as strict as `FsInfo.validate`, so every record a proxy
publishes is valid, reads back from its inline URI, and passes the validation step of
`FilesystemProvides.setInfo`.

## Key results

- `Text.mem_splitBlank_ne_empty`, `Text.splitBlank_ne_nil`: the pieces of a text cut at blanks
  are never empty, and there is one as soon as a character is not blank.
- `FsInfo.validate_lustre_eq_ok`, `FsInfo.validate_cephfs_eq_ok`: what validation asks of a
  Lustre and of a CephFS record.
- `CephfsConfig.toShare_eq_ok`: what a configuration that yields a share has given.
- `proxy_records_publishable`: every record of every proxy configuration is publishable.
-/

namespace ShareBroker

/-! ## Cutting at blanks -/

namespace Text

/-- Every character of a run that `splitBlankChars` cuts out is as blank as the run's first. -/
theorem isBlank_eq_head_of_mem_splitBy {cs g : List Char}
    (hg : g ∈ cs.splitBy fun a b => isBlank a == isBlank b) {c : Char} (hc : c ∈ g) :
    ∃ d, g.head? = some d ∧ isBlank c = isBlank d := by
  obtain ⟨d, rest, rfl⟩ := List.exists_cons_of_ne_nil (List.ne_nil_of_mem_splitBy hg)
  -- neighbours in a run agree on blankness, so the run's blankness is one repeated value
  have hchain : ((d :: rest).map isBlank).IsChain (· = ·) :=
    (List.isChain_map isBlank).2 ((List.isChain_of_mem_splitBy hg).imp fun _ _ h => by
      simpa using h)
  have hrep : rest.map isBlank = List.replicate (rest.map isBlank).length (isBlank d) :=
    List.isChain_cons_eq_iff_eq_replicate.1 (by simpa using hchain)
  refine ⟨d, rfl, ?_⟩
  rcases List.mem_cons.1 hc with rfl | hc
  · rfl
  · exact List.eq_of_mem_replicate (hrep ▸ List.mem_map_of_mem hc)

/-- The pieces of a text cut at blanks are not empty. -/
theorem mem_splitBlank_ne_empty {s p : String} (hp : p ∈ splitBlank s) : p ≠ "" := by
  obtain ⟨g, hg, rfl⟩ := List.mem_map.1 hp
  -- a run is kept only when it has a first character
  have hne : g ≠ [] := by
    rintro rfl
    simp at hg
  exact fun h => hne (String.ofList_eq_empty_iff.1 h)

/-- A text cut at blanks has a piece as soon as one of its characters is not blank. -/
theorem splitBlank_ne_nil {s : String} {c : Char} (hc : c ∈ s.toList) (hb : isBlank c = false) :
    splitBlank s ≠ [] := by
  -- the runs put back together give the text, so one run holds `c`
  have hmem : c ∈ (s.toList.splitBy fun a b => isBlank a == isBlank b).flatten := by
    rwa [List.flatten_splitBy]
  obtain ⟨g, hg, hcg⟩ := List.mem_flatten.1 hmem
  obtain ⟨d, hd, hcd⟩ := isBlank_eq_head_of_mem_splitBy hg hcg
  -- that run starts with a character no more blank than `c`, so it is kept
  unfold splitBlank splitBlankChars
  rw [ne_eq, List.map_eq_nil_iff, ← ne_eq]
  exact List.ne_nil_of_mem (List.mem_filter.2 ⟨hg, by simp [hd, ← hcd, hb]⟩)

/-- A text that is not blank throughout has a character that is not blank. -/
theorem exists_not_isBlank_of_trimBlank {s : String} (h : trimBlank s ≠ "") :
    ∃ c ∈ s.toList, isBlank c = false := by
  by_contra hall
  push Not at hall
  apply h
  have hdrop : s.toList.dropWhile isBlank = [] :=
    List.dropWhile_eq_nil_iff.2 fun c hc => by simpa using hall c hc
  simp [trimBlank, hdrop]

end Text

/-! ## What validation asks -/

namespace Outcome

/-- A step that returns nothing succeeds with its one value. -/
@[simp] theorem exists_eq_ok_unit {x : Outcome Unit} : (∃ u, x = .ok u) ↔ x = .ok () :=
  ⟨fun ⟨(), h⟩ => h, fun h => ⟨(), h⟩⟩

/-- A step whose result is dropped succeeds exactly when the step does. -/
@[simp] theorem map_const_unit_eq_ok {α : Type} {x : Outcome α} :
    ((fun _ => ()) <$> x : Outcome Unit) = .ok () ↔ ∃ a, x = .ok a := by
  cases x <;> simp [Functor.map, Except.map]

/-- A check run over a list succeeds exactly when it succeeds on every entry. -/
theorem forM_eq_ok {α : Type} {f : α → Outcome Unit} {xs : List α} :
    forM xs f = .ok () ↔ ∀ x ∈ xs, f x = .ok () := by
  induction xs with
  | nil => simp [pure, Except.pure]
  | cons x xs ih =>
    simp only [List.forM_cons, bind_eq_ok, ih, List.forall_mem_cons]
    constructor
    · rintro ⟨⟨⟩, hx, hs⟩
      exact ⟨hx, hs⟩
    · rintro ⟨hx, hs⟩
      exact ⟨(), hx, hs⟩

end Outcome

namespace FsInfo

theorem requireEntries_eq_ok {k : FsKind} {key : String} {vs : List String} :
    requireEntries k key vs = .ok () ↔ vs ≠ [] ∧ ∀ v ∈ vs, v ≠ "" := by
  cases vs with
  | nil => simp [requireEntries, requireField_eq_ok]
  | cons v vs =>
    show forM (v :: vs) (requireField k key) = _ ↔ _
    rw [Outcome.forM_eq_ok]
    simp [requireField_eq_ok]

theorem checkHost_eq_ok {host : String} {p : Option UInt16} :
    checkHost host = .ok p ↔ ∃ a : Address, Address.parse host = .ok a ∧ a.port = p := by
  unfold checkHost
  cases Address.parse host <;> simp

/-- A Lustre record is valid when it names at least one management server, none of them
empty, and a filesystem. -/
theorem validate_lustre_eq_ok {mgs : List String} {fsName : String} :
    (lustre mgs fsName).validate = .ok () ↔ (mgs ≠ [] ∧ ∀ m ∈ mgs, m ≠ "") ∧ fsName ≠ "" := by
  simp [validate, Outcome.bind_eq_ok, requireEntries_eq_ok, requireField_eq_ok]

/-- A CephFS record is valid when its fields are not empty and it names at least one monitor,
each one an address. -/
theorem validate_cephfs_eq_ok {fsid name path user key : String} {ms : List String} :
    (cephfs fsid name path ms user key).validate = .ok () ↔
      fsid ≠ "" ∧ name ≠ "" ∧ path ≠ "" ∧ user ≠ "" ∧ key ≠ "" ∧ (ms ≠ [] ∧ ∀ m ∈ ms, m ≠ "") ∧
        ∀ m ∈ ms, ∃ a : Address, Address.parse m = .ok a := by
  simp [validate, Outcome.bind_eq_ok, requireEntries_eq_ok, requireField_eq_ok, Outcome.forM_eq_ok,
    checkHost_eq_ok]

end FsInfo

/-! ## The proxies' own checks -/

namespace NfsConfig

/-- The NFS configuration runs validation itself, so its records are valid. -/
theorem toInfo_validate {c : NfsConfig} {i : FsInfo} (h : c.toInfo = .ok i) :
    i.validate = .ok () := by
  obtain ⟨hostname, path, port⟩ := c
  unfold toInfo at h
  cases hostname <;> cases path <;> simp [bind, Except.bind, pure, Except.pure, ite_eq_iff] at h
  -- past the two presence checks, the record is returned only when validation accepts it
  split at h
  · rename_i hvalid
    obtain ⟨-, -, h⟩ := h
    cases h
    exact hvalid
  · simp at h

end NfsConfig

namespace LustreConfig

/-- The Lustre configuration yields the record of its blank-separated NIDs and its
filesystem name, when there is at least one NID and the name is not empty. -/
theorem toInfo_eq_ok {c : LustreConfig} {i : FsInfo} :
    c.toInfo = .ok i ↔ ∃ nids fsName, c.mgsNids = some nids ∧ c.fsName = some fsName ∧
      Text.splitBlank nids ≠ [] ∧ fsName ≠ "" ∧ i = .lustre (Text.splitBlank nids) fsName := by
  obtain ⟨nids, fsName⟩ := c
  unfold toInfo
  cases nids <;> cases fsName <;> simp [bind, Except.bind, pure, Except.pure, ite_eq_iff]
  exact fun _ _ => eq_comm

/-- Cutting the NIDs at blanks leaves no empty NID, so the Lustre records are valid. -/
theorem toInfo_validate {c : LustreConfig} {i : FsInfo} (h : c.toInfo = .ok i) :
    i.validate = .ok () := by
  obtain ⟨nids, fsName, -, -, hnids, hname, rfl⟩ := toInfo_eq_ok.1 h
  exact FsInfo.validate_lustre_eq_ok.2
    ⟨⟨hnids, fun _ hm => Text.mem_splitBlank_ne_empty hm⟩, hname⟩

end LustreConfig

/-- Both sides of a pair cut at its first `:` are non-empty. -/
theorem splitPair_eq_some {s l r : String} (h : splitPair s = some (l, r)) : l ≠ "" ∧ r ≠ "" := by
  simp only [splitPair] at h
  split at h
  · split_ifs at h with hempty
    simp only [Option.some.injEq, Prod.mk.injEq] at h
    obtain ⟨rfl, rfl⟩ := h
    simp_all [String.ofList_eq_empty_iff]
  · cases h

namespace CephfsConfig

/-- A given value is present, not empty, and cuts at blanks into at least one piece. -/
theorem given_eq_some {v : Option String} {s : String} (h : given v = some s) :
    v = some s ∧ s ≠ "" ∧ Text.splitBlank s ≠ [] := by
  obtain ⟨hv, htrim⟩ := Option.filter_eq_some_iff.1 h
  have hne : Text.trimBlank s ≠ "" := by simpa [String.isEmpty_iff] using htrim
  obtain ⟨c, hc, hb⟩ := Text.exists_not_isBlank_of_trimBlank hne
  refine ⟨hv, ?_, Text.splitBlank_ne_nil hc hb⟩
  rintro rfl
  simp at hc

/-- What a configuration that yields a share has given: all four values, a sharepoint and
credentials that cut into name and path and into user and key, and monitors that are the
pieces of the monitor list, each of them an address. -/
theorem toShare_eq_ok {c : CephfsConfig} {s : ShareInfo} {a : AuthInfo}
    (h : c.toShare = .ok (s, a)) :
    ∃ sharepoint monitors auth, given c.fsid = some s.fsid ∧
      given c.sharepoint = some sharepoint ∧ given c.monitorHosts = some monitors ∧
      given c.authInfo = some auth ∧ splitPair sharepoint = some (s.name, s.path) ∧
      splitPair auth = some (a.username, a.key) ∧ s.monitors = Text.splitBlank monitors ∧
      ∀ m ∈ s.monitors, ∃ addr, Address.parse m = .ok addr := by
  unfold toShare at h
  simp only [bind, Except.bind, pure, Except.pure, List.map] at h
  -- the four values are all given
  split at h
  case h_2 => cases h
  rename_i fsid sharepoint monitors auth hvalues
  simp only [List.cons.injEq] at hvalues
  obtain ⟨hf, hsp, hm, ha, -⟩ := hvalues
  -- both pairs cut, and no monitor is refused
  split at h
  case h_2 => cases h
  rename_i p hp
  split at h
  case h_2 => cases h
  rename_i q hq
  split at h
  case h_1 => cases h
  rename_i hfind
  cases h
  refine ⟨sharepoint, monitors, auth, hf, hsp, hm, ha, hp, hq, rfl, fun m hm => ?_⟩
  have hparsed := List.find?_eq_none.1 hfind m hm
  cases hpm : Address.parse m with
  | error e => simp [hpm, Except.toBool] at hparsed
  | ok addr => exact ⟨addr, rfl⟩

/-- The CephFS configuration checks its values strictly enough that the published record is
valid: every field is non-empty, and the monitors are the non-empty pieces of a list that is
not blank, each one an address. -/
theorem toShare_validate {c : CephfsConfig} {s : ShareInfo} {a : AuthInfo}
    (h : c.toShare = .ok (s, a)) : (CephfsProxy.toInfo s a).validate = .ok () := by
  obtain ⟨sharepoint, monitors, auth, hf, -, hm, -, hsp, hauth, hms, haddr⟩ := toShare_eq_ok h
  obtain ⟨-, hfsid, -⟩ := given_eq_some hf
  obtain ⟨-, -, hpieces⟩ := given_eq_some hm
  obtain ⟨hname, hpath⟩ := splitPair_eq_some hsp
  obtain ⟨huser, hkey⟩ := splitPair_eq_some hauth
  rw [CephfsProxy.toInfo, FsInfo.validate_cephfs_eq_ok, hms]
  rw [hms] at haddr
  exact ⟨hfsid, hname, hpath, huser, hkey,
    ⟨hpieces, fun _ hm => Text.mem_splitBlank_ne_empty hm⟩, haddr⟩

end CephfsConfig

/-! ## Publishable records -/

namespace FsInfo

/-- A record a provider can publish: it passes validation, its inline URI reads back as the
record itself, and `setInfo` lets it through its validation step to sealing and spreading
the URI. -/
structure Publishable (i : FsInfo) : Prop where
  valid : i.validate = .ok ()
  readsBack : fromUri i.toUri = .ok i
  setInfo_passes : ∀ (side : FilesystemProvides) (t : LeadershipToken),
    side.setInfo t i = (do
      let (uri, secret) ← FilesystemProvides.publication i
      side.spread t uri secret)

/-- Every valid record is publishable. -/
theorem Publishable.of_validate {i : FsInfo} (hv : i.validate = .ok ()) : i.Publishable where
  valid := hv
  readsBack := (fromUri_toUri_eq_ok i i).2 ⟨rfl, hv⟩
  setInfo_passes side t := by
    rw [FilesystemProvides.setInfo_eq, hv]
    rfl

end FsInfo

/-- Every record a proxy's configuration yields can be published: the NFS, Lustre and CephFS
configurations check their values strictly enough that the record passes validation, reads
back from its URI, and goes through `setInfo` without a validation failure. -/
theorem proxy_records_publishable :
    (∀ (c : NfsConfig) (i : FsInfo), c.toInfo = .ok i → i.Publishable) ∧
    (∀ (c : LustreConfig) (i : FsInfo), c.toInfo = .ok i → i.Publishable) ∧
    (∀ (c : CephfsConfig) (s : ShareInfo) (a : AuthInfo), c.toShare = .ok (s, a) →
      (CephfsProxy.toInfo s a).Publishable) :=
  ⟨fun _ _ h => .of_validate (NfsConfig.toInfo_validate h),
    fun _ _ h => .of_validate (LustreConfig.toInfo_validate h),
    fun _ _ _ h => .of_validate (CephfsConfig.toShare_validate h)⟩

/-- A CephFS configuration in the documented form publishes its share. -/
theorem proxy_records_publishable_cephfs :
    (CephfsProxy.toInfo ⟨"354ca7c4", "ceph-fs", "/", ["10.5.0.80:6789", "10.5.2.23:6789"]⟩
      ⟨"ceph-client", "AQAPdQ=="⟩).Publishable :=
  proxy_records_publishable.2.2
    { fsid := some "354ca7c4", sharepoint := some "ceph-fs:/",
      monitorHosts := some "10.5.0.80:6789 10.5.2.23:6789",
      authInfo := some "ceph-client:AQAPdQ==" }
    _ _ (by decide +kernel)

end ShareBroker
