import ShareBroker.Proofs.Mount.Machine

/-!
# The desired mounts as a map

`MountTable.add` keeps the desired mounts of a unit as a map from mountpoint to line, in which
the last write at a mountpoint wins. This file shows that

* `add` refuses exactly the entries the map cannot hold: a mountpoint that is not absolute, or a
  blank in the mountpoint, the endpoint or an option, since blanks separate the fields of a
  line (`MountTable.Writable`). Otherwise it sets the entry of its mountpoint to the endpoint
  and the sorted options and leaves every other entry as it was;
* a table whose mountpoints ascend is determined by what it holds at each mountpoint
  (`MountTable.ext_lookup`), so adds at different mountpoints commute;
* every table built by `add` renders to a well-formed direct map: one line per entry, in
  strictly increasing mountpoint order, each of three fields, none empty and none with a blank.

## Key results

- `MountTable.lookup_putEntry`, `MountTable.ext_lookup`, `MountTable.putEntry_comm`: the entry
  list as a map
- `MountTable.add_eq_ok`, `MountTable.add_eq_error`, `MountTable.eq_putEntry_of_add`: what `add`
  does, by whether the line is writable
- `MountTable.Built.lines`: every line of a built table is one the map can hold
- `MountTable.render_eq_empty_iff`, `MountTable.render_lines`: the lines of the rendered map
- `MountTable.desired_mounts_last_write_wins`: all of it
-/

namespace ShareBroker

/-! ## Blanks in joined texts -/

namespace Text

@[simp] theorem hasBlank_append (a b : String) : hasBlank (a ++ b) = (hasBlank a || hasBlank b) := by
  simp [hasBlank, String.toList_append, List.any_append]

theorem hasBlank_of_mem {s : String} {c : Char} (hc : c ∈ s.toList) (hblank : isBlank c = true) :
    hasBlank s = true :=
  List.any_eq_true.2 ⟨c, hc, hblank⟩

/-- Texts without blanks joined by a separator without blanks have no blank. -/
theorem hasBlank_intercalate {sep : String} (hsep : hasBlank sep = false) :
    ∀ {l : List String}, (∀ s ∈ l, hasBlank s = false) → hasBlank (sep.intercalate l) = false
  | [], _ => rfl
  | [s], h => by simpa using h s
  | s :: t :: rest, h => by
    have hrest : hasBlank (sep.intercalate (t :: rest)) = false :=
      hasBlank_intercalate hsep fun u hu => h u (List.mem_cons_of_mem s hu)
    rw [String.intercalate_cons_cons, hasBlank_append, hasBlank_append, hrest, hsep,
      h s List.mem_cons_self]
    rfl

end Text

namespace MountTable

/-! ## Sorting the options -/

theorem sorted_insertSorted (s : String) {l : List String} (hl : l.Pairwise (· ≤ ·)) :
    (insertSorted s l).Pairwise (· ≤ ·) := by
  induction l with
  | nil => simp [insertSorted]
  | cons t l ih =>
    rw [List.pairwise_cons] at hl
    unfold insertSorted
    split
    · -- `s` goes further in, past `t`, which stays below everything after it
      rename_i hts
      refine List.Pairwise.cons (fun x hx => ?_) (ih hl.2)
      rcases mem_insertSorted.1 hx with rfl | hx
      · exact hts
      · exact hl.1 x hx
    · rename_i hts
      have hst : s ≤ t := le_of_lt (not_le.1 hts)
      refine List.Pairwise.cons (fun x hx => ?_) (List.Pairwise.cons hl.1 hl.2)
      rcases List.mem_cons.1 hx with rfl | hx
      · exact hst
      · exact le_trans hst (hl.1 x hx)

theorem sorted_sortStrings (l : List String) : (sortStrings l).Pairwise (· ≤ ·) := by
  induction l with
  | nil => exact List.Pairwise.nil
  | cons s l ih =>
    simp only [sortStrings, List.foldr_cons] at ih ⊢
    exact sorted_insertSorted s ih

theorem sortStrings_perm (l : List String) : (sortStrings l).Perm l := by
  induction l with
  | nil => exact List.Perm.refl _
  | cons s l ih =>
    simp only [sortStrings, List.foldr_cons] at ih ⊢
    exact (insertSorted_perm s _).trans (ih.cons s)

/-! ## The entry list as a map -/

theorem lookup_cons_ite (k k' : String) (e : MountEntry) (l : List (String × MountEntry)) :
    ((k', e) :: l).lookup k = if k = k' then some e else l.lookup k := by
  rw [List.lookup_cons]
  by_cases h : k = k'
  · simp [h]
  · simp [h, beq_eq_false_iff_ne.2 h]

theorem lookup_putEntry_self (mp : String) (e : MountEntry) (l : List (String × MountEntry)) :
    (putEntry mp e l).lookup mp = some e := by
  induction l with
  | nil => simp [putEntry]
  | cons p l ih =>
    obtain ⟨mp', e'⟩ := p
    simp only [putEntry]
    split_ifs with hlt heq
    · simp
    · simp
    · rw [lookup_cons_ite, if_neg heq, ih]

theorem lookup_putEntry_of_ne {mp k : String} (hk : k ≠ mp) (e : MountEntry)
    (l : List (String × MountEntry)) : (putEntry mp e l).lookup k = l.lookup k := by
  induction l with
  | nil => rw [putEntry, lookup_cons_ite, if_neg hk]
  | cons p l ih =>
    obtain ⟨mp', e'⟩ := p
    simp only [putEntry]
    split_ifs with hlt heq
    · rw [lookup_cons_ite, if_neg hk]
    · subst heq
      rw [lookup_cons_ite, lookup_cons_ite, if_neg hk, if_neg hk]
    · rw [lookup_cons_ite, lookup_cons_ite, ih]

/-- Putting an entry changes what the table holds at its mountpoint and nowhere else. -/
theorem lookup_putEntry (mp : String) (e : MountEntry) (l : List (String × MountEntry))
    (k : String) : (putEntry mp e l).lookup k = if k = mp then some e else l.lookup k := by
  by_cases hk : k = mp
  · subst hk
    rw [if_pos rfl, lookup_putEntry_self]
  · rw [if_neg hk, lookup_putEntry_of_ne hk]

theorem lookup_eq_none_of_lt {k : String} {l : List (String × MountEntry)}
    (h : ∀ p ∈ l, k < p.1) : l.lookup k = none := by
  rw [List.lookup_eq_none_iff]
  intro p hp
  simpa using ne_of_lt (h p hp)

/-- Two entry lists with ascending mountpoints that hold the same at every mountpoint are
equal. -/
theorem ext_lookup {l₁ l₂ : List (String × MountEntry)} (h₁ : l₁.Pairwise (fun a b => a.1 < b.1))
    (h₂ : l₂.Pairwise (fun a b => a.1 < b.1)) (h : ∀ k, l₁.lookup k = l₂.lookup k) : l₁ = l₂ := by
  induction l₁ generalizing l₂ with
  | nil =>
    cases l₂ with
    | nil => rfl
    | cons p l₂ => simpa using (h p.1).symm
  | cons p l₁ ih =>
    obtain ⟨k₁, e₁⟩ := p
    cases l₂ with
    | nil => simpa using h k₁
    | cons q l₂ =>
      obtain ⟨k₂, e₂⟩ := q
      rw [List.pairwise_cons] at h₁ h₂
      -- the smaller first mountpoint would be missing from the other list
      have hk : k₁ = k₂ := by
        rcases lt_trichotomy k₁ k₂ with hlt | heq | hgt
        · have hnone : ((k₂, e₂) :: l₂).lookup k₁ = none :=
            lookup_eq_none_of_lt fun q hq => by
              rcases List.mem_cons.1 hq with rfl | hq
              · exact hlt
              · exact lt_trans hlt (h₂.1 q hq)
          simp [← h k₁] at hnone
        · exact heq
        · have hnone : ((k₁, e₁) :: l₁).lookup k₂ = none :=
            lookup_eq_none_of_lt fun q hq => by
              rcases List.mem_cons.1 hq with rfl | hq
              · exact hgt
              · exact lt_trans hgt (h₁.1 q hq)
          simp [h k₂] at hnone
      subst hk
      have he : e₁ = e₂ := by simpa using h k₁
      subst he
      -- past the first mountpoint, the rests hold the same everywhere
      have hrest : ∀ k, l₁.lookup k = l₂.lookup k := by
        intro k
        by_cases hk : k = k₁
        · subst hk
          rw [lookup_eq_none_of_lt h₁.1, lookup_eq_none_of_lt h₂.1]
        · have hk' := h k
          rwa [lookup_cons_ite, lookup_cons_ite, if_neg hk, if_neg hk] at hk'
      rw [ih h₁.2 h₂.2 hrest]

/-- Entries put at different mountpoints of a table with ascending mountpoints commute. -/
theorem putEntry_comm {mp₁ mp₂ : String} (hne : mp₁ ≠ mp₂) (e₁ e₂ : MountEntry)
    {l : List (String × MountEntry)} (hl : l.Pairwise (fun a b => a.1 < b.1)) :
    putEntry mp₁ e₁ (putEntry mp₂ e₂ l) = putEntry mp₂ e₂ (putEntry mp₁ e₁ l) := by
  refine ext_lookup (sorted_putEntry (sorted_putEntry hl)) (sorted_putEntry (sorted_putEntry hl))
    fun k => ?_
  simp only [lookup_putEntry]
  by_cases h₁ : k = mp₁
  · rw [if_pos h₁, if_neg fun h₂ => hne (h₁.symm.trans h₂), if_pos h₁]
  · simp only [if_neg h₁]

/-! ## Adding a mount -/

/-- What `add` checks of a line: an absolute mountpoint, and no blank in the mountpoint, the
endpoint or any option. -/
def Writable (mp endpoint : String) (options : List String) : Prop :=
  mp.startsWith "/" = true ∧ Text.hasBlank mp = false ∧ Text.hasBlank endpoint = false ∧
    ∀ o ∈ options, Text.hasBlank o = false

theorem writable_iff_find? {mp endpoint : String} {options : List String} :
    Writable mp endpoint options ↔
      mp.startsWith "/" = true ∧ ([mp, endpoint] ++ options).find? Text.hasBlank = none := by
  simp [Writable, List.find?_eq_none]

theorem Writable.perm {mp endpoint : String} {options options' : List String}
    (h : options.Perm options') : Writable mp endpoint options ↔ Writable mp endpoint options' := by
  simp only [Writable, h.mem_iff]

/-- A writable line is put into the table, its options sorted. -/
theorem add_eq_ok {t : MountTable} {info : FsInfo} {mp : String} {opts : MountOptions}
    (h : Writable mp info.mountSource.1 (opts.toOptions ++ info.mountSource.2)) :
    t.add info mp opts = .ok ⟨putEntry mp
      ⟨info.mountSource.1, sortStrings (opts.toOptions ++ info.mountSource.2)⟩ t.entries⟩ := by
  rw [← Writable.perm (sortStrings_perm _), writable_iff_find?] at h
  obtain ⟨habs, hnone⟩ := h
  rcases hsrc : info.mountSource with ⟨endpoint, extra⟩
  rw [hsrc] at hnone
  simp only [add, habs, Bool.not_true, Bool.false_eq_true, if_false, hsrc, hnone]

/-- A line that is not writable is refused as an invalid record. -/
theorem add_eq_error {t : MountTable} {info : FsInfo} {mp : String} {opts : MountOptions}
    (h : ¬ Writable mp info.mountSource.1 (opts.toOptions ++ info.mountSource.2)) :
    ∃ msg, t.add info mp opts = .error (.invalidRecord msg) := by
  rw [← Writable.perm (sortStrings_perm _), writable_iff_find?] at h
  rcases hsrc : info.mountSource with ⟨endpoint, extra⟩
  rw [hsrc] at h
  by_cases habs : mp.startsWith "/" = true
  · -- some field of the line holds a blank
    cases hfind : ([mp, endpoint] ++ sortStrings (opts.toOptions ++ extra)).find? Text.hasBlank with
    | none => exact absurd ⟨habs, hfind⟩ h
    | some f =>
      simp only [add, habs, Bool.not_true, Bool.false_eq_true, if_false, hsrc, hfind]
      exact ⟨_, rfl⟩
  · have hnot : (!mp.startsWith "/") = true := by simpa using habs
    simp only [add, hnot, if_true]
    exact ⟨_, rfl⟩

/-- A successful `add` checked its line and put it into the table. -/
theorem eq_putEntry_of_add {t t' : MountTable} {info : FsInfo} {mp : String} {opts : MountOptions}
    (h : t.add info mp opts = .ok t') :
    Writable mp info.mountSource.1 (opts.toOptions ++ info.mountSource.2) ∧
      t' = ⟨putEntry mp ⟨info.mountSource.1, sortStrings (opts.toOptions ++ info.mountSource.2)⟩
        t.entries⟩ := by
  by_cases hw : Writable mp info.mountSource.1 (opts.toOptions ++ info.mountSource.2)
  · rw [add_eq_ok hw, Except.ok.injEq] at h
    exact ⟨hw, h.symm⟩
  · obtain ⟨msg, hmsg⟩ := @add_eq_error t info mp opts hw
    rw [hmsg] at h
    cases h

/-! ## The lines of a built table -/

/-- Every endpoint names something. -/
theorem mountSource_endpoint_ne (info : FsInfo) : info.mountSource.1 ≠ "" := by
  cases info <;> simp [FsInfo.mountSource]

/-- Every option names something. -/
theorem mountSource_option_ne (info : FsInfo) (opts : MountOptions) :
    ∀ o ∈ opts.toOptions ++ info.mountSource.2, o ≠ "" := by
  intro o ho
  rcases List.mem_append.1 ho with ho | ho
  · simp only [MountOptions.toOptions, List.mem_cons, List.not_mem_nil, or_false] at ho
    rcases ho with rfl | rfl | rfl | rfl <;> split <;> simp
  · cases info with
    | nfs host port path =>
      cases port <;> simp [FsInfo.mountSource] at ho <;> rcases ho with rfl | rfl | rfl | rfl <;>
        simp
    | cephfs fsid name path monitors user key =>
      simp [FsInfo.mountSource] at ho
      rcases ho with rfl | rfl | rfl <;> simp
    | lustre mgs fsName =>
      simp [FsInfo.mountSource] at ho
      subst ho
      simp

/-- A line the map can hold: an absolute mountpoint, an endpoint and at least one option, none
of them empty and none with a blank. -/
structure LineWritable (e : String × MountEntry) : Prop where
  absolute : e.1.startsWith "/" = true
  mountpoint_plain : Text.hasBlank e.1 = false
  endpoint_ne : e.2.endpoint ≠ ""
  endpoint_plain : Text.hasBlank e.2.endpoint = false
  options_ne : e.2.options ≠ []
  option_ne : ∀ o ∈ e.2.options, o ≠ ""
  options_plain : ∀ o ∈ e.2.options, Text.hasBlank o = false

/-- The line `add` puts into the table is one the map can hold. -/
theorem lineWritable_of_writable {info : FsInfo} {mp : String} {opts : MountOptions}
    (h : Writable mp info.mountSource.1 (opts.toOptions ++ info.mountSource.2)) :
    LineWritable (mp, ⟨info.mountSource.1, sortStrings (opts.toOptions ++ info.mountSource.2)⟩) := by
  obtain ⟨habs, hmp, hend, hopts⟩ := h
  have hperm := sortStrings_perm (opts.toOptions ++ info.mountSource.2)
  refine ⟨habs, hmp, mountSource_endpoint_ne info, hend, fun hnil => ?_,
    fun o ho => mountSource_option_ne info opts o (hperm.mem_iff.1 ho),
    fun o ho => hopts o (hperm.mem_iff.1 ho)⟩
  -- the options spell the four flags at least
  have hlen := hperm.length_eq
  rw [show sortStrings (opts.toOptions ++ info.mountSource.2) = [] from hnil] at hlen
  simp [MountOptions.toOptions] at hlen

/-- Every line of a table built by `add` is one the map can hold. -/
theorem Built.lines {t : MountTable} (ht : t.Built) : ∀ e ∈ t.entries, LineWritable e := by
  induction ht with
  | empty => simp [MountTable.empty]
  | add _ hadd ih =>
    obtain ⟨hw, rfl⟩ := eq_putEntry_of_add hadd
    intro e he
    rcases mem_putEntry he with rfl | he
    · exact lineWritable_of_writable hw
    · exact ih e he

/-! ## The rendered map -/

/-- One line of the map. -/
def line (e : String × MountEntry) : String :=
  e.1 ++ " -" ++ ",".intercalate e.2.options ++ " " ++ e.2.endpoint

theorem render_eq (t : MountTable) : t.render = "\n".intercalate (t.entries.map line) := rfl

theorem line_ne (e : String × MountEntry) : line e ≠ "" := by
  simp [line]

/-- The map is empty exactly when the table is. -/
theorem render_eq_empty_iff (t : MountTable) : t.render = "" ↔ t.entries = [] := by
  rw [render_eq]
  constructor
  · intro h
    cases hl : t.entries with
    | nil => rfl
    | cons e rest =>
      rw [hl] at h
      -- the first line is not empty
      cases rest with
      | nil => exact absurd h (line_ne e)
      | cons e' rest =>
        rw [List.map_cons, List.map_cons, String.intercalate_cons_cons] at h
        simp [line_ne e] at h
  · intro h
    rw [h]
    rfl

/-- A text without blanks has no line feed. -/
theorem newline_not_mem_of_hasBlank {s : String} (hs : Text.hasBlank s = false) :
    '\n' ∉ s.toList := fun hmem => by
  rw [Text.hasBlank_of_mem hmem (by decide)] at hs
  exact absurd hs (by decide)

/-- A line the map can hold has no line feed: its fields have no blank, and the spaces between
them are not line feeds. -/
theorem LineWritable.newline_not_mem {e : String × MountEntry} (h : LineWritable e) :
    '\n' ∉ (line e).toList := by
  have hjoined : Text.hasBlank (",".intercalate e.2.options) = false :=
    Text.hasBlank_intercalate (by decide) h.options_plain
  simp only [line, String.toList_append, List.mem_append, not_or]
  exact ⟨⟨⟨⟨newline_not_mem_of_hasBlank h.mountpoint_plain, by decide⟩,
    newline_not_mem_of_hasBlank hjoined⟩, by decide⟩, newline_not_mem_of_hasBlank h.endpoint_plain⟩

/-- Cutting the map at line feeds gives back the lines of the table, one per entry, when no
line holds a line feed. -/
theorem render_lines {t : MountTable} (hne : t.entries ≠ [])
    (h : ∀ e ∈ t.entries, '\n' ∉ (line e).toList) :
    (t.render.split '\n').toList.map (·.copy) = t.entries.map line := by
  have hsep : "\n" = String.singleton '\n' := by decide
  rw [render_eq, hsep, String.toList_split_intercalate]
  · simp [hne]
  · intro s hs
    obtain ⟨e, he, rfl⟩ := List.mem_map.1 hs
    exact h e he

/-- The fields of a line the map can hold are not empty and hold no blank. -/
theorem LineWritable.fields {e : String × MountEntry} (h : LineWritable e) :
    e.1 ≠ "" ∧ Text.hasBlank e.1 = false ∧
      ",".intercalate e.2.options ≠ "" ∧ Text.hasBlank (",".intercalate e.2.options) = false ∧
      e.2.endpoint ≠ "" ∧ Text.hasBlank e.2.endpoint = false := by
  refine ⟨fun hmp => ?_, h.mountpoint_plain, fun hjoin => ?_,
    Text.hasBlank_intercalate (by decide) h.options_plain, h.endpoint_ne, h.endpoint_plain⟩
  · have habs := h.absolute
    rw [hmp] at habs
    exact absurd habs (by decide)
  · -- the first option is not empty, so neither is the join
    obtain ⟨o, os, hos⟩ := List.exists_cons_of_ne_nil h.options_ne
    have ho := h.option_ne o (by simp [hos])
    rw [hos] at hjoin
    cases os with
    | nil => exact ho (by simpa using hjoin)
    | cons o' os =>
      rw [String.intercalate_cons_cons] at hjoin
      simp [ho] at hjoin

/-! ## The desired mounts -/

/-- The desired mount set is a last-write-wins map that always renders to a well-formed
direct map.

(a) `add` refuses a line as an invalid record exactly when the mountpoint is not absolute or the
mountpoint, the endpoint or an option holds a blank; a refused `add` gives no table, so the
caller's table is unchanged.
(b) Otherwise it sets the entry of the mountpoint to the endpoint and the options sorted, and
leaves every other mountpoint as it was; so, on a table built by `add`, adds at different
mountpoints commute.
(c) A table built by `add` renders to `""` exactly when it is empty, and otherwise to one line
per entry, `<mountpoint> -<options joined by ','> <endpoint>`, in strictly increasing
mountpoint order, each field non-empty and without blanks. -/
theorem desired_mounts_last_write_wins :
    (∀ (t : MountTable) (info : FsInfo) (mp : String) (opts : MountOptions),
      (∃ msg, t.add info mp opts = .error (.invalidRecord msg)) ↔
        ¬ Writable mp info.mountSource.1 (opts.toOptions ++ info.mountSource.2)) ∧
    (∀ (t : MountTable) (info : FsInfo) (mp : String) (opts : MountOptions),
      Writable mp info.mountSource.1 (opts.toOptions ++ info.mountSource.2) →
      ∃ t' os, t.add info mp opts = .ok t' ∧ os.Pairwise (· ≤ ·) ∧
        os.Perm (opts.toOptions ++ info.mountSource.2) ∧
        ∀ k, t'.entries.lookup k = if k = mp then some ⟨info.mountSource.1, os⟩
          else t.entries.lookup k) ∧
    (∀ t : MountTable, t.Built → ∀ (info₁ info₂ : FsInfo) (mp₁ mp₂ : String)
      (opts₁ opts₂ : MountOptions) (t₁ t₁₂ : MountTable), mp₁ ≠ mp₂ →
      t.add info₁ mp₁ opts₁ = .ok t₁ → t₁.add info₂ mp₂ opts₂ = .ok t₁₂ →
      ∃ t₂, t.add info₂ mp₂ opts₂ = .ok t₂ ∧ t₂.add info₁ mp₁ opts₁ = .ok t₁₂) ∧
    (∀ t : MountTable, t.Built →
      (t.render = "" ↔ t.entries = []) ∧
      (t.entries ≠ [] → (t.render.split '\n').toList.map (·.copy) =
        t.entries.map fun e => e.1 ++ " -" ++ ",".intercalate e.2.options ++ " " ++ e.2.endpoint) ∧
      t.mountpoints.Pairwise (· < ·) ∧
      ∀ e ∈ t.entries, e.1 ≠ "" ∧ Text.hasBlank e.1 = false ∧
        ",".intercalate e.2.options ≠ "" ∧ Text.hasBlank (",".intercalate e.2.options) = false ∧
        e.2.endpoint ≠ "" ∧ Text.hasBlank e.2.endpoint = false) := by
  refine ⟨fun t info mp opts => ⟨fun ⟨msg, hmsg⟩ hw => ?_, add_eq_error⟩,
    fun t info mp opts hw => ⟨_, _, add_eq_ok hw, sorted_sortStrings _, sortStrings_perm _,
      lookup_putEntry _ _ _⟩, ?_, fun t ht => ⟨render_eq_empty_iff t, fun hne =>
        render_lines hne fun e he => (ht.lines e he).newline_not_mem, ht.sorted.mountpoints,
        fun e he => (ht.lines e he).fields⟩⟩
  · rw [add_eq_ok hw] at hmsg
    cases hmsg
  · -- both adds are writable whatever the table, and their entries commute
    intro t ht info₁ info₂ mp₁ mp₂ opts₁ opts₂ t₁ t₁₂ hne h₁ h₁₂
    obtain ⟨hw₁, rfl⟩ := eq_putEntry_of_add h₁
    obtain ⟨hw₂, rfl⟩ := eq_putEntry_of_add h₁₂
    refine ⟨_, add_eq_ok hw₂, ?_⟩
    rw [add_eq_ok hw₁, putEntry_comm hne _ _ ht.sorted]

/-- A Lustre mount at `/data` and an NFS mount at `/home` are both writable, and added in either
order they give one table. -/
theorem desired_mounts_lustre_and_nfs :
    ∃ t₁ t₂ t, MountTable.empty.add (.lustre ["mgs1"] "fs") "/data" {} = .ok t₁ ∧
      t₁.add (.nfs "10.0.0.1" none "/export") "/home" {} = .ok t ∧
      MountTable.empty.add (.nfs "10.0.0.1" none "/export") "/home" {} = .ok t₂ ∧
      t₂.add (.lustre ["mgs1"] "fs") "/data" {} = .ok t ∧ t.mountpoints.Pairwise (· < ·) := by
  obtain ⟨-, hadd, hcomm, hmap⟩ := desired_mounts_last_write_wins
  obtain ⟨t₁, -, h₁, -⟩ := hadd MountTable.empty (.lustre ["mgs1"] "fs") "/data" {}
    (by unfold Writable; decide +kernel)
  obtain ⟨t, -, h, -⟩ := hadd t₁ (.nfs "10.0.0.1" none "/export") "/home" {}
    (by unfold Writable; decide +kernel)
  obtain ⟨t₂, h₂, h₂₁⟩ := hcomm MountTable.empty .empty _ _ "/data" "/home" {} {} t₁ t
    (by decide) h₁ h
  exact ⟨t₁, t₂, t, h₁, h, h₂, h₂₁, (hmap t (.add (.add .empty h₁) h)).2.2.1⟩

end MountTable

end ShareBroker
