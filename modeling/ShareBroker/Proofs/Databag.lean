import Mathlib.Data.String.Basic
import Mathlib.Data.List.Sort
import ShareBroker.Transaction

/-!
# Databags as finite maps

A `Databag` is a list of pairs whose keys ascend strictly, an order its structure carries
(`Databag.sorted`) and each operation proves where it builds a databag. This file describes
each operation through `get?`, the lookup of one key:

* `find?_key_eq_some_iff`: in a list of pairs with distinct keys, the pair found for a key is
  the one listed with it, whatever the order;
* `lookupIn`: the lookup in a bare list of pairs, for the lists a databag is built from;
* `Databag.ext_get?`: two databags with the same lookups are equal, so a statement about every
  key pins a databag down;
* `Databag.NoEmpty`: no value is empty, as after any `merge`, since writing an empty value
  deletes its key;
* `get?_merge_of_none`, `get?_merge_of_some`: a merge, read key by key.
-/

namespace ShareBroker

/-! ## Lists of pairs with distinct keys -/

section Keyed

variable {κ ν : Type} [DecidableEq κ]

/-- With distinct keys, the pair found for a key is the one pair with that key. -/
theorem find?_key_eq_some_iff {l : List (κ × ν)} (hl : (l.map (·.1)).Nodup) {k : κ}
    {kv : κ × ν} : l.find? (·.1 == k) = some kv ↔ kv ∈ l ∧ kv.1 = k := by
  induction l with
  | nil => simp
  | cons kv' rest ih =>
    obtain ⟨hnot, hrest⟩ := List.nodup_cons.1 hl
    by_cases hk : kv'.1 = k
    · -- the head is found, and no later pair has its key
      have hno : ∀ x ∈ rest, x.1 ≠ k := fun x hx hx' =>
        hnot (List.mem_map.2 ⟨x, hx, hx'.trans hk.symm⟩)
      rw [List.find?_cons_of_pos (by simpa using hk), Option.some.injEq, List.mem_cons]
      constructor
      · rintro rfl; exact ⟨.inl rfl, hk⟩
      · rintro ⟨rfl | hx, hkv⟩
        · rfl
        · exact absurd hkv (hno kv hx)
    · rw [List.find?_cons_of_neg (by simpa using hk), ih hrest, List.mem_cons]
      constructor
      · rintro ⟨hx, rfl⟩; exact ⟨.inr hx, rfl⟩
      · rintro ⟨rfl | hx, rfl⟩
        · exact absurd rfl hk
        · exact ⟨hx, rfl⟩

/-- Pairs with distinct keys find the same pair for a key in any order. -/
theorem find?_key_perm {l l' : List (κ × ν)} (hp : l.Perm l') (hl : (l.map (·.1)).Nodup)
    (k : κ) : l.find? (·.1 == k) = l'.find? (·.1 == k) := by
  have hl' : (l'.map (·.1)).Nodup := (hp.map _).nodup_iff.1 hl
  refine Option.ext fun kv => ?_
  rw [find?_key_eq_some_iff hl, find?_key_eq_some_iff hl', hp.mem_iff]

end Keyed

namespace Databag

/-- No value is empty: writing an empty value deletes its key instead. -/
def NoEmpty (d : Databag) : Prop := ∀ kv ∈ d.entries, kv.2 ≠ ""

/-! ## Lookup in a list of pairs -/

/-- The value of the first pair with key `k`, as `get?` finds it in a databag's pairs. -/
def lookupIn (l : List (String × String)) (k : String) : Option String :=
  (l.find? (fun kv => kv.1 == k)).map (·.2)

theorem get?_eq_lookupIn (d : Databag) (k : String) : d.get? k = lookupIn d.entries k := rfl

@[simp] theorem lookupIn_nil (k : String) : lookupIn [] k = none := rfl

theorem lookupIn_cons (k k' v : String) (l : List (String × String)) :
    lookupIn ((k', v) :: l) k = if k' = k then some v else lookupIn l k := by
  by_cases h : k' = k <;> simp [lookupIn, h]

/-- A key below every key of a list is not found in it. -/
theorem lookupIn_eq_none_of_lt {k : String} {l : List (String × String)}
    (h : ∀ kv ∈ l, k < kv.1) : lookupIn l k = none := by
  induction l with
  | nil => rfl
  | cons kv l ih =>
    obtain ⟨k', v⟩ := kv
    have hne : k' ≠ k := fun e => lt_irrefl k (e ▸ h (k', v) List.mem_cons_self)
    rw [lookupIn_cons, if_neg hne]
    exact ih fun kv hkv => h kv (List.mem_cons_of_mem _ hkv)

/-- In a list whose keys ascend strictly, a key is found with the value it is listed with. -/
theorem lookupIn_eq_some_iff_mem {l : List (String × String)}
    (hl : l.Pairwise (fun a b => a.1 < b.1)) {k v : String} :
    lookupIn l k = some v ↔ (k, v) ∈ l := by
  -- ascending keys are distinct, so the pair found is the one listed with `k`
  have hnd : (l.map (·.1)).Nodup := (List.pairwise_map.2 hl).imp ne_of_lt
  rw [lookupIn, Option.map_eq_some_iff]
  constructor
  · rintro ⟨kv, hkv, rfl⟩
    obtain ⟨hmem, rfl⟩ := (find?_key_eq_some_iff hnd).1 hkv
    exact hmem
  · intro hmem
    exact ⟨(k, v), (find?_key_eq_some_iff hnd).2 ⟨hmem, rfl⟩, rfl⟩

theorem lookupIn_append (l₁ l₂ : List (String × String)) (k : String) :
    lookupIn (l₁ ++ l₂) k = (lookupIn l₁ k).or (lookupIn l₂ k) := by
  induction l₁ with
  | nil => simp
  | cons kv l₁ ih =>
    obtain ⟨k', v⟩ := kv
    rw [List.cons_append, lookupIn_cons, lookupIn_cons, ih]
    split <;> simp

/-- The pairs `k ↦ f k` for the keys of `l`, read key by key. -/
theorem lookupIn_map_pair (l : List String) (f : String → String) (k : String) :
    lookupIn (l.map fun k => (k, f k)) k = if k ∈ l then some (f k) else none := by
  induction l with
  | nil => simp
  | cons k' l ih =>
    rw [List.map_cons, lookupIn_cons, ih]
    by_cases hk : k' = k
    · subst hk; simp
    · have hk' : k ≠ k' := fun e => hk e.symm
      simp [hk, hk']

theorem lookupIn_insertEntry_self (k v : String) (l : List (String × String)) :
    lookupIn (insertEntry k v l) k = some v := by
  induction l with
  | nil => simp [insertEntry, lookupIn_cons]
  | cons kv l ih =>
    obtain ⟨k', v'⟩ := kv
    simp only [insertEntry]
    split_ifs with hlt heq
    · simp [lookupIn_cons]
    · simp [lookupIn_cons]
    · rw [lookupIn_cons, if_neg (Ne.symm heq), ih]

theorem lookupIn_insertEntry_of_ne {k k' : String} (v : String) (l : List (String × String))
    (h : k ≠ k') : lookupIn (insertEntry k v l) k' = lookupIn l k' := by
  induction l with
  | nil => simp [insertEntry, lookupIn_cons, h]
  | cons kv l ih =>
    obtain ⟨k'', v''⟩ := kv
    simp only [insertEntry]
    split_ifs with hlt heq
    · rw [lookupIn_cons, if_neg h]
    · subst heq
      rw [lookupIn_cons, lookupIn_cons, if_neg h, if_neg h]
    · rw [lookupIn_cons, lookupIn_cons, ih]

/-! ## Lookup in a databag -/

@[simp] theorem get?_empty (k : String) : Databag.empty.get? k = none := rfl

theorem get?_eq_none_iff (d : Databag) (k : String) :
    d.get? k = none ↔ ∀ kv ∈ d.entries, kv.1 ≠ k := by
  simp [get?]

theorem get?_eq_some_iff_mem (d : Databag) {k v : String} :
    d.get? k = some v ↔ (k, v) ∈ d.entries :=
  lookupIn_eq_some_iff_mem d.sorted

theorem mem_keys_iff (d : Databag) (k : String) : k ∈ d.keys ↔ (d.get? k).isSome := by
  rw [get?_eq_lookupIn, keys]
  induction d.entries with
  | nil => simp
  | cons kv l ih =>
    obtain ⟨k', v⟩ := kv
    rw [List.map_cons, List.mem_cons, ih, lookupIn_cons]
    by_cases hk : k' = k
    · subst hk; simp
    · have hk' : k ≠ k' := fun e => hk e.symm
      simp [hk, hk']

theorem contains_eq (d : Databag) (k : String) : d.contains k = (d.get? k).isSome := rfl

theorem keys_sorted (d : Databag) : d.keys.Pairwise (· < ·) :=
  List.pairwise_map.2 d.sorted

/-- Databags with the same pairs are equal: the order proof is all the rest. -/
theorem ext_entries {d₁ d₂ : Databag} (h : d₁.entries = d₂.entries) : d₁ = d₂ := by
  obtain ⟨l₁, _⟩ := d₁
  obtain ⟨l₂, _⟩ := d₂
  subst h
  rfl

/-- Databags that agree on every key are equal: both hold their pairs in key order. -/
theorem ext_get? {d₁ d₂ : Databag} (h : ∀ k, d₁.get? k = d₂.get? k) : d₁ = d₂ := by
  refine ext_entries ?_
  have : Std.Irrefl (fun a b : String × String => a.1 < b.1) := ⟨fun a => lt_irrefl a.1⟩
  refine List.Pairwise.eq_of_mem_iff d₁.sorted d₂.sorted fun kv => ?_
  rw [← get?_eq_some_iff_mem, ← get?_eq_some_iff_mem, h]

/-! ## Each operation, key by key -/

@[simp] theorem get?_insert (d : Databag) (k v k' : String) :
    (d.insert k v).get? k' = if k = k' then some v else d.get? k' := by
  split
  · subst_vars
    exact lookupIn_insertEntry_self _ v d.entries
  · exact lookupIn_insertEntry_of_ne v d.entries ‹_›

@[simp] theorem get?_filterKeys (d : Databag) (p : String → Bool) (k : String) :
    (d.filterKeys p).get? k = if p k then d.get? k else none := by
  simp only [get?_eq_lookupIn, filterKeys]
  induction d.entries with
  | nil => simp
  | cons kv l ih =>
    obtain ⟨k', v⟩ := kv
    rw [List.filter_cons]
    by_cases hp : p k' <;> by_cases hk : k' = k
    · subst hk; simp [hp, lookupIn_cons]
    · simp [hp, lookupIn_cons, hk, ih]
    · subst hk; simp [hp, ih]
    · simp [hp, lookupIn_cons, hk, ih]

@[simp] theorem get?_erase (d : Databag) (k k' : String) :
    (d.erase k).get? k' = if k = k' then none else d.get? k' := by
  have h := get?_filterKeys d (· != k) k'
  simp only [filterKeys] at h
  simp only [erase, h, bne_iff_ne, ne_eq]
  by_cases hk : k = k' <;> simp [hk, eq_comm]

theorem get?_write (d : Databag) (k v k' : String) :
    (d.write k v).get? k' = if k = k' then (if v = "" then none else some v) else d.get? k' := by
  by_cases hv : v = ""
  · subst hv
    simp [Databag.write]
  · have hne : v.isEmpty = false := by simpa [String.isEmpty_iff] using hv
    simp [Databag.write, hne, hv]

/-- Writing the pairs of a list one after another, as a merge does with its update's pairs. -/
theorem merge_eq_foldl (d u : Databag) :
    d.merge u = u.entries.foldl (fun acc kv => acc.write kv.1 kv.2) d := rfl

/-- A key that the written pairs leave out keeps its value. -/
theorem get?_foldl_write_of_none {l : List (String × String)} {k : String}
    (hl : lookupIn l k = none) (d : Databag) :
    (l.foldl (fun acc kv => acc.write kv.1 kv.2) d).get? k = d.get? k := by
  induction l generalizing d with
  | nil => rfl
  | cons kv l ih =>
    obtain ⟨k', v⟩ := kv
    rw [lookupIn_cons] at hl
    split_ifs at hl with hk
    rw [List.foldl_cons, ih hl, get?_write, if_neg hk]

/-- A key that ascending written pairs set takes the new value, or goes when it is empty. -/
theorem get?_foldl_write_of_some {l : List (String × String)}
    (hl : l.Pairwise (fun a b => a.1 < b.1)) {k v : String} (h : lookupIn l k = some v)
    (d : Databag) :
    (l.foldl (fun acc kv => acc.write kv.1 kv.2) d).get? k = if v = "" then none else some v := by
  induction l generalizing d with
  | nil => simp at h
  | cons kv l ih =>
    obtain ⟨k', v'⟩ := kv
    rw [List.pairwise_cons] at hl
    rw [lookupIn_cons] at h
    rw [List.foldl_cons]
    split_ifs at h with hk
    · -- the first pair sets `k`, and the ascending rest leaves `k` out
      subst hk
      cases h
      rw [get?_foldl_write_of_none (lookupIn_eq_none_of_lt hl.1), get?_write, if_pos rfl]
    · exact ih hl.2 h _

/-- A key that an update leaves out keeps its value. -/
theorem get?_merge_of_none {u : Databag} {k : String} (hu : u.get? k = none) (d : Databag) :
    (d.merge u).get? k = d.get? k :=
  get?_foldl_write_of_none hu d

/-- A key that an update sets takes the new value, or goes when the value is empty. -/
theorem get?_merge_of_some {u : Databag} {k v : String} (h : u.get? k = some v)
    (d : Databag) : (d.merge u).get? k = if v = "" then none else some v :=
  get?_foldl_write_of_some u.sorted h d

/-- Merging a databag with no empty value into the empty one gives it back. -/
theorem empty_merge {d : Databag} (hne : ∀ k v, d.get? k = some v → v ≠ "") :
    empty.merge d = d :=
  ext_get? fun k => by
    cases h : d.get? k with
    | none => rw [get?_merge_of_none h, get?_empty]
    | some v => rw [get?_merge_of_some h, if_neg (hne k v h)]

/-! ## Values that are never empty -/

theorem noEmpty_empty : Databag.empty.NoEmpty := fun _ h => absurd h List.not_mem_nil

theorem NoEmpty.insert {d : Databag} (hd : d.NoEmpty) (k : String) {v : String} (hv : v ≠ "") :
    (d.insert k v).NoEmpty := by
  intro kv hkv
  rcases mem_insertEntry hkv with rfl | hkv
  · exact hv
  · exact hd kv hkv

theorem NoEmpty.filterKeys {d : Databag} (hd : d.NoEmpty) (p : String → Bool) :
    (d.filterKeys p).NoEmpty :=
  fun kv hkv => hd kv (List.mem_filter.1 hkv).1

theorem NoEmpty.write {d : Databag} (hd : d.NoEmpty) (k v : String) : (d.write k v).NoEmpty := by
  unfold Databag.write
  split
  · exact fun kv hkv => hd kv (List.mem_filter.1 hkv).1
  · rename_i hv
    exact hd.insert k (by simpa [String.isEmpty_iff] using hv)

theorem NoEmpty.merge {d : Databag} (hd : d.NoEmpty) (u : Databag) : (d.merge u).NoEmpty := by
  rw [merge_eq_foldl]
  -- every write of the update keeps the values non-empty
  induction u.entries generalizing d with
  | nil => exact hd
  | cons kv l ih => exact ih (hd.write kv.1 kv.2)

theorem NoEmpty.ne_of_get? {d : Databag} (hd : d.NoEmpty) {k v : String}
    (h : d.get? k = some v) : v ≠ "" := by
  obtain ⟨kv, hfind, rfl⟩ := Option.map_eq_some_iff.1 h
  exact hd kv (List.mem_of_find?_eq_some hfind)

/-! ## Data keys -/

theorem dataOnly_eq (d : Databag) : dataOnly d = d.filterKeys (fun k => !isReserved k) := rfl

@[simp] theorem get?_dataOnly (d : Databag) (k : String) :
    (dataOnly d).get? k = if isReserved k then none else d.get? k := by
  rw [dataOnly_eq, get?_filterKeys]
  by_cases hk : isReserved k <;> simp [hk]

theorem NoEmpty.dataOnly {d : Databag} (hd : d.NoEmpty) : (ShareBroker.dataOnly d).NoEmpty :=
  hd.filterKeys _

/-! ## Building a databag from pairs -/

/-- Inserting a key above every key of a list appends it. -/
theorem insertEntry_of_lt {k v : String} {l : List (String × String)}
    (h : ∀ kv ∈ l, kv.1 < k) : insertEntry k v l = l ++ [(k, v)] := by
  induction l with
  | nil => rfl
  | cons kv l ih =>
    obtain ⟨k', v'⟩ := kv
    have hlt : k' < k := h _ List.mem_cons_self
    simp only [insertEntry, List.cons_append]
    rw [if_neg (not_lt.2 hlt.le), if_neg (ne_of_gt hlt),
      ih fun kv hkv => h kv (List.mem_cons_of_mem _ hkv)]

/-- Reading back the pairs of a databag gives that databag. -/
theorem ofList_entries (d : Databag) : ofList d.entries = d := by
  -- the fold appends each pair in turn, since each key is above those before it
  have happend : ∀ (l : List (String × String)) (acc : Databag),
      (acc.entries ++ l).Pairwise (fun a b => a.1 < b.1) →
      (l.foldl (fun (d : Databag) kv => d.insert kv.1 kv.2) acc).entries = acc.entries ++ l := by
    intro l
    induction l with
    | nil => simp
    | cons kv l ih =>
      intro acc hsort
      have hlt : ∀ a ∈ acc.entries, a.1 < kv.1 :=
        fun a ha => (List.pairwise_append.1 hsort).2.2 a ha kv List.mem_cons_self
      have hstep : (acc.insert kv.1 kv.2).entries = acc.entries ++ [kv] := by
        simp [Databag.insert, insertEntry_of_lt hlt]
      rw [List.foldl_cons,
        ih _ (by rw [hstep, List.append_assoc, List.singleton_append]; exact hsort), hstep]
      simp
  exact ext_entries (happend d.entries empty d.sorted)

/-- Inserting pairs with distinct keys into `d`: each key of the pairs takes its value there,
the other keys keep theirs. -/
theorem get?_foldl_insert {l : List (String × String)} (hl : (l.map (·.1)).Nodup)
    (d : Databag) (k : String) :
    (l.foldl (fun (d : Databag) kv => d.insert kv.1 kv.2) d).get? k =
      if k ∈ l.map (·.1) then lookupIn l k else d.get? k := by
  induction l generalizing d with
  | nil => simp
  | cons kv l ih =>
    obtain ⟨k', v⟩ := kv
    simp only [List.map_cons, List.nodup_cons] at hl
    rw [List.foldl_cons, ih hl.2, lookupIn_cons]
    by_cases hk : k' = k
    · -- `k` is the first key, and the rest does not hold it again
      subst hk
      simp [hl.1]
    · have hk' : k ≠ k' := fun e => hk e.symm
      rw [if_neg hk]
      simp only [List.map_cons, List.mem_cons, hk', false_or, get?_insert, if_neg hk]

theorem get?_ofList_of_nodup {l : List (String × String)} (hl : (l.map (·.1)).Nodup)
    (k : String) : (ofList l).get? k = lookupIn l k := by
  rw [ofList, get?_foldl_insert hl]
  split
  · rfl
  · rename_i hk
    rw [get?_empty, eq_comm]
    cases h : lookupIn l k with
    | none => rfl
    | some v =>
      obtain ⟨kv, hfind, rfl⟩ := Option.map_eq_some_iff.1 h
      have hkey : kv.1 = k := by simpa using List.find?_some hfind
      exact absurd (List.mem_map.2 ⟨kv, List.mem_of_find?_eq_some hfind, hkey⟩) hk

@[simp] theorem entries_ofList_singleton (k v : String) : (ofList [(k, v)]).entries = [(k, v)] :=
  rfl

@[simp] theorem get?_ofList_singleton (k v k' : String) :
    (ofList [(k, v)]).get? k' = if k = k' then some v else none := by
  simp [get?_eq_lookupIn, lookupIn_cons]

end Databag

end ShareBroker
