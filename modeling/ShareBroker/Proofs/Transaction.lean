import ShareBroker.Proofs.Databag

/-!
# What a transaction says about two snapshots

`Transaction.between old new` compares two snapshots of a scope. This file states what it
finds without reference to how it looks: `Transaction.Exact t old new` says that `t.added`
lists exactly the keys of `new` that `old` lacks, `t.deleted` the keys of `old` that `new`
lacks, and `t.changed` the keys of both whose values differ, each list in strictly increasing
order.

* `between_exact`: comparing two snapshots gives the exact transaction;
* `Exact.disjoint`: the three lists share no key;
* `Exact.eq_empty_iff`: the transaction is empty exactly when the snapshots are equal;
* `Exact.merge_patch`: merging, the way a scope is written, the new value of every added or
  changed key and an empty value for every deleted key into `old` gives `new`.
-/

namespace ShareBroker

/-- `l` lists, in strictly increasing order, exactly the keys that satisfy `p`. -/
def Enumerates (l : List String) (p : String → Prop) : Prop :=
  l.Pairwise (· < ·) ∧ ∀ k, k ∈ l ↔ p k

theorem Enumerates.eq_nil {l : List String} {p : String → Prop} (h : Enumerates l p)
    (hp : ∀ k, ¬ p k) : l = [] :=
  List.eq_nil_iff_forall_not_mem.2 fun k hk => hp k ((h.2 k).1 hk)

namespace Transaction

/-- The transaction with nothing in it. -/
def empty : Transaction := ⟨[], [], []⟩

/-- `t` records exactly how `new` differs from `old`. -/
structure Exact (t : Transaction) (old new : Databag) : Prop where
  added : Enumerates t.added fun k => (new.get? k).isSome ∧ old.get? k = none
  changed : Enumerates t.changed fun k => ∃ o v, old.get? k = some o ∧ new.get? k = some v ∧ o ≠ v
  deleted : Enumerates t.deleted fun k => (old.get? k).isSome ∧ new.get? k = none

theorem isEmpty_iff (t : Transaction) : t.isEmpty = true ↔ t = empty := by
  obtain ⟨a, c, d⟩ := t
  simp [isEmpty, empty]

/-! ## Comparing two snapshots -/

theorem mem_added_between (old new : Databag) (k : String) :
    k ∈ (between old new).added ↔ (new.get? k).isSome ∧ old.get? k = none := by
  simp [between, Databag.mem_keys_iff, Databag.contains_eq]

theorem mem_deleted_between (old new : Databag) (k : String) :
    k ∈ (between old new).deleted ↔ (old.get? k).isSome ∧ new.get? k = none := by
  simp [between, Databag.mem_keys_iff, Databag.contains_eq]

theorem mem_changed_between (old new : Databag) (k : String) :
    k ∈ (between old new).changed ↔
      ∃ o v, old.get? k = some o ∧ new.get? k = some v ∧ o ≠ v := by
  simp only [between, List.mem_map, List.mem_filter]
  constructor
  · rintro ⟨⟨k', v⟩, ⟨hmem, hdiff⟩, rfl⟩
    rw [← Databag.get?_eq_some_iff_mem] at hmem
    cases ho : old.get? k' with
    | none => simp [ho] at hdiff
    | some o => exact ⟨o, v, rfl, hmem, by simpa [ho] using hdiff⟩
  · rintro ⟨o, v, ho, hv, hne⟩
    exact ⟨(k, v), ⟨(Databag.get?_eq_some_iff_mem new).1 hv, by simp [ho, hne]⟩, rfl⟩

theorem added_contains_iff (old new : Databag) (k : String) :
    (between old new).added.contains k = true ↔ (new.get? k).isSome ∧ old.get? k = none :=
  List.contains_iff_mem.trans (mem_added_between old new k)

theorem changed_contains_iff (old new : Databag) (k : String) :
    (between old new).changed.contains k = true ↔
      ∃ o v, old.get? k = some o ∧ new.get? k = some v ∧ o ≠ v :=
  List.contains_iff_mem.trans (mem_changed_between old new k)

/-- Comparing two snapshots gives the exact transaction. -/
theorem between_exact (old new : Databag) : (between old new).Exact old new where
  added := ⟨List.Pairwise.filter _ new.keys_sorted, mem_added_between old new⟩
  changed := ⟨List.pairwise_map.2 (List.Pairwise.filter _ new.sorted), mem_changed_between old new⟩
  deleted := ⟨List.Pairwise.filter _ old.keys_sorted, mem_deleted_between old new⟩

/-! ## Consequences of exactness -/

section Exact

variable {t : Transaction} {old new : Databag}

/-- No key is at once added, changed or deleted. -/
theorem Exact.disjoint (h : t.Exact old new) :
    t.added.Disjoint t.changed ∧ t.added.Disjoint t.deleted ∧ t.changed.Disjoint t.deleted := by
  refine ⟨fun k ha hc => ?_, fun k ha hd => ?_, fun k hc hd => ?_⟩
  · obtain ⟨-, hold⟩ := (h.added.2 k).1 ha
    obtain ⟨o, v, ho, -, -⟩ := (h.changed.2 k).1 hc
    simp [hold] at ho
  · obtain ⟨-, hold⟩ := (h.added.2 k).1 ha
    obtain ⟨hsome, -⟩ := (h.deleted.2 k).1 hd
    simp [hold] at hsome
  · obtain ⟨o, v, -, hv, -⟩ := (h.changed.2 k).1 hc
    obtain ⟨-, hnew⟩ := (h.deleted.2 k).1 hd
    simp [hnew] at hv

/-- A key in none of the three lists has the same value in both snapshots. -/
theorem Exact.get?_eq (h : t.Exact old new) {k : String} (ha : k ∉ t.added)
    (hc : k ∉ t.changed) (hd : k ∉ t.deleted) : old.get? k = new.get? k := by
  rw [h.added.2] at ha
  rw [h.changed.2] at hc
  rw [h.deleted.2] at hd
  cases ho : old.get? k with
  | none => cases hv : new.get? k <;> simp_all
  | some o =>
    cases hv : new.get? k with
    | none => simp_all
    | some v =>
      by_cases hne : o = v
      · rw [hne]
      · exact absurd ⟨o, v, ho, hv, hne⟩ hc

/-- The transaction is empty exactly when the two snapshots are equal. -/
theorem Exact.eq_empty_iff (h : t.Exact old new) :
    t = empty ↔ old = new := by
  constructor
  · rintro rfl
    exact Databag.ext_get? fun k => h.get?_eq (by simp [empty]) (by simp [empty])
      (by simp [empty])
  · rintro rfl
    obtain ⟨a, c, d⟩ := t
    simp only [empty, Transaction.mk.injEq]
    refine ⟨h.added.eq_nil ?_, h.changed.eq_nil ?_, h.deleted.eq_nil ?_⟩
    · rintro k ⟨hs, hn⟩; simp [hn] at hs
    · rintro k ⟨o, v, ho, hv, hne⟩; simp_all
    · rintro k ⟨hs, hn⟩; simp [hn] at hs

/-- Two snapshots compare as empty exactly when they are equal. -/
theorem isEmpty_between_iff (old new : Databag) :
    (between old new).isEmpty = true ↔ old = new :=
  (isEmpty_iff _).trans (between_exact old new).eq_empty_iff

/-- The update that turns `old` into `new` when merged into it: the new value of every added or
changed key, and an empty value, which deletes, for every deleted key. -/
def patch (t : Transaction) (new : Databag) : Databag :=
  Databag.ofList ((t.added ++ t.changed).map (fun k => (k, (new.get? k).getD "")) ++
    t.deleted.map (fun k => (k, "")))

theorem Exact.keys_nodup (h : t.Exact old new) : (t.added ++ t.changed ++ t.deleted).Nodup := by
  have nodup : ∀ {l : List String} {p : String → Prop}, Enumerates l p → l.Nodup :=
    fun hl => hl.1.imp ne_of_lt
  obtain ⟨hac, had, hcd⟩ := h.disjoint
  refine List.nodup_append.2 ⟨List.nodup_append.2 ⟨nodup h.added, nodup h.changed, ?_⟩,
    nodup h.deleted, ?_⟩
  · exact fun a ha b hb hab => hac ha (hab ▸ hb)
  · intro a ha b hb hab
    rcases List.mem_append.1 ha with ha | ha
    · exact had ha (hab ▸ hb)
    · exact hcd ha (hab ▸ hb)

theorem Exact.get?_patch (h : t.Exact old new) (k : String) :
    (t.patch new).get? k =
      if k ∈ t.added ∨ k ∈ t.changed then some ((new.get? k).getD "")
      else if k ∈ t.deleted then some "" else none := by
  have hkeys : (((t.added ++ t.changed).map (fun k => (k, (new.get? k).getD "")) ++
      t.deleted.map (fun k => (k, ""))).map (·.1)).Nodup := by
    have hmap : (((t.added ++ t.changed).map (fun k => (k, (new.get? k).getD "")) ++
        t.deleted.map (fun k => (k, ""))).map (·.1)) = t.added ++ t.changed ++ t.deleted := by
      simp [List.map_map, Function.comp_def]
    exact hmap ▸ h.keys_nodup
  rw [patch, Databag.get?_ofList_of_nodup hkeys, Databag.lookupIn_append,
    Databag.lookupIn_map_pair (t.added ++ t.changed) (fun k => (new.get? k).getD ""),
    Databag.lookupIn_map_pair t.deleted (fun _ => "")]
  by_cases hac : k ∈ t.added ∨ k ∈ t.changed <;> simp [hac]

/-- Merging the patch into `old` gives `new`, when `new`, as a scope does, holds no empty
value. -/
theorem Exact.merge_patch (h : t.Exact old new) (hne : new.NoEmpty) :
    old.merge (t.patch new) = new := by
  refine Databag.ext_get? fun k => ?_
  by_cases hac : k ∈ t.added ∨ k ∈ t.changed
  · -- the new value is written, and it is not empty
    obtain ⟨v, hv⟩ : ∃ v, new.get? k = some v := by
      rcases hac with ha | hc
      · exact Option.isSome_iff_exists.1 ((h.added.2 k).1 ha).1
      · obtain ⟨o, v, -, hv, -⟩ := (h.changed.2 k).1 hc
        exact ⟨v, hv⟩
    have hp : (t.patch new).get? k = some v := by simp [h.get?_patch, hac, hv]
    rw [Databag.get?_merge_of_some hp, if_neg (hne.ne_of_get? hv), hv]
  · by_cases hd : k ∈ t.deleted
    · -- an empty value is written, which deletes the key
      have hp : (t.patch new).get? k = some "" := by simp [h.get?_patch, hac, hd]
      rw [Databag.get?_merge_of_some hp, if_pos rfl, ((h.deleted.2 k).1 hd).2]
    · -- the key is left alone, and both snapshots agree on it
      have hp : (t.patch new).get? k = none := by simp [h.get?_patch, hac, hd]
      rw [Databag.get?_merge_of_none hp]
      exact h.get?_eq (fun ha => hac (.inl ha)) (fun hc => hac (.inr hc)) hd

end Exact

end Transaction

end ShareBroker
