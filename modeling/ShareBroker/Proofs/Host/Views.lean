import ShareBroker.Host.Change
import ShareBroker.Proofs.Json.StringMap

/-!
# The host model through its views

A `Host` keeps its relations, and each relation its scopes, in keyed lists. This file reads
them through two views, `Host.state?` (what the host holds about a relation) and `Host.bag`
(the contents of one scope), and gives each operation that writes them its equation through
the views (`bag_remoteUpdate`, `state?_modifyRelation`, `RelationState.bag_dropBag`, ...).

`Host.WellFormed` is the invariant every statement about scopes rests on: no scope of any
relation holds an empty value. Each write keeps it, given its operands do.
-/

namespace ShareBroker

/-! ## Keyed lists -/

/-- Puts `k ↦ v` into a list kept in the order `lt`, replacing an equal key: the shape of the
host's lists of relations and of scopes. -/
def assocPut {κ ν : Type} [DecidableEq κ] (lt : κ → κ → Bool) (k : κ) (v : ν) :
    List (κ × ν) → List (κ × ν)
  | [] => [(k, v)]
  | (k', v') :: rest =>
    if lt k k' then (k, v) :: (k', v') :: rest
    else if k = k' then (k, v) :: rest
    else (k', v') :: assocPut lt k v rest

/-- After putting `k ↦ v`, `k` is found with `v` and every other key as before, whatever the
order of the list. -/
theorem find?_assocPut {κ ν : Type} [DecidableEq κ] (lt : κ → κ → Bool) (k : κ) (v : ν)
    (l : List (κ × ν)) (k' : κ) :
    ((assocPut lt k v l).find? (·.1 == k')).map (·.2) =
      if k = k' then some v else (l.find? (·.1 == k')).map (·.2) := by
  induction l with
  | nil => by_cases h : k = k' <;> simp [assocPut, h]
  | cons kv l ih =>
    obtain ⟨k'', v''⟩ := kv
    by_cases hlt : lt k k'' = true
    · -- `k` goes in front of the list
      rw [assocPut, if_pos hlt]
      by_cases hkk : k = k'
      · subst hkk; simp
      · by_cases h : k'' = k'
        · subst h; simp [hkk]
        · simp [hkk, h]
    · by_cases heq : k = k''
      · -- `k` replaces the first pair
        subst heq
        rw [assocPut, if_neg hlt, if_pos rfl]
        by_cases hkk : k = k'
        · subst hkk; simp
        · simp [hkk]
      · -- `k` goes further down the list
        rw [assocPut, if_neg hlt, if_neg heq]
        by_cases h : k'' = k'
        · subst h; simp [heq]
        · simpa [h] using ih

/-- Putting `k ↦ v` adds that pair and keeps or drops the others. -/
theorem mem_assocPut {κ ν : Type} [DecidableEq κ] {lt : κ → κ → Bool} {k : κ} {v : ν}
    {l : List (κ × ν)} {p : κ × ν} (hp : p ∈ assocPut lt k v l) : p = (k, v) ∨ p ∈ l := by
  induction l with
  | nil => simpa [assocPut] using hp
  | cons q l ih =>
    obtain ⟨k', v'⟩ := q
    simp only [assocPut] at hp
    split_ifs at hp
    · exact List.mem_cons.1 hp
    · rcases List.mem_cons.1 hp with rfl | hp
      · exact .inl rfl
      · exact .inr (List.mem_cons_of_mem _ hp)
    · rcases List.mem_cons.1 hp with rfl | hp
      · exact .inr List.mem_cons_self
      · rcases ih hp with rfl | hp
        · exact .inl rfl
        · exact .inr (List.mem_cons_of_mem _ hp)

@[simp] theorem find?_key_cons_self {κ ν : Type} [DecidableEq κ] (k : κ) (v : ν)
    (l : List (κ × ν)) : ((k, v) :: l).find? (·.1 == k) = some (k, v) := by
  simp

theorem find?_key_cons_of_ne {κ ν : Type} [DecidableEq κ] {k k' : κ} (v : ν)
    (l : List (κ × ν)) (h : k ≠ k') : ((k, v) :: l).find? (·.1 == k') = l.find? (·.1 == k') := by
  simp [h]

/-- The value found under a key is listed with that key. -/
theorem mem_of_find?_key {κ ν : Type} [DecidableEq κ] {l : List (κ × ν)} {k : κ} {v : ν}
    (h : (l.find? (·.1 == k)).map (·.2) = some v) : (k, v) ∈ l := by
  obtain ⟨e, he, rfl⟩ := Option.map_eq_some_iff.1 h
  obtain rfl : e.1 = k := by simpa using List.find?_some he
  exact List.mem_of_find?_eq_some he

theorem putRelation_eq (r : Relation) (st : RelationState) (l : List (Relation × RelationState)) :
    putRelation r st l = assocPut Relation.lt r st l := by
  induction l with
  | nil => rfl
  | cons p l ih =>
    obtain ⟨r', st'⟩ := p
    simp only [putRelation, assocPut, ih]

theorem putBag_eq (s : Scope) (d : Databag) (l : List (Scope × Databag)) :
    RelationState.putBag s d l = assocPut Scope.lt s d l := by
  induction l with
  | nil => rfl
  | cons p l ih =>
    obtain ⟨s', d'⟩ := p
    simp only [RelationState.putBag, assocPut, ih]

/-! ## Scopes of one relation -/

namespace RelationState

theorem bag_putBag (st : RelationState) (s : Scope) (d : Databag) (s' : Scope) :
    ({ st with bags := putBag s d st.bags } : RelationState).bag s' =
      if s = s' then d else st.bag s' := by
  simp only [bag, putBag_eq, find?_assocPut]
  split <;> rfl

@[simp] theorem bag_merge (st : RelationState) (s : Scope) (u : Databag) (s' : Scope) :
    (st.merge s u).bag s' = if s = s' then (st.bag s).merge u else st.bag s' :=
  bag_putBag st s _ s'

@[simp] theorem bag_dropBag (st : RelationState) (s s' : Scope) :
    (st.dropBag s).bag s' = if s = s' then .empty else st.bag s' := by
  obtain ⟨a, u, bags, b⟩ := st
  simp only [dropBag, bag]
  induction bags with
  | nil => split <;> rfl
  | cons p bags ih =>
    obtain ⟨s'', d⟩ := p
    by_cases h₁ : s'' = s
    · -- the dropped scope's own pair goes
      subst h₁
      rw [List.filter_cons_of_neg (by simp), ih]
      by_cases h₂ : s'' = s'
      · simp [h₂]
      · rw [if_neg h₂, if_neg h₂, find?_key_cons_of_ne _ _ h₂]
    · rw [List.filter_cons_of_pos (by simpa using h₁)]
      by_cases h₂ : s'' = s'
      · subst h₂
        rw [if_neg (Ne.symm h₁), find?_key_cons_self, find?_key_cons_self]
      · rw [find?_key_cons_of_ne _ _ h₂, ih, find?_key_cons_of_ne _ _ h₂]

/-- No scope of the relation holds an empty value. -/
def WellFormed (st : RelationState) : Prop := ∀ s, (st.bag s).NoEmpty

theorem WellFormed.merge {st : RelationState} (hst : st.WellFormed) (s : Scope) (u : Databag) :
    (st.merge s u).WellFormed := by
  intro s'
  rw [bag_merge]
  split
  · exact (hst s).merge u
  · exact hst s'

theorem WellFormed.dropBag {st : RelationState} (hst : st.WellFormed) (s : Scope) :
    (st.dropBag s).WellFormed := by
  intro s'
  rw [bag_dropBag]
  split
  · exact Databag.noEmpty_empty
  · exact hst s'

/-- A relation whose stored scopes are all free of empty values is well formed: a scope never
written reads as empty. -/
theorem wellFormed_of_mem {st : RelationState}
    (hbags : ∀ sd ∈ st.bags, sd.2.NoEmpty) : st.WellFormed := by
  intro s
  cases hf : st.bags.find? (·.1 == s) with
  | none => simpa [bag, hf] using Databag.noEmpty_empty
  | some sd => simpa [bag, hf] using hbags sd (List.mem_of_find?_eq_some hf)

theorem mem_foldl_putBag {l acc : List (Scope × Databag)} {p : Scope × Databag}
    (hp : p ∈ l.foldl (fun acc sd => putBag sd.1 sd.2 acc) acc) : p ∈ l ∨ p ∈ acc := by
  induction l generalizing acc with
  | nil => exact .inr hp
  | cons q l ih =>
    rcases ih hp with hp | hp
    · exact .inl (List.mem_cons_of_mem _ hp)
    · have hp : p ∈ putBag q.1 q.2 acc := hp
      rw [putBag_eq] at hp
      rcases mem_assocPut hp with rfl | hp
      · exact .inl List.mem_cons_self
      · exact .inr hp

end RelationState

/-! ## Relations of a host -/

namespace Host

theorem state?_putRelation (h : Host) (r : Relation) (st : RelationState) (r' : Relation) :
    ({ h with relations := putRelation r st h.relations } : Host).state? r' =
      if r = r' then some st else h.state? r' := by
  simp only [state?, putRelation_eq, find?_assocPut]

theorem state?_modifyRelation (h : Host) (r : Relation) (f : RelationState → RelationState)
    (r' : Relation) :
    (h.modifyRelation r f).state? r' = if r = r' then (h.state? r).map f else h.state? r' := by
  unfold modifyRelation
  split
  · rename_i st hst
    rw [state?_putRelation]
    split <;> simp_all
  · rename_i hnone
    split <;> simp_all

theorem bag_eq (h : Host) (r : Relation) (s : Scope) :
    h.bag r s = ((h.state? r).map (·.bag s)).getD .empty := rfl

theorem isLive_iff (h : Host) (r : Relation) :
    h.isLive r = true ↔ ∃ st, h.state? r = some st ∧ st.broken = false := by
  unfold isLive
  split <;> simp_all

/-- The state a host reports for a relation is one of its entries. -/
theorem mem_of_state? {h : Host} {r : Relation} {st : RelationState}
    (hst : h.state? r = some st) : (r, st) ∈ h.relations :=
  mem_of_find?_key hst

/-- A write into a scope of a known relation, read back through the views. -/
theorem bag_remoteUpdate {h : Host} {r : Relation} (hr : (h.state? r).isSome) (s : Scope)
    (u : Databag) (r' : Relation) (s' : Scope) :
    (h.remoteUpdate r s u).bag r' s' =
      if r = r' ∧ s = s' then (h.bag r s).merge u else h.bag r' s' := by
  obtain ⟨st, hst⟩ := Option.isSome_iff_exists.1 hr
  rw [bag_eq, remoteUpdate, state?_modifyRelation]
  by_cases h₁ : r = r' <;> by_cases h₂ : s = s'
  · subst h₁ h₂; simp [hst, bag_eq]
  · subst h₁; simp [hst, h₂, bag_eq]
  · simp [h₁, bag_eq]
  · simp [h₁, bag_eq]

theorem isLive_remoteUpdate (h : Host) (r : Relation) (s : Scope) (u : Databag)
    (r' : Relation) : (h.remoteUpdate r s u).isLive r' = h.isLive r' := by
  unfold isLive
  rw [remoteUpdate, state?_modifyRelation]
  by_cases h₁ : r = r'
  · subst h₁
    rw [if_pos rfl]
    cases h.state? r <;> rfl
  · simp [h₁]

theorem unit_modifyRelation (h : Host) (r : Relation) (f : RelationState → RelationState) :
    (h.modifyRelation r f).unit = h.unit := by
  unfold modifyRelation
  split <;> rfl

@[simp] theorem ownUnit_remoteUpdate (h : Host) (r : Relation) (s : Scope) (u : Databag) :
    (h.remoteUpdate r s u).ownUnit = h.ownUnit := by
  simp only [ownUnit, remoteUpdate, unit_modifyRelation]

/-- No scope of any relation holds an empty value. -/
def WellFormed (h : Host) : Prop := ∀ r st, h.state? r = some st → st.WellFormed

theorem WellFormed.bag {h : Host} (hh : h.WellFormed) (r : Relation) (s : Scope) :
    (h.bag r s).NoEmpty := by
  rw [bag_eq]
  cases hst : h.state? r with
  | none => exact Databag.noEmpty_empty
  | some st => exact hh r st hst s

theorem WellFormed.of_relations_eq {h h' : Host} (hh : h.WellFormed)
    (hrel : h'.relations = h.relations) : h'.WellFormed := by
  intro r st hst
  exact hh r st (by simpa [state?, hrel] using hst)

theorem WellFormed.putRelation {h : Host} (hh : h.WellFormed) (r : Relation)
    {st : RelationState} (hst : st.WellFormed) :
    ({ h with relations := ShareBroker.putRelation r st h.relations } : Host).WellFormed := by
  intro r' st' hst'
  rw [state?_putRelation] at hst'
  split at hst'
  · cases hst'; exact hst
  · exact hh r' st' hst'

theorem WellFormed.modifyRelation {h : Host} (hh : h.WellFormed) (r : Relation)
    {f : RelationState → RelationState} (hf : ∀ st, st.WellFormed → (f st).WellFormed) :
    (h.modifyRelation r f).WellFormed := by
  intro r' st' hst'
  rw [state?_modifyRelation] at hst'
  split at hst'
  · obtain ⟨st, hst, rfl⟩ := Option.map_eq_some_iff.1 hst'
    exact hf st (hh r st hst)
  · exact hh r' st' hst'

/-- The unit on the other side of a relation starts well formed: its one relation holds the
non-empty scopes of a well-formed host. -/
theorem WellFormed.mirror {h : Host} (hh : h.WellFormed) (app unit : String) (r : Relation) :
    (h.mirror app unit r).WellFormed := by
  intro r' st hst
  by_cases hr : r = r'
  · subst hr
    simp only [Host.mirror, state?, find?_key_cons_self, Option.map_some, Option.some.injEq] at hst
    subst hst
    refine RelationState.wellFormed_of_mem fun sd hsd => ?_
    rcases RelationState.mem_foldl_putBag hsd with hsd | hsd
    · -- each stored scope is one of `h`'s own scopes of `r`
      obtain ⟨s, -, hs⟩ := List.mem_filterMap.1 hsd
      split at hs
      · cases hs
      · cases hs
        exact hh.bag r s
    · cases hsd
  · simp [Host.mirror, state?, hr] at hst

theorem WellFormed.remoteUpdate {h : Host} (hh : h.WellFormed) (r : Relation) (s : Scope)
    (u : Databag) : (h.remoteUpdate r s u).WellFormed :=
  hh.modifyRelation r fun _ hst => hst.merge s u

end Host

end ShareBroker
