import Mathlib.Data.Prod.Lex
import ShareBroker.Proofs.Host.Secrets

/-!
# Each relation once

A host keeps its relations in a list ordered by `Relation.lt`: by endpoint, then by id. That is
the order of `Relation.key` in `Lex (String × Nat)`, so relations form a linear order and
`putRelation` is `assocPut` by it. Every host a unit can be in keeps the list strictly
ascending (`Host.Reachable.sorted`): each relation is known once, with one state.

On such a host the live relations of an endpoint, as `HostM.relationsOn` lists them
(`Host.liveOn`), are exactly the live relations with that endpoint, in order
(`Host.Sorted.mem_liveOn`), and two such hosts with the same live relations on an endpoint list
them alike (`Host.Sorted.liveOn_eq`).
-/

namespace ShareBroker

namespace Relation

/-- A relation's place in the order: its endpoint, then its id. -/
def key (r : Relation) : Lex (String × Nat) := toLex (r.endpoint, r.id.toNat)

theorem key_injective : Function.Injective key := by
  intro a b h
  simp only [key, toLex_inj, Prod.mk.injEq] at h
  obtain ⟨e₁, i₁⟩ := a
  obtain ⟨e₂, i₂⟩ := b
  obtain ⟨rfl, hid⟩ := h
  obtain rfl : i₁ = i₂ := UInt32.toNat_inj.1 hid
  rfl

instance : LinearOrder Relation := LinearOrder.lift' key key_injective

theorem lt_iff (a b : Relation) :
    a < b ↔ a.endpoint < b.endpoint ∨ (a.endpoint = b.endpoint ∧ a.id.toNat < b.id.toNat) := by
  show key a < key b ↔ _
  simp [key, Prod.Lex.toLex_lt_toLex]

theorem lt_eq_decide (a b : Relation) : Relation.lt a b = decide (a < b) := by
  simp only [Relation.lt, lt_iff]

end Relation

theorem putRelation_eq_sorted (r : Relation) (st : RelationState)
    (l : List (Relation × RelationState)) :
    putRelation r st l = assocPut (fun a b => decide (a < b)) r st l := by
  rw [putRelation_eq]
  congr
  funext a b
  exact Relation.lt_eq_decide a b

namespace Host

/-- The relations a host knows ascend strictly, so each is known once. -/
def Sorted (h : Host) : Prop := h.relations.Pairwise (fun a b => a.1 < b.1)

section Sorted

variable {h h' : Host}

theorem Sorted.putRelation (hs : h.Sorted) (r : Relation) (st : RelationState) :
    ({ h with relations := putRelation r st h.relations } : Host).Sorted := by
  show (ShareBroker.putRelation r st h.relations).Pairwise _
  rw [putRelation_eq_sorted]
  exact sorted_assocPut hs

theorem Sorted.modifyRelation (hs : h.Sorted) (r : Relation) (f : RelationState → RelationState) :
    (h.modifyRelation r f).Sorted := by
  unfold Host.modifyRelation
  split
  · exact hs.putRelation r _
  · exact hs

theorem Sorted.addRelation (hs : h.Sorted) (endpoint app : String) :
    (h.addRelation endpoint app).2.Sorted :=
  hs.putRelation _ _

theorem sorted_new (app unit : String) : (Host.new app unit).Sorted := List.Pairwise.nil

theorem sorted_mirror (h : Host) (app unit : String) (r : Relation) :
    (h.mirror app unit r).Sorted := List.pairwise_singleton _ _

theorem Sorted.of_relations_eq (hs : h.Sorted) (hrel : h'.relations = h.relations) :
    h'.Sorted := by
  unfold Host.Sorted
  rw [hrel]
  exact hs

/-- Every operation keeps the relations ascending. -/
theorem Sorted.apply (hs : h.Sorted) (op : HostOp) : (op.apply h).Sorted := by
  -- relations are only put in order (`addRelation`, `modifyRelation`) or left alone
  rcases op.relations_apply h with ⟨e, a, rfl⟩ | ⟨-, -, hrel | ⟨r, f, hrel⟩⟩
  · exact hs.addRelation e a
  · exact hs.of_relations_eq hrel
  · exact (hs.modifyRelation r f).of_relations_eq hrel

/-- Every host a unit can be in knows each relation once. -/
theorem Reachable.sorted (hr : h.Reachable) : h.Sorted := by
  induction hr with
  | new app unit => exact sorted_new app unit
  | mirror app unit r _ _ => exact sorted_mirror _ app unit r
  | step op _ ih => exact ih.apply op

theorem Sorted.state?_of_mem (hs : h.Sorted) {r : Relation} {st : RelationState}
    (hmem : (r, st) ∈ h.relations) : h.state? r = some st :=
  find?_of_mem_sorted hs hmem

end Sorted

/-- The live relations on an endpoint, in order: what `HostM.relationsOn` lists. -/
def liveOn (h : Host) (endpoint : String) : List Relation :=
  (h.relations.filter fun e => e.1.endpoint == endpoint && !e.2.broken).map (·.1)

section LiveOn

variable {h h' : Host}

/-- On a host that knows each relation once, the relations listed on an endpoint are its live
relations with that endpoint. -/
theorem Sorted.mem_liveOn (hs : h.Sorted) (endpoint : String) (r : Relation) :
    r ∈ h.liveOn endpoint ↔ h.isLive r = true ∧ r.endpoint = endpoint := by
  rw [isLive_iff]
  simp only [liveOn, List.mem_map, List.mem_filter, Bool.and_eq_true, beq_iff_eq,
    Bool.not_eq_eq_eq_not, Bool.not_true]
  constructor
  · rintro ⟨⟨r', st⟩, ⟨hmem, hend, hbroken⟩, rfl⟩
    exact ⟨⟨st, hs.state?_of_mem hmem, hbroken⟩, hend⟩
  · rintro ⟨⟨st, hst, hbroken⟩, hend⟩
    exact ⟨(r, st), ⟨mem_of_state? hst, hend, hbroken⟩, rfl⟩

theorem Sorted.liveOn_sorted (hs : h.Sorted) (endpoint : String) :
    (h.liveOn endpoint).Pairwise (· < ·) :=
  List.pairwise_map.2 (hs.filter _)

/-- Two hosts that know each relation once and agree on which relations of an endpoint are
live list them alike. -/
theorem Sorted.liveOn_eq (hs : h.Sorted) (hs' : h'.Sorted) {endpoint : String}
    (hlive : ∀ r, r.endpoint = endpoint → h'.isLive r = h.isLive r) :
    h'.liveOn endpoint = h.liveOn endpoint := by
  refine List.Pairwise.eq_of_mem_iff (hs'.liveOn_sorted endpoint) (hs.liveOn_sorted endpoint)
    fun r => ?_
  rw [hs'.mem_liveOn, hs.mem_liveOn]
  constructor
  · rintro ⟨hr, he⟩
    exact ⟨(hlive r he).symm.trans hr, he⟩
  · rintro ⟨hr, he⟩
    exact ⟨(hlive r he).trans hr, he⟩

end LiveOn

end Host

theorem HostM.run_relationsOn (endpoint : String) (h : Host) :
    (HostM.relationsOn endpoint).run.run h = (.ok (h.liveOn endpoint), h) := rfl

end ShareBroker
