import Mathlib.Data.String.Basic
import ShareBroker.Proofs.Host.Reachable

/-!
# The secrets of a reachable host

A vault is a list of secrets kept in id order, written only by `Vault.put`. `Vault.WellFormed`
says what every vault a unit can hold satisfies: the ids ascend strictly, so each names one
secret; no two secrets share a label; and every id is a pointer `secret:<t>`, the form an
endpoint URI refers to a secret by.

* `Vault.get?_put`: putting a secret replaces the one with its id and leaves the others;
* `Vault.WellFormed.ensure`: storing content under a label gives a well-formed vault in which
  the returned id holds that label and content;
* `Vault.WellFormed.grant`, `Vault.WellFormed.revoke`: granting and revoking a secret that
  exists succeeds, and changes its grants only;
* `Host.Reachable.vault_wellFormed`: the vault of every reachable host is well formed.
-/

namespace ShareBroker

/-! ## Ordered lists of pairs -/

/-- Putting a pair into a list whose keys ascend strictly keeps them ascending. -/
theorem sorted_assocPut {κ ν : Type} [LinearOrder κ] [DecidableEq κ] {k : κ} {v : ν} {l : List (κ × ν)}
    (hl : l.Pairwise (fun a b => a.1 < b.1)) :
    (assocPut (fun a b => decide (a < b)) k v l).Pairwise (fun a b => a.1 < b.1) := by
  induction l with
  | nil => simp [assocPut]
  | cons p l ih =>
    obtain ⟨k', v'⟩ := p
    rw [List.pairwise_cons] at hl
    simp only [assocPut, decide_eq_true_eq]
    split_ifs with hlt heq
    · -- `k` goes in front of keys all above `k'`, hence above `k`
      refine List.Pairwise.cons (fun x hx => ?_) (List.Pairwise.cons hl.1 hl.2)
      rcases List.mem_cons.1 hx with rfl | hx
      · exact hlt
      · exact lt_trans hlt (hl.1 x hx)
    · subst heq
      exact List.Pairwise.cons hl.1 hl.2
    · have hgt : k' < k := lt_of_le_of_ne (not_lt.1 hlt) (Ne.symm heq)
      refine List.Pairwise.cons (fun x hx => ?_) (ih hl.2)
      rcases mem_assocPut hx with rfl | hx
      · exact hgt
      · exact hl.1 x hx

/-- In a list whose keys ascend strictly, a key is found with the value it is listed with. -/
theorem find?_of_mem_sorted {κ ν : Type} [LinearOrder κ] [DecidableEq κ] {l : List (κ × ν)}
    (hl : l.Pairwise (fun a b => a.1 < b.1)) {k : κ} {v : ν} (hmem : (k, v) ∈ l) :
    (l.find? (·.1 == k)).map (·.2) = some v := by
  -- ascending keys are distinct, so the pair found is the one listed with `k`
  have hnd : (l.map (·.1)).Nodup := (List.pairwise_map.2 hl).imp ne_of_lt
  rw [(find?_key_eq_some_iff hnd).2 ⟨hmem, rfl⟩]
  rfl

namespace Vault

theorem putEntry_eq (id : String) (s : Secret) (l : List (String × Secret)) :
    putEntry id s l = assocPut (fun a b => decide (a < b)) id s l := by
  induction l with
  | nil => rfl
  | cons p l ih =>
    obtain ⟨id', s'⟩ := p
    simp only [putEntry, assocPut, ih, decide_eq_true_eq]

theorem get?_put (v : Vault) (id : String) (s : Secret) (id' : String) :
    (v.put id s).get? id' = if id = id' then some s else v.get? id' := by
  simp only [put, get?, putEntry_eq, find?_assocPut]

theorem mem_put {v : Vault} {id : String} {s : Secret} {e : String × Secret}
    (he : e ∈ (v.put id s).entries) : e = (id, s) ∨ e ∈ v.entries := by
  rw [put, putEntry_eq] at he
  exact mem_assocPut he

theorem mem_of_get? {v : Vault} {id : String} {s : Secret} (h : v.get? id = some s) :
    (id, s) ∈ v.entries :=
  mem_of_find?_key h

theorem lookup_eq_none {v : Vault} {label : String} (h : v.lookup label = none) :
    ∀ e ∈ v.entries, e.2.label ≠ label := by
  intro e he heq
  have hfind := List.find?_eq_none.1 (Option.map_eq_none_iff.1 h) e he
  simp [heq] at hfind

theorem lookup_eq_some {v : Vault} {label id : String} (h : v.lookup label = some id) :
    ∃ s, (id, s) ∈ v.entries ∧ s.label = label := by
  obtain ⟨e, he, rfl⟩ := Option.map_eq_some_iff.1 h
  exact ⟨e.2, List.mem_of_find?_eq_some he, by simpa using List.find?_some he⟩

/-- The ids ascend strictly, no two secrets share a label, and every id is a pointer
`secret:<t>`. -/
structure WellFormed (v : Vault) : Prop where
  sorted : v.entries.Pairwise (fun a b => a.1 < b.1)
  labels : ∀ a ∈ v.entries, ∀ b ∈ v.entries, a.2.label = b.2.label → a.1 = b.1
  ids : ∀ a ∈ v.entries, ∃ t, t ≠ "" ∧ a.1 = "secret:" ++ t

theorem wellFormed_empty : Vault.empty.WellFormed := ⟨List.Pairwise.nil, by simp [empty],
  by simp [empty]⟩

section WellFormed

variable {v : Vault}

theorem WellFormed.get?_of_mem (hv : v.WellFormed) {id : String} {s : Secret}
    (hmem : (id, s) ∈ v.entries) : v.get? id = some s :=
  find?_of_mem_sorted hv.sorted hmem

/-- Putting a secret under a pointer keeps the vault well formed, as long as every secret
already carrying its label has that id. -/
theorem WellFormed.put (hv : v.WellFormed) {id : String} {s : Secret}
    (hid : ∃ t, t ≠ "" ∧ id = "secret:" ++ t)
    (hlabel : ∀ e ∈ v.entries, e.2.label = s.label → e.1 = id) : (v.put id s).WellFormed := by
  refine ⟨by rw [Vault.put, putEntry_eq]; exact sorted_assocPut hv.sorted, ?_, ?_⟩
  · intro a ha b hb hab
    rcases mem_put ha with rfl | ha <;> rcases mem_put hb with rfl | hb
    · rfl
    · exact (hlabel b hb hab.symm).symm
    · exact hlabel a ha hab
    · exact hv.labels a ha b hb hab
  · intro a ha
    rcases mem_put ha with rfl | ha
    · exact hid
    · exact hv.ids a ha

/-- Storing content under a label: the returned id holds that label and content, in a
well-formed vault. -/
theorem WellFormed.ensure (hv : v.WellFormed) (content : Databag) (label : String) :
    (v.ensure content label).2.WellFormed ∧
      ∃ s, (v.ensure content label).2.get? (v.ensure content label).1 = some s ∧
        s.label = label ∧ s.content = content := by
  unfold Vault.ensure
  split
  · -- the label is in use: its secret takes the content and keeps its id
    rename_i id hlookup
    obtain ⟨s₀, hmem, hlabel⟩ := lookup_eq_some hlookup
    rw [hv.get?_of_mem hmem]
    refine ⟨hv.put (hv.ids _ hmem) fun e he heq => ?_, { s₀ with content := content }, ?_,
      hlabel, rfl⟩
    · exact hv.labels e he (id, s₀) hmem heq
    · simp [get?_put]
  · -- a new secret, under the next pointer
    rename_i hlookup
    have hfree := lookup_eq_none hlookup
    have hid : "secret:harness-" ++ toString v.entries.length =
        "secret:" ++ ("harness-" ++ toString v.entries.length) := by
      rw [← String.append_assoc]
      rfl
    refine ⟨hv.put ⟨"harness-" ++ toString v.entries.length, by simp, hid⟩
      fun e he heq => absurd heq (hfree e he), ⟨label, content, []⟩, by simp [get?_put], rfl, rfl⟩

/-- Granting a secret that exists adds the relation to its grants. -/
theorem WellFormed.grant (hv : v.WellFormed) {id : String} {s : Secret} (hs : v.get? id = some s)
    (r : Relation) :
    v.grant id r = .ok (v.put id { s with grants := insertRelation r s.grants }) ∧
      (v.put id { s with grants := insertRelation r s.grants }).WellFormed := by
  have hmem := mem_of_get? hs
  refine ⟨by simp [Vault.grant, hs], hv.put (hv.ids _ hmem) fun e he heq => ?_⟩
  exact hv.labels e he (id, s) hmem heq

/-- Revoking a secret that exists drops the relation from its grants. -/
theorem WellFormed.revoke (hv : v.WellFormed) {id : String} {s : Secret}
    (hs : v.get? id = some s) (r : Relation) :
    v.revoke id r = .ok (v.put id { s with grants := s.grants.filter (· != r) }) ∧
      (v.put id { s with grants := s.grants.filter (· != r) }).WellFormed := by
  have hmem := mem_of_get? hs
  refine ⟨by simp [Vault.revoke, hs], hv.put (hv.ids _ hmem) fun e he heq => ?_⟩
  exact hv.labels e he (id, s) hmem heq

/-- Whatever a successful grant or revocation leaves is well formed. -/
theorem WellFormed.of_grant (hv : v.WellFormed) {id : String} {r : Relation} {w : Vault}
    (hw : v.grant id r = .ok w) : w.WellFormed := by
  cases hs : v.get? id with
  | none => simp [Vault.grant, hs] at hw
  | some s =>
    obtain ⟨hgrant, hwf⟩ := hv.grant hs r
    rw [hgrant, Except.ok.injEq] at hw
    exact hw ▸ hwf

theorem WellFormed.of_revoke (hv : v.WellFormed) {id : String} {r : Relation} {w : Vault}
    (hw : v.revoke id r = .ok w) : w.WellFormed := by
  cases hs : v.get? id with
  | none => simp [Vault.revoke, hs] at hw
  | some s =>
    obtain ⟨hrevoke, hwf⟩ := hv.revoke hs r
    rw [hrevoke, Except.ok.injEq] at hw
    exact hw ▸ hwf

end WellFormed

end Vault

/-! ## Reachable hosts -/

namespace Host

variable {h : Host}

theorem vault_modifyRelation (h : Host) (r : Relation) (f : RelationState → RelationState) :
    (h.modifyRelation r f).vault = h.vault := by
  unfold Host.modifyRelation
  split <;> rfl

/-- A change of the vault by `withVault` leaves a vault that `f` made, or the old one. -/
theorem vault_withVault (f : Vault → Outcome Vault) (h : Host) :
    ((HostM.withVault f).run.run h).2.vault = h.vault ∨
      f h.vault = .ok ((HostM.withVault f).run.run h).2.vault := by
  cases hf : f h.vault with
  | error e => left; simp only [HostM.withVault, HostM.run_get_bind, hf, HostM.run_throw]
  | ok w => right; simp only [HostM.withVault, HostM.run_get_bind, hf, HostM.run_set]

/-- An operation changes the vault only by storing a secret, or by a grant or a revocation that
went through. -/
theorem vault_apply (op : HostOp) (h : Host) :
    (op.apply h).vault = h.vault ∨ (∃ c l, (op.apply h).vault = (h.vault.ensure c l).2) ∨
      ∃ id r, h.vault.grant id r = .ok (op.apply h).vault ∨
        h.vault.revoke id r = .ok (op.apply h).vault := by
  cases op with
  | setLeader | setConfig | setSecretsAvailable | addRelation | setStatus | defer
    | takeDeferred => exact .inl rfl
  | addRelationUnit r u | removeRelationUnit r u | remoteUpdate r u | breakRelation r =>
    exact .inl (vault_modifyRelation ..)
  | updateUnit r u =>
    simp only [HostOp.apply, HostM.run_updateUnit]
    split
    · exact .inl (vault_modifyRelation ..)
    · exact .inl rfl
  | updateApp r u =>
    simp only [HostOp.apply, HostM.run_updateApp]
    split
    · split
      · exact .inl (vault_modifyRelation ..)
      · exact .inl rfl
    · exact .inl rfl
  | setAppStatus s =>
    simp only [HostOp.apply, HostM.run_setAppStatus]
    split <;> exact .inl rfl
  | ensureSecret c l =>
    -- without secrets the host refuses and keeps its vault
    simp only [HostOp.apply, HostM.run_ensureSecret]
    split
    · exact .inr (.inl ⟨c, l, rfl⟩)
    · exact .inl rfl
  | grantSecret id r =>
    rcases vault_withVault (·.grant id r) h with hsame | hok
    · exact .inl hsame
    · exact .inr (.inr ⟨id, r, .inl hok⟩)
  | revokeSecret id r =>
    rcases vault_withVault (·.revoke id r) h with hsame | hok
    · exact .inl hsame
    · exact .inr (.inr ⟨id, r, .inr hok⟩)

/-- Every operation keeps the vault well formed. -/
theorem vault_wellFormed_apply (hv : h.vault.WellFormed) (op : HostOp) :
    (op.apply h).vault.WellFormed := by
  rcases vault_apply op h with hsame | ⟨c, l, hensure⟩ | ⟨id, r, hok | hok⟩
  · exact hsame ▸ hv
  · exact hensure ▸ (hv.ensure c l).1
  · exact hv.of_grant hok
  · exact hv.of_revoke hok

/-- The vault of every host a unit can be in is well formed. -/
theorem Reachable.vault_wellFormed (hr : h.Reachable) : h.vault.WellFormed := by
  induction hr with
  | new app unit => exact Vault.wellFormed_empty
  | mirror app unit r _ ih => exact ih
  | step op _ ih => exact vault_wellFormed_apply ih op

end Host

end ShareBroker
