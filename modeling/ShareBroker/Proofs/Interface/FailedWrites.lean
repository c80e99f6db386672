import ShareBroker.Proofs.Interface.FilesystemPublish
import ShareBroker.Interface.Mount
import ShareBroker.Interface.Share

/-!
# Interface writes that fail

Of the four writes the relation interfaces offer, two only read until their one write of the
application's scope: `ShareRequires.requestShare` checks that no other relation is asked, and
`MountRequires.setMountInfo` that no other relation requests another mountpoint. The write,
`HostM.updateApp`, refuses a unit that is not the leader or a relation that is gone before it
writes anything, so when either call fails the host is exactly as it was
(`HostM.FailsCleanly`).

The two writes of a provider, `FilesystemProvides.setInfo` and `ShareProvides.setShare`, seal
the credentials first: the secret under their label is created or given the new content, and
may be granted to a relation, before `updateApp` looks at leadership or the relation. When they
fail, everything but the secrets is as it was, and of the secrets at most the one under the
call's label changed, to hold the credentials being published (`Host.SealedOnly`). Sealing
never overwrites another secret: the host numbers its secrets (`Vault.Numbered`), so a new one
gets an id no secret has.

## Key results

- `HostM.ReadOnly`, `HostM.FailsCleanly` and their combinators;
- `Host.Reachable.vault_numbered`: the secrets of every reachable host are numbered;
- `FilesystemProvides.spread_error`: publishing a URI fails only for a unit that is not the
  leader, at its first write;
- `failed_writes_touch_only_their_secret`: what a failed write leaves, for the four writes.
-/

namespace ShareBroker

/-! ## Failing runs -/

section Failing

variable {σ α β : Type}

/-- A run of `x >>= f` that fails failed in `x`, or in `f` after `x` succeeded. -/
theorem run_bind_eq_error {x : ExceptT Error (StateM σ) α} {f : α → ExceptT Error (StateM σ) β}
    {s s' : σ} {e : Error} (h : (x >>= f).run.run s = (.error e, s')) :
    x.run.run s = (.error e, s') ∨
      ∃ a s₁, x.run.run s = (.ok a, s₁) ∧ (f a).run.run s₁ = (.error e, s') := by
  rcases hx : x.run.run s with ⟨e' | a, s₁⟩
  · rw [run_bind_error hx, Prod.mk.injEq, Except.error.injEq] at h
    obtain ⟨rfl, rfl⟩ := h
    exact .inl rfl
  · rw [run_bind_ok hx] at h
    exact .inr ⟨a, s₁, rfl, h⟩

end Failing

namespace HostM

/-- The action writes nothing: whether it succeeds or fails, it ends in the host it started
from. -/
def ReadOnly {α : Type} (m : HostM α) : Prop := ∀ h, (m.run.run h).2 = h

/-- The action writes nothing before it can fail: a failing run ends in the host it started
from. -/
def FailsCleanly {α : Type} (m : HostM α) : Prop :=
  ∀ h e h', m.run.run h = (.error e, h') → h' = h

section ReadOnly

variable {α β γ : Type}

theorem readOnly_pure (a : α) : ReadOnly (pure a : HostM α) := fun _ => rfl

theorem readOnly_throw (e : Error) : ReadOnly (throw e : HostM α) := fun _ => rfl

theorem readOnly_ofOutcome (o : Outcome α) : ReadOnly (ofOutcome o) := by
  intro h
  cases o <;> rfl

theorem readOnly_relationsOn (endpoint : String) : ReadOnly (relationsOn endpoint) := fun _ => rfl

theorem readOnly_ownApp : ReadOnly ownApp := fun _ => rfl

theorem readOnly_read (r : Relation) (s : Scope) : ReadOnly (read r s) := by
  intro h
  cases hr : h.isLive r
  · rw [run_read_of_not_isLive hr]
  · rw [run_read_of_isLive hr]

theorem ReadOnly.bind {x : HostM α} {f : α → HostM β} (hx : ReadOnly x)
    (hf : ∀ a, ReadOnly (f a)) : ReadOnly (x >>= f) := by
  intro h
  have hsame := hx h
  rcases hrun : x.run.run h with ⟨e | a, h₁⟩ <;> rw [hrun] at hsame <;> obtain rfl : h₁ = h := hsame
  · rw [run_bind_error hrun]
  · rw [run_bind_ok hrun]
    exact hf a h₁

/-- A loop whose every pass only reads only reads. -/
theorem ReadOnly.forIn (xs : List γ) (b : β) {f : γ → β → HostM (ForInStep β)}
    (hf : ∀ a b, ReadOnly (f a b)) : ReadOnly (forIn xs b f) := by
  induction xs generalizing b with
  | nil => exact readOnly_pure b
  | cons a xs ih =>
    rw [List.forIn_cons]
    refine (hf a b).bind fun step => ?_
    cases step with
    | done b' => exact readOnly_pure b'
    | yield b' => exact ih b'

theorem ReadOnly.failsCleanly {m : HostM α} (hm : ReadOnly m) : FailsCleanly m := by
  intro h e h' hrun
  have hsame := hm h
  rwa [hrun] at hsame

/-- Reads followed by an action that fails before writing fail before writing. -/
theorem ReadOnly.bind_failsCleanly {x : HostM α} {f : α → HostM β} (hx : ReadOnly x)
    (hf : ∀ a, FailsCleanly (f a)) : FailsCleanly (x >>= f) := by
  intro h e h' hrun
  rcases run_bind_eq_error hrun with hfail | ⟨a, h₁, hok, hfail⟩
  · exact hx.failsCleanly h e h' hfail
  · have hsame := hx h
    rw [hok] at hsame
    obtain rfl : h₁ = h := hsame
    exact hf a h₁ e h' hfail

/-- The write of the application's scope checks leadership and the relation before writing. -/
theorem failsCleanly_updateApp (r : Relation) (u : Databag) (t : LeadershipToken) :
    FailsCleanly (updateApp r u t) := by
  intro h e h' hrun
  rw [run_updateApp] at hrun
  split at hrun
  · split at hrun
    · cases hrun
    · exact (Prod.mk.inj hrun).2.symm
  · exact (Prod.mk.inj hrun).2.symm

end ReadOnly

end HostM

/-! ## Requests that only read before writing -/

/-- Asking for a share fails before it writes: the check for another relation only reads. -/
theorem ShareRequires.requestShare_failsCleanly (side : ShareRequires) (t : LeadershipToken)
    (r : Relation) (name : String) : HostM.FailsCleanly (side.requestShare t r name) := by
  unfold ShareRequires.requestShare
  refine (HostM.readOnly_relationsOn _).bind_failsCleanly fun rs => ?_
  split
  · intro h e h' hrun
    rw [HostM.run_throw_bind] at hrun
    exact (Prod.mk.inj hrun).2.symm
  · exact HostM.failsCleanly_updateApp _ _ _

/-- Publishing a mount request fails before it writes: saving the record and comparing it with
the other relations' requests only read. -/
theorem MountRequires.setMountInfo_failsCleanly (side : MountRequires) (t : LeadershipToken)
    (r : Relation) (info : MountInfo) : HostM.FailsCleanly (side.setMountInfo t r info) := by
  unfold MountRequires.setMountInfo
  refine (HostM.readOnly_ofOutcome _).bind_failsCleanly fun data => ?_
  refine HostM.readOnly_ownApp.bind_failsCleanly fun own => ?_
  refine (HostM.readOnly_relationsOn _).bind_failsCleanly fun rs => ?_
  refine (HostM.ReadOnly.forIn rs _ fun other _ => ?_).bind_failsCleanly
    fun _ => HostM.failsCleanly_updateApp _ _ _
  -- each pass reads the other relation's request and may refuse
  split
  · refine (HostM.readOnly_read _ _).bind fun existing => ?_
    split
    · split
      · exact (HostM.readOnly_throw _).bind fun _ => HostM.readOnly_pure _
      · exact HostM.readOnly_pure _
    · exact HostM.readOnly_pure _
  · exact HostM.readOnly_pure _

/-! ## Numbered secrets

The host names a new secret `secret:harness-<n>`, where `n` is the number of secrets, and never
drops one; so every id is numbered below the count, and the next id is free. -/

namespace Vault

/-- Every secret's id is `secret:harness-<i>` for an `i` below the number of secrets. -/
def Numbered (v : Vault) : Prop :=
  ∀ e ∈ v.entries, ∃ i < v.entries.length, e.1 = "secret:harness-" ++ toString i

theorem numbered_empty : Vault.empty.Numbered := by
  simp [Numbered, empty]

theorem length_putEntry_of_mem {id : String} {s : Secret} {l : List (String × Secret)}
    (hl : l.Pairwise (fun a b => a.1 < b.1)) (hmem : id ∈ l.map (·.1)) :
    (putEntry id s l).length = l.length := by
  induction l with
  | nil => simp at hmem
  | cons p l ih =>
    obtain ⟨id', s'⟩ := p
    rw [List.pairwise_cons] at hl
    unfold putEntry
    split_ifs with hlt heq
    · -- `id` is a later key, above `id'`, so it cannot go in front
      exfalso
      rcases List.mem_cons.1 hmem with rfl | hmem
      · exact lt_irrefl _ hlt
      · obtain ⟨e, he, rfl⟩ := List.mem_map.1 hmem
        exact lt_asymm hlt (hl.1 e he)
    · rfl
    · rcases List.mem_cons.1 hmem with rfl | hmem
      · exact absurd rfl heq
      · simp [ih hl.2 hmem]

theorem length_putEntry_of_not_mem {id : String} {s : Secret} {l : List (String × Secret)}
    (hmem : id ∉ l.map (·.1)) : (putEntry id s l).length = l.length + 1 := by
  induction l with
  | nil => rfl
  | cons p l ih =>
    obtain ⟨id', s'⟩ := p
    simp only [List.map_cons, List.mem_cons, not_or] at hmem
    unfold putEntry
    rw [if_neg hmem.1]
    split_ifs
    · rfl
    · simp [ih hmem.2]

/-- The next id the host hands out names no secret yet. -/
theorem Numbered.fresh {v : Vault} (hn : v.Numbered) :
    ∀ e ∈ v.entries, e.1 ≠ "secret:harness-" ++ toString v.entries.length := by
  intro e he heq
  obtain ⟨i, hi, hid⟩ := hn e he
  rw [hid, String.append_right_inj] at heq
  -- the decimal digits of a number name it
  have hback : Decimal.readUnsigned v.entries.length (toString i) = .ok i :=
    Decimal.readUnsigned_toString hi.le
  rw [heq, Decimal.readUnsigned_toString le_rfl, Except.ok.injEq] at hback
  exact absurd hback.symm (Nat.ne_of_lt hi)

theorem get?_eq_none_of_fresh {v : Vault} {id : String} (hid : ∀ e ∈ v.entries, e.1 ≠ id) :
    v.get? id = none := by
  cases hs : v.get? id with
  | none => rfl
  | some s => exact absurd rfl (hid _ (mem_of_get? hs))

/-- Putting a secret under an id in use keeps the secrets numbered. -/
theorem Numbered.put_of_get? {v : Vault} (hv : v.WellFormed) (hn : v.Numbered) {id : String}
    {s₀ : Secret} (hs₀ : v.get? id = some s₀) (s : Secret) : (v.put id s).Numbered := by
  have hlen : (v.put id s).entries.length = v.entries.length :=
    length_putEntry_of_mem hv.sorted (List.mem_map.2 ⟨_, mem_of_get? hs₀, rfl⟩)
  intro e he
  rw [hlen]
  rcases mem_put he with rfl | he
  · exact hn (id, s₀) (mem_of_get? hs₀)
  · exact hn e he

theorem Numbered.ensure {v : Vault} (hv : v.WellFormed) (hn : v.Numbered) (content : Databag)
    (label : String) : (v.ensure content label).2.Numbered := by
  unfold Vault.ensure
  split
  · rename_i id hlookup
    obtain ⟨s₀, hmem, -⟩ := lookup_eq_some hlookup
    rw [hv.get?_of_mem hmem]
    exact hn.put_of_get? hv (hv.get?_of_mem hmem) _
  · -- a new secret, under the next id, which no secret has
    have hlen :
        (v.put ("secret:harness-" ++ toString v.entries.length) ⟨label, content, []⟩).entries.length =
          v.entries.length + 1 := by
      refine length_putEntry_of_not_mem fun hmem => ?_
      obtain ⟨e, he, hkey⟩ := List.mem_map.1 hmem
      exact hn.fresh e he hkey
    intro e he
    rw [hlen]
    rcases mem_put he with rfl | he
    · exact ⟨v.entries.length, Nat.lt_succ_self _, rfl⟩
    · obtain ⟨i, hi, hid⟩ := hn e he
      exact ⟨i, Nat.lt_succ_of_lt hi, hid⟩

theorem Numbered.of_grant {v w : Vault} (hv : v.WellFormed) (hn : v.Numbered) {id : String}
    {r : Relation} (hw : v.grant id r = .ok w) : w.Numbered := by
  cases hs : v.get? id with
  | none => simp [Vault.grant, hs] at hw
  | some s =>
    rw [(hv.grant hs r).1, Except.ok.injEq] at hw
    exact hw ▸ hn.put_of_get? hv hs _

theorem Numbered.of_revoke {v w : Vault} (hv : v.WellFormed) (hn : v.Numbered) {id : String}
    {r : Relation} (hw : v.revoke id r = .ok w) : w.Numbered := by
  cases hs : v.get? id with
  | none => simp [Vault.revoke, hs] at hw
  | some s =>
    rw [(hv.revoke hs r).1, Except.ok.injEq] at hw
    exact hw ▸ hn.put_of_get? hv hs _

end Vault

namespace Host

variable {h : Host}

/-- Every operation keeps the secrets numbered. -/
theorem vault_numbered_apply (hv : h.vault.WellFormed) (hn : h.vault.Numbered) (op : HostOp) :
    (op.apply h).vault.Numbered := by
  rcases vault_apply op h with hsame | ⟨c, l, hensure⟩ | ⟨id, r, hok | hok⟩
  · exact hsame ▸ hn
  · exact hensure ▸ hn.ensure hv c l
  · exact hn.of_grant hv hok
  · exact hn.of_revoke hv hok

/-- The secrets of every host a unit can be in are numbered as the host hands them out. -/
theorem Reachable.vault_numbered (hr : h.Reachable) : h.vault.Numbered := by
  induction hr with
  | new app unit => exact Vault.numbered_empty
  | mirror app unit r _ ih => exact ih
  | step op hr ih => exact vault_numbered_apply hr.vault_wellFormed ih op

end Host

/-! ## Resealing one secret -/

namespace Vault

/-- `w` is `v` but for secrets labelled `label`: every other secret keeps its id and contents,
no secret goes, and every secret that differs is labelled `label` and holds `content`. -/
structure Resealed (label : String) (content : Databag) (v w : Vault) : Prop where
  kept : ∀ id, (v.get? id).isSome → (w.get? id).isSome
  others : ∀ id s, s.label ≠ label → (w.get? id = some s ↔ v.get? id = some s)
  sealed : ∀ id s, w.get? id = some s → v.get? id ≠ some s → s.label = label ∧ s.content = content

variable {label : String} {content : Databag} {v w : Vault}

theorem Resealed.refl (label : String) (content : Databag) (v : Vault) :
    Resealed label content v v :=
  ⟨fun _ h => h, fun _ _ _ => Iff.rfl, fun _ _ hs hne => absurd hs hne⟩

/-- Putting a secret labelled `label` and holding `content` over one that had the label. -/
theorem Resealed.put (hw : Resealed label content v w) {id : String} {s₀ s : Secret}
    (hs₀ : w.get? id = some s₀) (hl₀ : s₀.label = label) (hl : s.label = label)
    (hc : s.content = content) : Resealed label content v (w.put id s) := by
  refine ⟨fun id' hid' => ?_, fun id' s' hl' => ?_, fun id' s' hs' hne => ?_⟩
  · rw [get?_put]
    split
    · rfl
    · exact hw.kept id' hid'
  · rw [get?_put]
    split
    · -- both sides are false: the secret at `id` is labelled `label`, before and after
      rename_i heq
      subst heq
      constructor
      · intro h
        obtain rfl := Option.some.inj h
        exact absurd hl hl'
      · intro h
        obtain rfl := Option.some.inj (hs₀.symm.trans ((hw.others _ s' hl').2 h))
        exact absurd hl₀ hl'
    · exact hw.others id' s' hl'
  · rw [get?_put] at hs'
    split at hs'
    · obtain rfl := Option.some.inj hs'
      exact ⟨hl, hc⟩
    · exact hw.sealed id' s' hs' hne

/-- Storing content under a label reseals only that label's secret: a label in use keeps its
id, and a new label gets the next id, which no secret has. -/
theorem Resealed.ensure (hv : v.WellFormed) (hn : v.Numbered) (content : Databag)
    (label : String) : Resealed label content v (v.ensure content label).2 := by
  unfold Vault.ensure
  split
  · -- a secret with the label exists: its content is replaced in place
    rename_i id hlookup
    obtain ⟨s₀, hmem, hl₀⟩ := lookup_eq_some hlookup
    rw [hv.get?_of_mem hmem]
    exact (Resealed.refl label content v).put (hv.get?_of_mem hmem) hl₀ hl₀ rfl
  · -- a new secret under the next id, which no secret held, so every other id keeps its own
    have hnone := get?_eq_none_of_fresh hn.fresh
    refine ⟨fun id' hid' => ?_, fun id' s' hl' => ?_, fun id' s' hs' hne => ?_⟩
    · rw [get?_put]
      split
      · rfl
      · exact hid'
    · rw [get?_put]
      split
      · rename_i heq
        subst heq
        rw [hnone]
        constructor
        · intro h
          obtain rfl := Option.some.inj h
          exact absurd rfl hl'
        · intro h
          cases h
      · exact Iff.rfl
    · rw [get?_put] at hs'
      split at hs'
      · obtain rfl := Option.some.inj hs'
        exact ⟨rfl, rfl⟩
      · exact absurd hs' hne

end Vault

namespace Host

/-- `h'` is `h` but for its secrets, among which at most those labelled `label` changed, to
hold `content`; with no secrets on the host, or nothing to seal, `h'` is `h`. -/
structure SealedOnly (label : String) (content : Option Databag) (h h' : Host) : Prop where
  rest : { h' with vault := h.vault } = h
  unsealed : h.secretsAvailable = false ∨ content = none → h' = h
  resealed : ∀ c, content = some c → h.vault.Resealed label c h'.vault

theorem SealedOnly.refl (label : String) (content : Option Databag) (h : Host) :
    h.SealedOnly label content h :=
  ⟨rfl, fun _ => rfl, fun c _ => Vault.Resealed.refl label c h.vault⟩

/-- Granting the label's sealed secret to a relation keeps what sealing left. -/
theorem SealedOnly.grant {label : String} {c : Databag} {h h₁ : Host}
    (hs : h.SealedOnly label (some c) h₁) (ha : h.secretsAvailable = true) {id : String}
    {s : Secret} (hget : h₁.vault.get? id = some s) (hl : s.label = label) (hc : s.content = c)
    (r : Relation) : h.SealedOnly label (some c) (FilesystemProvides.granted h₁ id s r) := by
  refine ⟨hs.rest, fun hno => ?_, fun c' hc' => ?_⟩
  · rcases hno with hno | hno
    · exact absurd (ha.symm.trans hno) (by decide)
    · cases hno
  · obtain rfl := Option.some.inj hc'
    exact (hs.resealed c rfl).put hget hl hl hc

/-- Sealing content under a label, on a host with secrets. -/
theorem SealedOnly.ensure {h : Host} (ha : h.secretsAvailable = true) (hv : h.vault.WellFormed)
    (hn : h.vault.Numbered) (c : Databag) (label : String) :
    h.SealedOnly label (some c) { h with vault := (h.vault.ensure c label).2 } := by
  refine ⟨rfl, fun hno => ?_, fun c' hc' => ?_⟩
  · rcases hno with hno | hno
    · exact absurd (ha.symm.trans hno) (by decide)
    · cases hno
  · obtain rfl := Option.some.inj hc'
    exact Vault.Resealed.ensure hv hn _ label

/-- What sealing leaves agrees with the host on everything but the secrets. -/
theorem SealedOnly.eq_vault {label : String} {content : Option Databag} {h h' : Host}
    (hs : h.SealedOnly label content h') : h' = { h with vault := h'.vault } := by
  rw [← hs.rest]

end Host

/-! ## Publishing a record -/

namespace FilesystemProvides

variable {side : FilesystemProvides} {t : LeadershipToken} {uri : String}
  {secret : Option String} {h : Host}

/-- Sealing a record's credentials changes at most the secret under the provider's label; a
sealed URI points at that secret, which holds the credentials. -/
theorem run_publication (hv : h.vault.WellFormed) (hn : h.vault.Numbered) (i : FsInfo) :
    ∃ p h₁, (publication i).run.run h = (.ok p, h₁) ∧
      h.SealedOnly infoSecretLabel i.secretContent h₁ ∧ h₁.vault.WellFormed ∧
      ∀ id, p.2 = some id → h.secretsAvailable = true ∧ ∃ c s, i.secretContent = some c ∧
        h₁.vault.get? id = some s ∧ s.label = infoSecretLabel ∧ s.content = c := by
  unfold publication
  cases hc : i.secretContent with
  | none => exact ⟨_, h, rfl, .refl _ _ h, hv, fun _ h => by cases h⟩
  | some content =>
    cases ha : h.secretsAvailable with
    | false =>
      rw [run_bind_ok (HostM.run_conceal_of_unavailable ha _ _)]
      exact ⟨_, h, rfl, .refl _ _ h, hv, fun _ h => by cases h⟩
    | true =>
      -- the credentials go into the secret with the provider's label
      obtain ⟨hwf, s, hs, hl, hcontent⟩ := hv.ensure content infoSecretLabel
      rw [run_bind_ok (HostM.run_conceal_of_available ha _ _)]
      refine ⟨_, _, rfl, .ensure ha hv hn content infoSecretLabel, hwf, ?_⟩
      rintro id ⟨⟩
      exact ⟨rfl, content, s, rfl, hs, hl, hcontent⟩

/-- Writing into a scope of a relation keeps leadership, the order of the relations, the
secrets and which relations are live. -/
theorem remoteUpdate_keeps (hs : h.Sorted) (r : Relation) (sc : Scope) (u : Databag) :
    (h.remoteUpdate r sc u).leader = h.leader ∧ (h.remoteUpdate r sc u).Sorted ∧
      (h.remoteUpdate r sc u).vault = h.vault ∧
      ∀ r', (h.remoteUpdate r sc u).isLive r' = h.isLive r' :=
  ⟨Host.leader_modifyRelation h r _, hs.modifyRelation r _, Host.vault_modifyRelation h r _,
    Host.isLive_remoteUpdate h r sc u⟩

/-- A publication on one live relation, by a leader whose secret is in the vault, succeeds and
keeps all that made it succeed. -/
theorem publish_succeeds (hl : h.leader = true) (hs : h.Sorted) (hv : h.vault.WellFormed)
    (hsecret : ∀ id, secret = some id → (h.vault.get? id).isSome) {r : Relation}
    (hr : h.isLive r = true) (t : LeadershipToken) (uri : String) :
    Succeeds (publish t r uri secret) h fun _ h' => h'.leader = true ∧ h'.Sorted ∧
      h'.vault.WellFormed ∧ (∀ r', h'.isLive r' = h.isLive r') ∧
      ∀ id, secret = some id → (h'.vault.get? id).isSome := by
  cases secret with
  | none =>
    -- no secret: the write of the URI is all
    have hrun : (publish t r uri none).run.run h =
        (.ok (), h.remoteUpdate r h.ownApp (Databag.ofList [(endpointKey, uri)])) := by
      simp only [publish]
      rw [HostM.run_updateApp, if_pos hl, if_pos hr]
    obtain ⟨hl', hs', hv', hlive'⟩ := remoteUpdate_keeps hs r h.ownApp
      (Databag.ofList [(endpointKey, uri)])
    exact Succeeds.of_run hrun ⟨hl'.trans hl, hs', hv' ▸ hv, hlive', fun _ h => by cases h⟩
  | some id =>
    -- the grant changes the secret's grants, then the write one scope of `r`
    obtain ⟨s, hget⟩ := Option.isSome_iff_exists.1 (hsecret id rfl)
    have hg : granted h id s r = { h with vault := (granted h id s r).vault } := rfl
    have hrun : (publish t r uri (some id)).run.run h = (.ok (),
        (granted h id s r).remoteUpdate r (granted h id s r).ownApp
          (Databag.ofList [(endpointKey, uri)])) := by
      simp only [publish]
      rw [run_bind_ok (run_grantSecret hv hget r), HostM.run_updateApp,
        if_pos (show (granted h id s r).leader = true from hl),
        if_pos (show (granted h id s r).isLive r = true from hr)]
    obtain ⟨hl', hs', hv', hlive'⟩ := remoteUpdate_keeps (show (granted h id s r).Sorted from hs)
      r (granted h id s r).ownApp (Databag.ofList [(endpointKey, uri)])
    refine Succeeds.of_run hrun ⟨hl'.trans hl, hs', hv' ▸ (hv.grant hget r).2,
      fun r' => (hlive' r').trans rfl, ?_⟩
    rintro id' ⟨⟩
    rw [hv']
    simp [granted, Vault.get?_put]

/-- Publishing on every relation of a list that is live, one after another, by a leader whose
secret is in the vault, succeeds. -/
theorem publishAll_succeeds {rs : List Relation} (hl : h.leader = true) (hs : h.Sorted)
    (hv : h.vault.WellFormed) (hsecret : ∀ id, secret = some id → (h.vault.get? id).isSome)
    (hrs : ∀ r ∈ rs, h.isLive r = true) (t : LeadershipToken) (uri : String) :
    Succeeds (ForIn.forIn rs PUnit.unit fun r (_ : PUnit) => do
        publish t r uri secret
        pure (ForInStep.yield PUnit.unit)) h fun _ _ => True := by
  -- each pass keeps the leader, the order, the secrets and which relations are live
  let I : List Relation → Host → Prop := fun _ g => g.leader = true ∧ g.Sorted ∧
    g.vault.WellFormed ∧ (∀ r, g.isLive r = h.isLive r) ∧
    ∀ id, secret = some id → (g.vault.get? id).isSome
  have hinit : I [] h := ⟨hl, hs, hv, fun _ => rfl, hsecret⟩
  refine (Succeeds.forIn (I := I) (fun pre x rest g hpre hI => ?_) hinit).mono
    fun _ _ _ => trivial
  obtain ⟨hlg, hsg, hvg, hliveg, hsecretg⟩ := hI
  have hx : g.isLive x = true :=
    (hliveg x).trans (hrs x (by rw [← hpre]; exact List.mem_append_right _ List.mem_cons_self))
  refine (publish_succeeds hlg hsg hvg hsecretg hx t uri).bind fun _ g' hpost => ?_
  obtain ⟨hl', hs', hv', hlive', hsecret'⟩ := hpost
  exact Succeeds.pure ⟨rfl, hl', hs', hv', fun r => (hlive' r).trans (hliveg r), hsecret'⟩

/-- A leader spreads a URI without failing: the peer copy and each publication go into live
relations, and each grant finds the secret. -/
theorem spread_succeeds (side : FilesystemProvides) (t : LeadershipToken) (uri : String)
    (hl : h.leader = true) (hs : h.Sorted) (hv : h.vault.WellFormed)
    (hsecret : ∀ id, secret = some id → (h.vault.get? id).isSome) :
    Succeeds (side.spread t uri secret) h fun _ _ => True := by
  -- after the peer copy, the relations on the endpoint are published to
  have hrest : ∀ g : Host, g.leader = true → g.Sorted → g.vault = h.vault →
      Succeeds (do
        let rs ← HostM.relationsOn side.endpoint
        ForIn.forIn rs PUnit.unit fun r (_ : PUnit) => do
          publish t r uri secret
          pure (ForInStep.yield PUnit.unit)
        pure ()) g fun _ _ => True := by
    intro g hgl hgs hgv
    refine Succeeds.bind_of_run (HostM.run_relationsOn _ _) ?_
    exact (publishAll_succeeds hgl hgs (hgv ▸ hv) (fun id hid => hgv ▸ hsecret id hid)
      (fun r hr => (hgs.mem_liveOn _ r).1 hr |>.1) t uri).bind fun _ _ _ => Succeeds.pure trivial
  unfold spread
  refine Succeeds.bind_of_run (HostM.run_relationsOn _ _) ?_
  -- with no peer relation nothing is copied; otherwise the first peer relation takes the copy
  cases hhead : (h.liveOn side.peers).head? with
  | none =>
    simp only
    exact hrest h hl hs rfl
  | some p =>
    simp only
    have hp := (hs.mem_of_head?_liveOn hhead).1
    obtain ⟨hl', hs', hv', -⟩ := remoteUpdate_keeps hs p h.ownApp
      (Databag.ofList [(endpointKey, uri), (secretKey, secret.getD "")])
    refine Succeeds.bind_of_run (by rw [HostM.run_updateApp, if_pos hl, if_pos hp]) ?_
    exact hrest _ (hl'.trans hl) hs' hv'

/-- A unit that is not the leader is refused a publication, after the grant of the secret. -/
theorem run_publish_of_follower (hl : h.leader = false) (hv : h.vault.WellFormed)
    (hsecret : ∀ id, secret = some id → (h.vault.get? id).isSome) (t : LeadershipToken)
    (r : Relation) (uri : String) :
    ∃ h₁, (publish t r uri secret).run.run h = (.error (.notLeader h.unit), h₁) ∧
      (h₁ = h ∨ ∃ id s, secret = some id ∧ h.vault.get? id = some s ∧ h₁ = granted h id s r) := by
  cases secret with
  | none =>
    refine ⟨h, ?_, .inl rfl⟩
    simp only [publish]
    exact HostM.run_updateApp_of_follower hl _ _ _
  | some id =>
    obtain ⟨s, hget⟩ := Option.isSome_iff_exists.1 (hsecret id rfl)
    refine ⟨granted h id s r, ?_, .inr ⟨id, s, rfl, hget, rfl⟩⟩
    simp only [publish]
    rw [run_bind_ok (run_grantSecret hv hget r)]
    exact HostM.run_updateApp_of_follower (show (granted h id s r).leader = false from hl) _ _ _

/-- Spreading a URI fails only for a unit that is not the leader, at its first write: the peer
copy, or else the first publication, after granting the secret to that relation. -/
theorem spread_error (hs : h.Sorted) (hv : h.vault.WellFormed)
    (hsecret : ∀ id, secret = some id → (h.vault.get? id).isSome) {e : Error} {h' : Host}
    (hrun : (side.spread t uri secret).run.run h = (.error e, h')) :
    h.leader = false ∧ (h' = h ∨
      ∃ id s r, secret = some id ∧ h.vault.get? id = some s ∧ h' = granted h id s r) := by
  cases hl : h.leader with
  | true =>
    obtain ⟨_, _, hok, -⟩ := spread_succeeds side t uri hl hs hv hsecret
    rw [hok] at hrun
    cases hrun
  | false =>
    refine ⟨rfl, ?_⟩
    unfold spread at hrun
    rw [run_bind_ok (HostM.run_relationsOn _ _)] at hrun
    cases hhead : (h.liveOn side.peers).head? with
    | some p =>
      -- the peer copy is refused
      simp only [hhead] at hrun
      rw [run_bind_error (HostM.run_updateApp_of_follower hl _ _ _)] at hrun
      exact .inl (Prod.mk.inj hrun).2.symm
    | none =>
      simp only [hhead] at hrun
      rw [run_bind_ok (HostM.run_relationsOn _ _)] at hrun
      cases hrs : h.liveOn side.endpoint with
      | nil =>
        rw [hrs, List.forIn_nil] at hrun
        cases hrun
      | cons r rs =>
        -- the first publication is refused, after its grant
        obtain ⟨h₁, hpub, hcases⟩ := run_publish_of_follower hl hv hsecret t r uri
        rw [hrs, List.forIn_cons, run_bind_error (run_bind_error (run_bind_error hpub _) _)]
          at hrun
        obtain rfl := (Prod.mk.inj hrun).2
        rcases hcases with rfl | ⟨id, s, hid, hget, rfl⟩
        · exact .inl rfl
        · exact .inr ⟨id, s, r, hid, hget, rfl⟩

/-- A refused publication of a record changes at most the provider's secret, to hold the
record's credentials, possibly granted to one relation; a record that fails validation changes
nothing. -/
theorem setInfo_error (hh : h.Reachable) (side : FilesystemProvides) (t : LeadershipToken)
    (i : FsInfo) {e : Error} {h' : Host} (hrun : (side.setInfo t i).run.run h = (.error e, h')) :
    h.SealedOnly infoSecretLabel i.secretContent h' ∧ (i.validate ≠ .ok () → h' = h) := by
  rw [setInfo_eq] at hrun
  -- an invalid record is refused before anything is written
  cases hvalid : i.validate with
  | error err =>
    have hthrow : (HostM.ofOutcome (.error err : Outcome Unit)).run.run h = (.error err, h) := rfl
    rw [hvalid, run_bind_error hthrow] at hrun
    obtain rfl := (Prod.mk.inj hrun).2
    exact ⟨.refl _ _ h, fun _ => rfl⟩
  | ok u =>
    -- a valid record is prepared, which seals its credentials, and then spread
    refine ⟨?_, fun hne => absurd rfl hne⟩
    rw [hvalid, run_bind_ok (HostM.run_ofOutcome_ok u h)] at hrun
    obtain ⟨⟨uri, secret⟩, h₁, hpub, hsealed, hwf₁, hsecret⟩ :=
      run_publication hh.vault_wellFormed hh.vault_numbered i
    rw [run_bind_ok hpub] at hrun
    have hs₁ : h₁.Sorted := by
      rw [hsealed.eq_vault]
      exact hh.sorted
    have hsecret₁ : ∀ id, secret = some id → (h₁.vault.get? id).isSome := fun id hid => by
      obtain ⟨-, -, s, -, hget, -⟩ := hsecret id hid
      rw [hget]
      rfl
    -- the spread fails at its first write: nothing more, or the grant before it
    rcases (spread_error hs₁ hwf₁ hsecret₁ hrun).2 with rfl | ⟨id, s, r, hid, hget, rfl⟩
    · exact hsealed
    · obtain ⟨ha, c, s', hc, hget', hl, hcontent⟩ := hsecret id hid
      obtain rfl := Option.some.inj (hget.symm.trans hget')
      rw [hc] at hsealed ⊢
      exact hsealed.grant ha hget hl hcontent r

end FilesystemProvides

/-- A refused answer to a share request changes at most the relation's secret, to hold the
credentials, granted to the relation. -/
theorem ShareProvides.setShare_error {h : Host} (hh : h.Reachable) (side : ShareProvides)
    (t : LeadershipToken) (r : Relation) (share : ShareInfo) (auth : AuthInfo) {e : Error}
    {h' : Host} (hrun : (side.setShare t r share auth).run.run h = (.error e, h')) :
    h.SealedOnly (authSecretLabel r) (some auth.toDatabag) h' := by
  unfold ShareProvides.setShare at hrun
  cases ha : h.secretsAvailable with
  | false =>
    rw [run_bind_ok (HostM.run_conceal_of_unavailable ha _ _)] at hrun
    obtain rfl := HostM.failsCleanly_updateApp _ _ _ h e h' hrun
    exact .refl _ _ _
  | true =>
    -- the credentials are sealed and granted before the write is refused
    have hv := hh.vault_wellFormed
    obtain ⟨hwf, s, hs, hl, hc⟩ := hv.ensure auth.toDatabag (authSecretLabel r)
    have hsealed := Host.SealedOnly.ensure ha hv hh.vault_numbered auth.toDatabag
      (authSecretLabel r)
    rw [run_bind_ok (HostM.run_conceal_of_available ha _ _)] at hrun
    simp only at hrun
    rw [run_bind_ok (FilesystemProvides.run_grantSecret hwf hs r)] at hrun
    obtain rfl := HostM.failsCleanly_updateApp _ _ _ _ e h' hrun
    exact hsealed.grant ha hs hl hc r

/-- A write on a relation interface that fails leaves every relation databag, status and queue
as it was. Asking for a share and sending mount information change nothing at all; publishing a
record or answering a share request may have resealed only the secret under their own label, to
hold the credentials being published, and granted it to a relation; a record that fails
validation changes nothing. -/
theorem failed_writes_touch_only_their_secret {h : Host} (hh : h.Reachable) :
    (∀ (side : ShareRequires) t r name e h',
      (side.requestShare t r name).run.run h = (.error e, h') → h' = h) ∧
    (∀ (side : MountRequires) t r info e h',
      (side.setMountInfo t r info).run.run h = (.error e, h') → h' = h) ∧
    (∀ (side : FilesystemProvides) t i e h', (side.setInfo t i).run.run h = (.error e, h') →
      h.SealedOnly infoSecretLabel i.secretContent h' ∧ (i.validate ≠ .ok () → h' = h)) ∧
    (∀ (side : ShareProvides) t r share auth e h',
      (side.setShare t r share auth).run.run h = (.error e, h') →
      h.SealedOnly (authSecretLabel r) (some auth.toDatabag) h') :=
  ⟨fun side t r name => side.requestShare_failsCleanly t r name h,
    fun side t r info => side.setMountInfo_failsCleanly t r info h,
    fun side t i _ _ hrun => FilesystemProvides.setInfo_error hh side t i hrun,
    fun side t r share auth _ _ hrun => ShareProvides.setShare_error hh side t r share auth hrun⟩

/-- On a host that is not the leader, has secrets and holds one share relation, the failed
writes leave what `failed_writes_touch_only_their_secret` says. -/
theorem failed_writes_touch_only_their_secret_follower :
    let h := HostOp.apply (.addRelation "cephfs-share" "cephfs-client") <|
      HostOp.apply (.setSecretsAvailable true) <| Host.new "proxy" "proxy/0"
    h.Reachable ∧
    (∀ (side : ShareRequires) t r name e h',
      (side.requestShare t r name).run.run h = (.error e, h') → h' = h) ∧
    (∀ (side : MountRequires) t r info e h',
      (side.setMountInfo t r info).run.run h = (.error e, h') → h' = h) ∧
    (∀ (side : FilesystemProvides) t i e h', (side.setInfo t i).run.run h = (.error e, h') →
      h.SealedOnly infoSecretLabel i.secretContent h' ∧ (i.validate ≠ .ok () → h' = h)) ∧
    (∀ (side : ShareProvides) t r share auth e h',
      (side.setShare t r share auth).run.run h = (.error e, h') →
      h.SealedOnly (authSecretLabel r) (some auth.toDatabag) h') := by
  intro h
  have hh : h.Reachable := .step _ (.step _ (.new _ _))
  exact ⟨hh, failed_writes_touch_only_their_secret hh⟩

/-- A follower with secrets answering a share request is refused, yet the credentials are left
behind: a secret labelled for the relation, which was not there, now holds them and is granted
to the relation. -/
theorem refused_share_answer_leaves_secret :
    let r : Relation := ⟨"cephfs-share", 0⟩
    let h := HostOp.apply (.addRelation "cephfs-share" "cephfs-client") <|
      HostOp.apply (.setSecretsAvailable true) <| Host.new "proxy" "proxy/0"
    let share : ShareInfo := ⟨"f1", "fs", "/", ["10.0.0.1"]⟩
    let auth : AuthInfo := ⟨"u", "k"⟩
    let run := (ShareProvides.setShare ⟨"cephfs-share"⟩ ⟨⟩ r share auth).run.run h
    run.1.isOk = false ∧ h.vault.get? "secret:harness-0" = none ∧
      (run.2.vault.get? "secret:harness-0").map (fun s => (s.label, s.content, s.grants)) =
        some ("auth-info-0", auth.toDatabag, [r]) := by
  decide

end ShareBroker
