import ShareBroker.Proofs.Interface.FailedWrites
import ShareBroker.Proofs.Interface.ShareRoundTrip
import ShareBroker.Proofs.Session.Invariant

/-!
# What the harness keeps of every unit it simulates

A session starts with one unit and then performs steps on its units: setting a unit up, running
its charm, an interface or a primitive of its host, or starting a unit on the other side of a
relation. Every host a session can hold is then a reachable host (`Host.Reachable`): a step
that sets the unit up is one of the host's operations, every other step keeps every invariant
of the host (`Site.perform_preserves`), and a unit on the other side is the mirror of a
reachable one.

Reachable hosts represent the harness's state faithfully (`Host.Represented`): no scope holds an
empty value; the secrets are keyed by `secret:harness-0` up to `secret:harness-(n-1)` and carry
distinct labels, so storing under a label in use replaces that secret's content while storing
under a new label takes an id no secret has; and every relation's id is below the count, so
adding a relation replaces none while the count fits in an id.

## Key results

- `Vault.WellFormed.ids_perm`: numbered secrets are keyed by the first ids handed out.
- `Host.Reachable.represented`: every reachable host is represented faithfully.
- `Session.Reachable.hosts`: every unit of a reachable session has a reachable host.
- `Session.hosts_represented`: every unit of every reachable session is represented faithfully.
-/

namespace ShareBroker

/-! ## Numbered secrets -/

namespace Vault

/-- The id the harness gives its `i`-th secret. -/
def harnessId (i : Nat) : String := "secret:harness-" ++ toString i

variable {v : Vault}

theorem WellFormed.ids_nodup (hv : v.WellFormed) : (v.entries.map (·.1)).Nodup :=
  List.pairwise_map.2 (hv.sorted.imp ne_of_lt)

/-- No two secrets share a label. -/
theorem WellFormed.labels_nodup (hv : v.WellFormed) : (v.entries.map (·.2.label)).Nodup := by
  refine List.Nodup.map_on (fun a ha b hb hab => ?_) (hv.ids_nodup.of_map _)
  -- secrets with one label have one id, and an id names one secret
  exact List.inj_on_of_nodup_map hv.ids_nodup ha hb (hv.labels a ha b hb hab)

/-- Numbered secrets are keyed by the first ids the harness hands out, each once. -/
theorem WellFormed.ids_perm (hv : v.WellFormed) (hn : v.Numbered) :
    (v.entries.map (·.1)).Perm ((List.range v.entries.length).map harnessId) := by
  have hsub : v.entries.map (·.1) ⊆ (List.range v.entries.length).map harnessId := by
    intro id hid
    obtain ⟨e, he, rfl⟩ := List.mem_map.1 hid
    obtain ⟨i, hi, hname⟩ := hn e he
    exact List.mem_map.2 ⟨i, List.mem_range.2 hi, hname.symm⟩
  -- as many ids as numbers, none twice, so every number is used
  exact (List.subperm_of_subset hv.ids_nodup hsub).perm_of_length_le (by simp)

/-- Storing under the label of a secret gives that secret's id and replaces its content. -/
theorem WellFormed.ensure_of_mem (hv : v.WellFormed) {id : String} {s : Secret}
    (hmem : (id, s) ∈ v.entries) (c : Databag) :
    v.ensure c s.label = (id, v.put id { s with content := c }) := by
  simp only [Vault.ensure, hv.lookup_of_mem hmem, hv.get?_of_mem hmem]

/-- Storing under a label no secret has makes a secret under the next id. -/
theorem ensure_of_fresh {label : String} (hfree : ∀ e ∈ v.entries, e.2.label ≠ label)
    (c : Databag) :
    v.ensure c label = (harnessId v.entries.length,
      v.put (harnessId v.entries.length) ⟨label, c, []⟩) := by
  have hnone : v.lookup label = none := by
    simp only [lookup, Option.map_eq_none_iff, List.find?_eq_none]
    intro e he
    simpa using hfree e he
  simp only [Vault.ensure, hnone]
  rfl

end Vault

/-! ## Reachable hosts -/

namespace Host

variable {h : Host}

/-- While the count fits in an id, adding a relation replaces none: the new one was unknown,
and every known one keeps its state. -/
theorem IdsBelow.addRelation_fresh (hh : h.IdsBelow) (hlt : h.nextId < 2 ^ 32)
    (endpoint app : String) :
    h.state? (h.addRelation endpoint app).1 = none ∧
      ∀ r st, h.state? r = some st → (h.addRelation endpoint app).2.state? r = some st := by
  have hnew := state?_addRelation_new hh hlt endpoint
  refine ⟨hnew, fun r st hst => ?_⟩
  rw [state?_addRelation, if_neg]
  · exact hst
  · rintro rfl
    rw [hnew] at hst
    cases hst

/-- What the harness keeps of a unit's host: no scope holds an empty value; the secrets are
keyed by the first ids handed out, carry distinct labels, and are stored under a label by
replacing the content of the secret with that label or by making one under the next id; and
every relation's id is below the count, so that a relation added replaces none while the count
fits in an id. -/
structure Represented (h : Host) : Prop where
  noEmpty : ∀ (r : Relation) (sc : Scope), (h.bag r sc).NoEmpty
  secretIds : (h.vault.entries.map (·.1)).Perm
    ((List.range h.vault.entries.length).map Vault.harnessId)
  labels : (h.vault.entries.map (·.2.label)).Nodup
  ensureExisting : ∀ {id : String} {s : Secret}, (id, s) ∈ h.vault.entries →
    h.secretsAvailable = true → ∀ c : Databag, (HostM.ensureSecret c s.label).run.run h =
      (.ok id, { h with vault := h.vault.put id { s with content := c } })
  ensureNew : ∀ {label : String}, (∀ e ∈ h.vault.entries, e.2.label ≠ label) →
    h.secretsAvailable = true → ∀ c : Databag,
      Vault.harnessId h.vault.entries.length ∉ h.vault.entries.map (·.1) ∧
      (HostM.ensureSecret c label).run.run h = (.ok (Vault.harnessId h.vault.entries.length),
        { h with vault := h.vault.put (Vault.harnessId h.vault.entries.length) ⟨label, c, []⟩ })
  idsBelow : h.IdsBelow
  addRelationNew : h.nextId < 2 ^ 32 → ∀ endpoint app : String,
    h.state? (h.addRelation endpoint app).1 = none ∧
      ∀ r st, h.state? r = some st → (h.addRelation endpoint app).2.state? r = some st

/-- Every host a unit can be in is represented faithfully. -/
theorem Reachable.represented (hr : h.Reachable) : h.Represented where
  noEmpty r sc := hr.wellFormed.bag r sc
  secretIds := hr.vault_wellFormed.ids_perm hr.vault_numbered
  labels := hr.vault_wellFormed.labels_nodup
  ensureExisting hmem ha c := by
    rw [HostM.run_ensureSecret_of_available ha, hr.vault_wellFormed.ensure_of_mem hmem]
  ensureNew hfree ha c := by
    refine ⟨fun hmem => ?_, ?_⟩
    · obtain ⟨e, he, hid⟩ := List.mem_map.1 hmem
      exact hr.vault_numbered.fresh e he hid
    · rw [HostM.run_ensureSecret_of_available ha, Vault.ensure_of_fresh hfree]
  idsBelow := hr.idsBelow
  addRelationNew hlt := hr.idsBelow.addRelation_fresh hlt

end Host

/-! ## Sessions -/

theorem Site.mentionLabel_host (s : Site) (label : String) :
    (s.mentionLabel label).host = s.host := by
  unfold Site.mentionLabel
  split_ifs <;> rfl

/-- Noticing what a step names leaves the host alone. -/
theorem Site.notice_host (s : Site) (st : Step) : (s.notice st).host = s.host := by
  unfold Site.notice
  split <;> split <;> simp only [Site.mentionLabel_host] <;> rfl

namespace Session

variable {ss ss' : Session}

theorem mem_put {name : String} {s : Site} {e : String × Site} (he : e ∈ (ss.put name s).sites) :
    e = (name, s) ∨ e ∈ ss.sites := by
  unfold put at he
  split at he
  · obtain ⟨e', he', rfl⟩ := List.mem_map.1 he
    split
    · exact .inl rfl
    · exact .inr he'
  · rcases List.mem_append.1 he with he | he
    · exact .inr he
    · exact .inl (List.mem_singleton.1 he)

theorem mem_of_site? {name : String} {s : Site} (h : ss.site? name = some s) :
    ∃ e ∈ ss.sites, e.2 = s := by
  obtain ⟨e, he, rfl⟩ := Option.map_eq_some_iff.1 h
  exact ⟨e, List.mem_of_find?_eq_some he, rfl⟩

/-- A step on a session whose units all have reachable hosts leaves a session whose units all
have reachable hosts, the unit it shows among them. -/
theorem step_hosts {on : String} {st : Step} {reply : Reply} {s : Site}
    (hss : ∀ e ∈ ss.sites, e.2.host.Reachable) (h : ss.step on st = some (reply, s, ss')) :
    s.host.Reachable ∧ ∀ e ∈ ss'.sites, e.2.host.Reachable := by
  unfold step at h
  obtain ⟨found, hfound, hstep⟩ := Option.map_eq_some_iff.1 h
  obtain ⟨e, he, rfl⟩ := mem_of_site? hfound
  have hn : (e.2.notice st).host.Reachable := (Site.notice_host e.2 st) ▸ hss e he
  split at hstep
  · -- a unit started on the other side of a relation of a reachable host
    cases hstep
    refine ⟨.mirror _ _ _ hn, fun e' he' => ?_⟩
    rcases mem_put he' with rfl | he'
    · exact .mirror _ _ _ hn
    rcases mem_put he' with rfl | he'
    · exact hn
    · exact hss e' he'
  · cases hstep
    have hp := Site.perform_of_apply (I := Host.Invariant.reachable)
      (fun op _ hh => .step op hh) st hn
    refine ⟨hp, fun e' he' => ?_⟩
    rcases mem_put he' with rfl | he'
    · exact hp
    · exact hss e' he'

/-- The sessions the harness can reach: a new one, then any step on any of its units. -/
inductive Reachable : Session → Prop
  | start (app unit : String) (charm : Option CharmKind) (machine : Executor) :
      (start app unit charm machine).Reachable
  | step {ss ss' : Session} {on : String} {st : Step} {reply : Reply} {s : Site} :
      ss.Reachable → ss.step on st = some (reply, s, ss') → ss'.Reachable

/-- Every unit of a reachable session has a reachable host. -/
theorem Reachable.hosts (hss : ss.Reachable) : ∀ e ∈ ss.sites, e.2.host.Reachable := by
  induction hss with
  | start app unit charm machine =>
    intro e he
    simp only [Session.start, List.mem_singleton] at he
    subst he
    exact .new app unit
  | step _ hstep ih => exact (step_hosts ih hstep).2

/-- The session after a step on the unit `on`; the same session when it has no such unit. -/
def after (ss : Session) (on : String) (st : Step) : Session :=
  match ss.step on st with
  | some (_, _, ss') => ss'
  | none => ss

/-- The session after steps on its units, one after another. -/
def afterAll (ss : Session) (steps : List (String × Step)) : Session :=
  steps.foldl (fun ss step => ss.after step.1 step.2) ss

theorem Reachable.after (hss : ss.Reachable) (on : String) (st : Step) :
    (ss.after on st).Reachable := by
  unfold Session.after
  split
  · rename_i hstep
    exact .step hss hstep
  · exact hss

theorem Reachable.afterAll (hss : ss.Reachable) (steps : List (String × Step)) :
    (ss.afterAll steps).Reachable := by
  induction steps generalizing ss with
  | nil => exact hss
  | cons step steps ih => exact ih (hss.after step.1 step.2)

/-- Every unit of every session the harness can reach is represented faithfully: no scope
holds an empty value, the secrets are keyed by the first ids handed out with distinct labels,
storing under a label in use replaces that secret's content and storing under a new label takes
an id no secret has, and every relation's id is below the count, so that adding a relation
replaces none while the count fits in an id. -/
theorem hosts_represented (hss : ss.Reachable) : ∀ e ∈ ss.sites, e.2.host.Represented :=
  fun e he => (hss.hosts e he).represented

/-- A unit with secrets is related to a client, stores under one label twice and under another
once, and a unit of the client is started on the other side: both hold the two secrets, the one
stored twice under the id it was first given. -/
theorem hosts_represented_after_mirror :
    let ss := (Session.start "fs" "fs/0" none {}).afterAll
      [("main", .setSecretsAvailable true), ("main", .addRelation "mount" "client"),
        ("main", .ensureSecret "auth" (Databag.ofList [("key", "a")])),
        ("main", .ensureSecret "auth" (Databag.ofList [("key", "b")])),
        ("main", .ensureSecret "other" (Databag.ofList [("key", "c")])),
        ("main", .mirror "client" "client" "client/0" ⟨"mount", 0⟩ none {})]
    ss.Reachable ∧ (∀ e ∈ ss.sites, e.2.host.Represented) ∧
      ss.sites.map (fun e => (e.1, e.2.host.vault.entries.map (·.1))) =
        [("main", ["secret:harness-0", "secret:harness-1"]),
          ("client", ["secret:harness-0", "secret:harness-1"])] := by
  intro ss
  have hss : ss.Reachable := (Reachable.start _ _ _ _).afterAll _
  exact ⟨hss, hosts_represented hss, by decide +kernel⟩

end Session

end ShareBroker
