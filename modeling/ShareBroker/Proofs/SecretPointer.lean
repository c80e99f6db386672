import Mathlib.Data.List.TakeWhile
import ShareBroker.Proofs.Filesystem.Uri

/-!
# Secret pointers read back

`SecretRef.toString` writes a pointer and `SecretRef.parse` reads one. The two do not treat a
host secret's id alike: reading keeps the whole text, prefix included, as the id, while writing
adds the `secret:` prefix to an id that lacks it. So the round trip holds on the written form.
A host secret reads back with its id normalised to carry the prefix, and the one written form
with nothing after the prefix, `secret:`, is refused. An inline pointer reads back as its
databag.

## Key results

- `SecretRef.eq_append_of_splitKind`: the kind of a pointer is the colon-free text before its
  first colon
- `SecretRef.parse_toString_secret`: what a written host secret reads back as
- `SecretRef.eq_of_parse_secret`: a text read as a host secret is its own written form
- `SecretRef.pointers_read_back`: all of it, with the lenient reader
-/

namespace ShareBroker

namespace SecretRef

/-- A text split at its first colon is the colon-free part before it, the colon, and the part
after it. -/
theorem eq_append_of_splitKind {s kind data : String} (h : splitKind s = some (kind, data)) :
    s = kind ++ ":" ++ data ∧ ':' ∉ kind.toList := by
  dsimp only [splitKind] at h
  split at h
  · rename_i rest hdrop
    simp only [Option.some.injEq, Prod.mk.injEq] at h
    obtain ⟨rfl, rfl⟩ := h
    refine ⟨?_, fun hmem => ?_⟩
    · -- the text is the run before the first colon, then what the colon starts
      have hsplit := @List.takeWhile_append_dropWhile _ (fun c => decide (c ≠ ':')) s.toList
      rw [hdrop] at hsplit
      apply String.toList_inj.1
      simp only [String.toList_append, String.toList_ofList]
      simpa using hsplit.symm
    · have hne := List.mem_takeWhile_imp (by simpa using hmem)
      simp at hne
  · simp at h

/-- A written host secret is `secret:` and the rest of it. -/
theorem exists_toString_secret (x : String) : ∃ t, (secret x).toString = "secret:" ++ t := by
  by_cases h : x.startsWith "secret:" = true
  · obtain ⟨t, ht⟩ := String.startsWith_string_iff.1 h
    refine ⟨String.ofList t, ?_⟩
    simp only [SecretRef.toString, h, if_true]
    apply String.toList_inj.1
    simp only [String.toList_append, String.toList_ofList, ← ht]
  · exact ⟨x, by simp [SecretRef.toString, h]⟩

/-- A written host secret reads back as the host secret whose id is its written form, unless
nothing follows the prefix. -/
theorem parse_toString_secret (x : String) :
    parse (secret x).toString =
      if (secret x).toString = "secret:" then
        .error (.secret "unknown kind `secret` for secret reference")
      else .ok (.secret (secret x).toString) := by
  obtain ⟨t, ht⟩ := exists_toString_secret x
  rw [ht]
  by_cases hempty : t = ""
  · -- `secret:` alone is neither a host secret nor an inline pointer
    subst hempty
    have hsplit := splitKind_append "secret" (by decide) ""
    rw [show "secret" ++ ":" ++ "" = "secret:" by decide] at hsplit
    simp [parse, hsplit]
  · have hne : "secret:" ++ t ≠ "secret:" := fun heq => by
      have hlen := congrArg String.length heq
      simp only [String.length_append] at hlen
      exact hempty (String.length_eq_zero_iff.1 (by omega))
    rw [if_neg hne, parse_secret hempty]

/-- A text read as a host secret is kept whole as the id, and is the written form of it. -/
theorem eq_of_parse_secret {s y : String} (h : parse s = .ok (.secret y)) :
    y = s ∧ (secret y).toString = s := by
  unfold parse at h
  split at h
  · simp at h
  · rename_i kind data hsplit
    split_ifs at h with hsecret hplain
    · -- the host secret branch keeps the text, which starts with `secret:`
      simp only [Except.ok.injEq, secret.injEq] at h
      subst h
      obtain ⟨rfl, -⟩ := hsecret
      have hs := (eq_append_of_splitKind hsplit).1
      rw [show "secret" ++ ":" = "secret:" by decide] at hs
      refine ⟨rfl, ?_⟩
      rw [hs, toString_secret_prefixed]
    · split at h <;> simp at h

/-- The lenient reader gives what the strict one reads, and nothing for what it refuses. -/
theorem parseLenient_eq_some_iff (s : String) (r : SecretRef) :
    parseLenient s = some r ↔ parse s = .ok r := by
  unfold parseLenient
  cases parse s <;> simp

/-- Secret pointers read back through their written form. An inline pointer to a databag (held
in key order, as every databag is) reads back as itself. A host secret `x` is written as `n`,
the id with the `secret:` prefix added when it lacks it, and reads back as the host secret `n`,
except that `n = secret:` is refused. A text read as a host secret is its id, and is written
back as itself. The lenient reader answers exactly what the strict one accepts. -/
theorem pointers_read_back :
    (∀ c : Databag, parse (plain c).toString = .ok (.plain c)) ∧
    (∀ x : String,
      let n := if x.startsWith "secret:" then x else "secret:" ++ x
      (n ≠ "secret:" → parse (secret x).toString = .ok (.secret n)) ∧
      (n = "secret:" → ∃ e, parse (secret x).toString = .error e)) ∧
    (∀ s y : String, parse s = .ok (.secret y) → y = s ∧ (secret y).toString = s) ∧
    (∀ (s : String) (r : SecretRef), parseLenient s = some r ↔ parse s = .ok r) := by
  refine ⟨parse_plain, fun x => ?_, fun s y h => eq_of_parse_secret h,
    parseLenient_eq_some_iff⟩
  -- `n` is the written form of the host secret
  intro n
  change ((secret x).toString ≠ "secret:" →
      parse (secret x).toString = .ok (.secret (secret x).toString)) ∧
    ((secret x).toString = "secret:" → ∃ e, parse (secret x).toString = .error e)
  refine ⟨fun hne => ?_, fun heq => ?_⟩
  · rw [parse_toString_secret, if_neg hne]
  · rw [parse_toString_secret, if_pos heq]
    exact ⟨_, rfl⟩

/-- The credentials of a CephFS client read back inline; a bare id and an empty one are written
with the prefix, the first read back as that, the second refused. -/
theorem pointers_read_back_auth :
    parse (plain ⟨[("key", "AQAPdQ=="), ("username", "ceph-client")], by decide⟩).toString =
        .ok (.plain ⟨[("key", "AQAPdQ=="), ("username", "ceph-client")], by decide⟩) ∧
      parse (secret "cn4a0pcv").toString = .ok (.secret "secret:cn4a0pcv") ∧
      ∃ e, parse (secret "").toString = .error e := by
  have hid : (if "cn4a0pcv".startsWith "secret:" then "cn4a0pcv" else "secret:" ++ "cn4a0pcv") =
      "secret:cn4a0pcv" := by decide +kernel
  have hbare := (pointers_read_back.2.1 "cn4a0pcv").1 (by decide +kernel)
  rw [hid] at hbare
  exact ⟨pointers_read_back.1 _, hbare,
    (pointers_read_back.2.1 "").2 (by decide +kernel)⟩

end SecretRef

end ShareBroker
