import Mathlib.Data.List.TakeWhile
import Mathlib.Data.Nat.Digits.Defs
import ShareBroker.Event
import ShareBroker.Proofs.Filesystem.Uri

/-!
# Relation ids read back

A relation is written `endpoint:id`. `Relation.parse` accepts exactly the texts made of a
non-empty colon-free endpoint, a colon and a non-empty run of ASCII digits whose decimal value
fits 32 bits, and gives the relation those parts name. The written form of a relation is of
that kind exactly when its endpoint is non-empty and colon-free, so those relations, and only
those, read back from their written form.

The value of the digits is stated with `Nat.ofDigits` (`Relation.numeralValue`), not with the
fold the reader runs; `digitsValue_eq_numeralValue` ties the two.

## Key results

- `Relation.digitsValue_toDigits`: the decimal digits of a number read back as the number
- `Relation.parseChars_append`, `Relation.eq_append_of_parseChars`: the two halves of the grammar
- `Relation.parse_eq_ok_iff`: what `parse` accepts, and what it gives
- `Relation.parse_toString_iff`: which relations read back from their written form
-/

namespace ShareBroker

namespace Relation

/-! ## Decimal numerals -/

/-- The value of a decimal numeral, most significant digit first. -/
def numeralValue (d : String) : Nat :=
  Nat.ofDigits 10 (d.toList.reverse.map fun c => c.toNat - '0'.toNat)

/-- Reading digits from the left multiplies what was read before them by ten per digit. -/
theorem foldl_digits (acc : Nat) (ds : List Char) :
    ds.foldl (fun n d => 10 * n + (d.toNat - '0'.toNat)) acc =
      acc * 10 ^ ds.length + Nat.ofDigits 10 (ds.reverse.map fun c => c.toNat - '0'.toNat) := by
  induction ds generalizing acc with
  | nil => simp
  | cons c cs ih =>
    rw [List.foldl_cons, ih, List.reverse_cons, List.map_append, Nat.ofDigits_append]
    simp only [List.map_cons, List.map_nil, Nat.ofDigits_singleton, List.length_map,
      List.length_reverse, List.length_cons, pow_succ]
    ring

theorem digitsValue_eq_numeralValue (d : String) : digitsValue d.toList = numeralValue d := by
  simpa [digitsValue, numeralValue] using foldl_digits 0 d.toList

theorem digitsValue_append_digit (ds : List Char) (c : Char) :
    digitsValue (ds ++ [c]) = 10 * digitsValue ds + (c.toNat - '0'.toNat) := by
  simp [digitsValue, List.foldl_append]

/-- The decimal digits of a number read back as the number. -/
theorem digitsValue_toDigits (n : Nat) : digitsValue (Nat.toDigits 10 n) = n := by
  -- the digits of `n` are those of `n / 10` followed by the last one
  induction n using Nat.strongRecOn with
  | ind n ih =>
    rw [Nat.toDigits_eq_if (by decide)]
    split
    · have hlast := (Decimal.digitChar_value n (by omega)).2
      change 10 * 0 + ((Nat.digitChar n).toNat - '0'.toNat) = n
      omega
    · rw [digitsValue_append_digit, ih (n / 10) (by omega),
        (Decimal.digitChar_value (n % 10) (by omega)).2]
      omega

/-! ## The grammar -/

/-- A colon-free endpoint, a colon, and digits whose value fits 32 bits read as the relation
they name. -/
theorem parseChars_append {e ds : List Char} (he : e ≠ []) (hcolon : ':' ∉ e) (hds : ds ≠ [])
    (hdigits : ∀ c ∈ ds, c.isDigit = true) (hbound : digitsValue ds < 2 ^ 32) :
    parseChars (e ++ ':' :: ds) = .ok ⟨String.ofList e, (digitsValue ds).toUInt32⟩ := by
  have hname : ∀ c ∈ e, decide (c ≠ ':') = true := fun c hc =>
    decide_eq_true fun h => hcolon (h ▸ hc)
  have htake : (e ++ ':' :: ds).takeWhile (fun c => decide (c ≠ ':')) = e := by
    rw [List.takeWhile_append_of_pos hname]
    simp
  have hdrop : (e ++ ':' :: ds).dropWhile (fun c => decide (c ≠ ':')) = ':' :: ds := by
    rw [List.dropWhile_append_of_pos hname]
    simp
  have hdtake : ds.takeWhile Char.isDigit = ds := List.takeWhile_eq_self_iff.2 hdigits
  have hddrop : ds.dropWhile Char.isDigit = [] := List.dropWhile_eq_nil_iff.2 hdigits
  have hbound' : digitsValue ds < Nat.pow 2 32 := hbound
  unfold parseChars
  dsimp only
  rw [htake, hdrop, List.isEmpty_eq_false_iff.2 he]
  -- past the endpoint, the match takes the colon and the digits run to the end
  simp only [Bool.false_eq_true, if_false]
  rw [hdtake, hddrop, List.isEmpty_eq_false_iff.2 hds]
  simp only [Bool.false_eq_true, if_false, if_pos hbound', List.isEmpty_nil, if_true]

/-- What `parseChars` accepts is a colon-free endpoint, a colon, and digits whose value fits 32
bits, read as the relation they name. -/
theorem eq_append_of_parseChars {cs : List Char} {r : Relation} (h : parseChars cs = .ok r) :
    ∃ e ds, cs = e ++ ':' :: ds ∧ e ≠ [] ∧ ':' ∉ e ∧ ds ≠ [] ∧ (∀ c ∈ ds, c.isDigit = true) ∧
      digitsValue ds < 2 ^ 32 ∧ r = ⟨String.ofList e, (digitsValue ds).toUInt32⟩ := by
  unfold parseChars at h
  dsimp only at h
  split_ifs at h with hname
  split at h
  · rename_i afterSep hafter
    split_ifs at h with hds hbound hrest
    simp only [Except.ok.injEq] at h
    -- nothing follows the digits, so the text after the colon is all digits
    have hall := List.dropWhile_eq_nil_iff.1 (List.isEmpty_iff.1 hrest)
    have htake : afterSep.takeWhile Char.isDigit = afterSep := List.takeWhile_eq_self_iff.2 hall
    have hsplit := @List.takeWhile_append_dropWhile _ (fun c => decide (c ≠ ':')) cs
    rw [hafter] at hsplit
    refine ⟨cs.takeWhile (fun c => decide (c ≠ ':')), afterSep, hsplit.symm,
      by simpa using hname, fun hmem => ?_, ?_, hall, ?_, ?_⟩
    · have hne := List.mem_takeWhile_imp hmem
      simp at hne
    · simpa [htake] using hds
    · rw [htake] at hbound
      exact hbound
    · rw [← h, htake]
  · simp at h

/-- `parse` accepts exactly a non-empty colon-free endpoint, a colon and a non-empty run of
ASCII digits whose value fits 32 bits, and gives the relation of that endpoint and number. -/
theorem parse_eq_ok_iff (s : String) (r : Relation) :
    parse s = .ok r ↔ ∃ e d : String, s = e ++ ":" ++ d ∧ e ≠ "" ∧ ':' ∉ e.toList ∧ d ≠ "" ∧
      (∀ c ∈ d.toList, c.isDigit = true) ∧ numeralValue d < 2 ^ 32 ∧
      r = ⟨e, (numeralValue d).toUInt32⟩ := by
  constructor
  · intro h
    obtain ⟨e, ds, hcs, he, hcolon, hds, hdigits, hbound, rfl⟩ := eq_append_of_parseChars h
    refine ⟨String.ofList e, String.ofList ds, ?_, by simpa using he, by simpa using hcolon,
      by simpa using hds, by simpa using hdigits, ?_, ?_⟩
    · apply String.toList_inj.1
      simp [hcs]
    · rwa [← digitsValue_eq_numeralValue, String.toList_ofList]
    · rw [← digitsValue_eq_numeralValue, String.toList_ofList]
  · rintro ⟨e, d, rfl, he, hcolon, hd, hdigits, hbound, rfl⟩
    have hlist : (e ++ ":" ++ d).toList = e.toList ++ ':' :: d.toList := by simp
    rw [← digitsValue_eq_numeralValue] at hbound ⊢
    rw [parse, hlist, parseChars_append (by simpa using he) hcolon (by simpa using hd) hdigits
      hbound, String.ofList_toList]

/-! ## The written form -/

theorem toString_toList (r : Relation) :
    r.toString.toList = r.endpoint.toList ++ ':' :: Nat.toDigits 10 r.id.toNat := by
  simp [Relation.toString, Nat.toString_eq_repr, Nat.toList_repr]

/-- A relation reads back from its written form exactly when its endpoint is non-empty and
colon-free. -/
theorem parse_toString_iff (r : Relation) :
    parse r.toString = .ok r ↔ r.endpoint ≠ "" ∧ ':' ∉ r.endpoint.toList := by
  constructor
  · intro h
    obtain ⟨e, d, -, he, hcolon, -, -, -, hr⟩ := (parse_eq_ok_iff _ _).1 h
    rw [hr]
    exact ⟨he, hcolon⟩
  · rintro ⟨he, hcolon⟩
    -- the written id is the decimal digits of a number below `2 ^ 32`
    have hdigits : ∀ c ∈ Nat.toDigits 10 r.id.toNat, c.isDigit = true := fun c hc =>
      Nat.isDigit_of_mem_toDigits (by decide) (by decide) hc
    have hbound : digitsValue (Nat.toDigits 10 r.id.toNat) < 2 ^ 32 := by
      rw [digitsValue_toDigits]
      exact r.id.toNat_lt
    have hid : r.id.toNat.toUInt32 = r.id := UInt32.ofNat_toNat
    rw [parse, toString_toList, parseChars_append (by simpa using he) hcolon Nat.toDigits_ne_nil
      hdigits hbound, digitsValue_toDigits, String.ofList_toList, hid]

end Relation

end ShareBroker
