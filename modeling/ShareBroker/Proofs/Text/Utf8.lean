import ShareBroker.Text.Utf8

/-!
# Reading back the bytes of a text

`Utf8.decodeLossy` reads any bytes, replacing each ill-formed part by U+FFFD. On the bytes of a
text nothing is ill-formed, and `Utf8.decodeLossy_encode` reads every text back as itself.

The proof has two sides. On the reading side, `decodeChars_two`, `decodeChars_three` and
`decodeChars_four` say what a well-formed sequence of each length reads as: the payload bits of
its bytes, put together. On the writing side, `decodeChars_utf8EncodeChar` checks that the
encoding of a character is such a sequence: its lead byte and its first continuation byte fall
in the ranges the table of the standard gives, because a character is a scalar value (no
surrogate, nothing past U+10FFFF), and its payload bits give the character back.
-/

namespace ShareBroker

namespace Utf8

/-! ## The bytes of a text -/

theorem toList_loop (bs : ByteArray) (i : Nat) (r : List UInt8) :
    ByteArray.toList.loop bs i r = r.reverse ++ bs.data.toList.drop i := by
  fun_induction ByteArray.toList.loop bs i r with
  | case1 i r hi ih =>
    rw [ih]
    have hi' : i < bs.data.toList.length := by simpa using hi
    simp [List.drop_eq_getElem_cons hi', ByteArray.get!, hi]
  | case2 i r hi =>
    have hlen : bs.data.toList.length ≤ i := by simpa using hi
    simp [List.drop_eq_nil_of_le hlen]

/-- The bytes of a text are the encodings of its characters, one after another. -/
theorem encode_eq_flatMap (s : String) : encode s = s.toList.flatMap String.utf8EncodeChar := by
  rw [encode, String.toUTF8_eq_toByteArray, ← String.utf8Encode_toList, List.utf8Encode,
    ByteArray.toList, toList_loop]
  simp

/-! ## Well-formed sequences -/

theorem inRange_iff (lo hi b : UInt8) :
    inRange lo hi b = true ↔ lo.toNat ≤ b.toNat ∧ b.toNat ≤ hi.toNat := by
  simp [inRange, UInt8.le_iff_toNat_le]

section Lead

variable {b : UInt8}

theorem lead_two (h₁ : 0xC2 ≤ b.toNat) (h₂ : b.toNat ≤ 0xDF) :
    lead b = some ((0x80, 0xBF), 1, b.toNat % 32) := by
  have hrange : inRange 0xC2 0xDF b = true := (inRange_iff _ _ _).2 ⟨h₁, h₂⟩
  simp only [lead, hrange, if_true, Option.some.injEq, Prod.mk.injEq, true_and]
  rw [UInt8.toNat_and]
  exact Nat.and_two_pow_sub_one_eq_mod b.toNat 5

/-- The range of the first continuation byte after the lead byte `b` of a three-byte sequence:
narrower after `E0` (no overlong form) and after `ED` (no surrogate). -/
def firstTail3 (b : Nat) : UInt8 × UInt8 :=
  if b = 0xE0 then (0xA0, 0xBF) else if b = 0xED then (0x80, 0x9F) else (0x80, 0xBF)

/-- The range of the first continuation byte after the lead byte `b` of a four-byte sequence:
narrower after `F0` (no overlong form) and after `F4` (nothing past U+10FFFF). -/
def firstTail4 (b : Nat) : UInt8 × UInt8 :=
  if b = 0xF0 then (0x90, 0xBF) else if b = 0xF4 then (0x80, 0x8F) else (0x80, 0xBF)

theorem lead_three (h₁ : 0xE0 ≤ b.toNat) (h₂ : b.toNat ≤ 0xEF) :
    lead b = some (firstTail3 b.toNat, 2, b.toNat % 16) := by
  have htwo : inRange 0xC2 0xDF b = false := by
    simp only [inRange, UInt8.le_iff_toNat_le]; simp; omega
  by_cases he0 : b.toNat = 0xE0
  · have hb : b = 0xE0 := UInt8.toNat_inj.1 he0
    subst hb
    rfl
  · by_cases hed : b.toNat = 0xED
    · have hb : b = 0xED := UInt8.toNat_inj.1 hed
      subst hb
      rfl
    · have hne0 : b ≠ 0xE0 := fun h => he0 (by simp [h])
      have hned : b ≠ 0xED := fun h => hed (by simp [h])
      have hrange : inRange 0xE1 0xEF b = true := (inRange_iff _ _ _).2 ⟨by simp; omega, h₂⟩
      simp only [lead, firstTail3, htwo, hne0, hned, hrange, he0, hed, if_true, if_false,
        Bool.false_eq_true, Option.some.injEq, Prod.mk.injEq, true_and]
      rw [UInt8.toNat_and]
      exact Nat.and_two_pow_sub_one_eq_mod b.toNat 4

theorem lead_four (h₁ : 0xF0 ≤ b.toNat) (h₂ : b.toNat ≤ 0xF4) :
    lead b = some (firstTail4 b.toNat, 3, b.toNat % 8) := by
  have htwo : inRange 0xC2 0xDF b = false := by
    simp only [inRange, UInt8.le_iff_toNat_le]; simp; omega
  have hthree : inRange 0xE1 0xEF b = false := by
    simp only [inRange, UInt8.le_iff_toNat_le]; simp; omega
  have hne0 : b ≠ 0xE0 := fun h => by simp [h] at h₁
  have hned : b ≠ 0xED := fun h => by simp [h] at h₁
  by_cases hf0 : b.toNat = 0xF0
  · have hb : b = 0xF0 := UInt8.toNat_inj.1 hf0
    subst hb
    rfl
  · by_cases hf4 : b.toNat = 0xF4
    · have hb : b = 0xF4 := UInt8.toNat_inj.1 hf4
      subst hb
      rfl
    · have hnf0 : b ≠ 0xF0 := fun h => hf0 (by simp [h])
      have hnf4 : b ≠ 0xF4 := fun h => hf4 (by simp [h])
      have hrange : inRange 0xF1 0xF3 b = true :=
        (inRange_iff _ _ _).2 ⟨by simp; omega, by simp; omega⟩
      simp only [lead, firstTail4, htwo, hthree, hne0, hned, hnf0, hnf4, hrange, hf0, hf4,
        if_true, if_false, Bool.false_eq_true, Option.some.injEq, Prod.mk.injEq, true_and]
      rw [UInt8.toNat_and]
      exact Nat.and_two_pow_sub_one_eq_mod b.toNat 3

end Lead

theorem continuation_zero (first : UInt8 × UInt8) (acc : Nat) (bs : List UInt8) (isFirst : Bool) :
    continuation first 0 acc bs isFirst = (some acc, bs) := by
  simp [continuation]

/-- The first continuation byte, in the range its lead byte allows, adds its six payload bits. -/
theorem continuation_first {first : UInt8 × UInt8} {b : UInt8}
    (hb : inRange first.1 first.2 b = true) (n acc : Nat) (bs : List UInt8) :
    continuation first (n + 1) acc (b :: bs) true =
      continuation first n (acc * 64 + b.toNat % 64) bs false := by
  have hmask : b.toNat &&& (63 : UInt8).toNat = b.toNat % 64 :=
    Nat.and_two_pow_sub_one_eq_mod b.toNat 6
  simp only [continuation, hb, if_true, UInt8.toNat_and, hmask]

theorem decodeChars_ascii {b : UInt8} (hb : b.toNat < 0x80) (fuel : Nat) (bs : List UInt8) :
    decodeChars (fuel + 1) (b :: bs) = Char.ofNat b.toNat :: decodeChars fuel bs := by
  have hlt : b < 0x80 := UInt8.lt_iff_toNat_lt.2 hb
  simp [decodeChars, hlt]

theorem decodeChars_lead {b : UInt8} (hb : 0x80 ≤ b.toNat) {first : UInt8 × UInt8} {n bits : Nat}
    (hl : lead b = some (first, n, bits)) {bs rest : List UInt8} {cp : Nat}
    (hc : continuation first n bits bs true = (some cp, rest)) (fuel : Nat) :
    decodeChars (fuel + 1) (b :: bs) = Char.ofNat cp :: decodeChars fuel rest := by
  have hlt : ¬ b < 0x80 := fun h => by have := UInt8.lt_iff_toNat_lt.1 h; simp at this; omega
  simp [decodeChars, hlt, hl, hc]

/-- A continuation byte: `80..BF`. -/
def IsTail (b : UInt8) : Prop := 0x80 ≤ b.toNat ∧ b.toNat ≤ 0xBF

/-- A later continuation byte adds its six payload bits. -/
theorem continuation_next (first : UInt8 × UInt8) {b : UInt8} (hb : IsTail b) (n acc : Nat)
    (bs : List UInt8) :
    continuation first (n + 1) acc (b :: bs) false =
      continuation first n (acc * 64 + b.toNat % 64) bs false := by
  have hrange : inRange 0x80 0xBF b = true := (inRange_iff _ _ _).2 hb
  have hmask : b.toNat &&& (63 : UInt8).toNat = b.toNat % 64 :=
    Nat.and_two_pow_sub_one_eq_mod b.toNat 6
  simp only [continuation, hrange, Bool.false_eq_true, if_false, if_true, UInt8.toNat_and, hmask]

theorem inRange_firstTail3 {b₀ b₁ : UInt8} (h₁ : IsTail b₁)
    (he0 : b₀.toNat = 0xE0 → 0xA0 ≤ b₁.toNat) (hed : b₀.toNat = 0xED → b₁.toNat ≤ 0x9F) :
    inRange (firstTail3 b₀.toNat).1 (firstTail3 b₀.toNat).2 b₁ = true := by
  rw [inRange_iff]
  unfold IsTail at h₁
  by_cases h : b₀.toNat = 0xE0
  · have := he0 h
    simp [firstTail3, h]
    omega
  · by_cases h' : b₀.toNat = 0xED
    · have := hed h'
      simp [firstTail3, h']
      omega
    · simpa [firstTail3, h, h'] using h₁

theorem inRange_firstTail4 {b₀ b₁ : UInt8} (h₁ : IsTail b₁)
    (hf0 : b₀.toNat = 0xF0 → 0x90 ≤ b₁.toNat) (hf4 : b₀.toNat = 0xF4 → b₁.toNat ≤ 0x8F) :
    inRange (firstTail4 b₀.toNat).1 (firstTail4 b₀.toNat).2 b₁ = true := by
  rw [inRange_iff]
  unfold IsTail at h₁
  by_cases h : b₀.toNat = 0xF0
  · have := hf0 h
    simp [firstTail4, h]
    omega
  · by_cases h' : b₀.toNat = 0xF4
    · have := hf4 h'
      simp [firstTail4, h']
      omega
    · simpa [firstTail4, h, h'] using h₁

section Sequences

variable {b₀ b₁ b₂ b₃ : UInt8} (fuel : Nat) (rest : List UInt8)

/-- `C2..DF` and a continuation byte read as one character. -/
theorem decodeChars_two (h₀ : 0xC2 ≤ b₀.toNat ∧ b₀.toNat ≤ 0xDF) (h₁ : IsTail b₁) :
    decodeChars (fuel + 1) (b₀ :: b₁ :: rest) =
      Char.ofNat (b₀.toNat % 32 * 64 + b₁.toNat % 64) :: decodeChars fuel rest := by
  refine decodeChars_lead (by omega) (lead_two h₀.1 h₀.2) ?_ fuel
  rw [@continuation_first (0x80, 0xBF) b₁ ((inRange_iff _ _ _).2 h₁), continuation_zero]

/-- `E0..EF` and two continuation bytes, the first above `9F` after `E0` and below `A0` after
`ED`, read as one character. -/
theorem decodeChars_three (h₀ : 0xE0 ≤ b₀.toNat ∧ b₀.toNat ≤ 0xEF) (h₁ : IsTail b₁)
    (he0 : b₀.toNat = 0xE0 → 0xA0 ≤ b₁.toNat) (hed : b₀.toNat = 0xED → b₁.toNat ≤ 0x9F)
    (h₂ : IsTail b₂) :
    decodeChars (fuel + 1) (b₀ :: b₁ :: b₂ :: rest) =
      Char.ofNat ((b₀.toNat % 16 * 64 + b₁.toNat % 64) * 64 + b₂.toNat % 64) ::
        decodeChars fuel rest := by
  refine decodeChars_lead (by omega) (lead_three h₀.1 h₀.2) ?_ fuel
  rw [continuation_first (inRange_firstTail3 h₁ he0 hed), continuation_next _ h₂,
    continuation_zero]

/-- `F0..F4` and three continuation bytes, the first above `8F` after `F0` and below `90`
after `F4`, read as one character. -/
theorem decodeChars_four (h₀ : 0xF0 ≤ b₀.toNat ∧ b₀.toNat ≤ 0xF4) (h₁ : IsTail b₁)
    (hf0 : b₀.toNat = 0xF0 → 0x90 ≤ b₁.toNat) (hf4 : b₀.toNat = 0xF4 → b₁.toNat ≤ 0x8F)
    (h₂ : IsTail b₂) (h₃ : IsTail b₃) :
    decodeChars (fuel + 1) (b₀ :: b₁ :: b₂ :: b₃ :: rest) =
      Char.ofNat (((b₀.toNat % 8 * 64 + b₁.toNat % 64) * 64 + b₂.toNat % 64) * 64 +
        b₃.toNat % 64) :: decodeChars fuel rest := by
  refine decodeChars_lead (by omega) (lead_four h₀.1 h₀.2) ?_ fuel
  rw [continuation_first (inRange_firstTail4 h₁ hf0 hf4), continuation_next _ h₂,
    continuation_next _ h₃, continuation_zero]

end Sequences

/-! ## Encoded characters -/

/-- The encoding of a character reads back as that character. -/
theorem decodeChars_utf8EncodeChar (c : Char) (fuel : Nat) (rest : List UInt8) :
    decodeChars (fuel + 1) (String.utf8EncodeChar c ++ rest) = c :: decodeChars fuel rest := by
  -- a character is a scalar value: below the surrogates, or above them and below 0x110000
  have hvalid : c.toNat < 0xD800 ∨ (0xDFFF < c.toNat ∧ c.toNat < 0x110000) := c.valid
  have hv : c.val.toNat = c.toNat := rfl
  have hchar : ∀ n, n = c.toNat → Char.ofNat n = c := fun n h => h ▸ Char.ofNat_toNat c
  simp only [String.utf8EncodeChar, hv]
  by_cases h₁ : c.toNat ≤ 0x7f
  · -- one byte
    rw [if_pos h₁]
    refine (decodeChars_ascii ?_ fuel rest).trans (congrArg (· :: _) (hchar _ ?_)) <;>
      simp only [UInt8.toNat_ofNat', Nat.reducePow] <;> omega
  rw [if_neg h₁]
  by_cases h₂ : c.toNat ≤ 0x7ff
  · -- two bytes
    rw [if_pos h₂]
    refine (decodeChars_two fuel rest ?_ ?_).trans (congrArg (· :: _) (hchar _ ?_)) <;>
      simp only [IsTail, UInt8.toNat_ofNat', Nat.reducePow] <;> omega
  rw [if_neg h₂]
  by_cases h₃ : c.toNat ≤ 0xffff
  · -- three bytes: the lead `E0` only above U+07FF, `ED` only below the surrogates
    rw [if_pos h₃]
    refine (decodeChars_three fuel rest ?_ ?_ ?_ ?_ ?_).trans (congrArg (· :: _) (hchar _ ?_)) <;>
      simp only [IsTail, UInt8.toNat_ofNat', Nat.reducePow] <;> omega
  · -- four bytes: the lead `F0` only above U+FFFF, `F4` only up to U+10FFFF
    rw [if_neg h₃]
    refine (decodeChars_four fuel rest ?_ ?_ ?_ ?_ ?_ ?_).trans
      (congrArg (· :: _) (hchar _ ?_)) <;>
      simp only [IsTail, UInt8.toNat_ofNat', Nat.reducePow] <;> omega

/-- The encodings of characters, one after another, read back as those characters, given at
least one step of fuel per character. -/
theorem decodeChars_flatMap (cs : List Char) (fuel : Nat) (hfuel : cs.length < fuel) :
    decodeChars fuel (cs.flatMap String.utf8EncodeChar) = cs := by
  induction cs generalizing fuel with
  | nil =>
    obtain ⟨fuel, rfl⟩ : ∃ k, fuel = k + 1 := ⟨fuel - 1, by simp at hfuel; omega⟩
    simp [decodeChars]
  | cons c cs ih =>
    obtain ⟨fuel, rfl⟩ : ∃ k, fuel = k + 1 := ⟨fuel - 1, by simp at hfuel; omega⟩
    rw [List.flatMap_cons, decodeChars_utf8EncodeChar, ih fuel (by simp at hfuel; omega)]

theorem length_le_flatMap_utf8EncodeChar (cs : List Char) :
    cs.length ≤ (cs.flatMap String.utf8EncodeChar).length := by
  induction cs with
  | nil => simp
  | cons c cs ih =>
    have hpos : 0 < (String.utf8EncodeChar c).length :=
      List.length_pos_iff.2 String.utf8EncodeChar_ne_nil
    simp only [List.flatMap_cons, List.length_append, List.length_cons]
    omega

/-- The bytes of a text read back as the text. -/
theorem decodeLossy_encode (s : String) : decodeLossy (encode s) = s := by
  rw [decodeLossy, encode_eq_flatMap,
    decodeChars_flatMap _ _ (Nat.lt_succ_of_le (length_le_flatMap_utf8EncodeChar _)),
    String.ofList_toList]

end Utf8

end ShareBroker
