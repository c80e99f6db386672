import ShareBroker.Proofs.Text.Utf8
import ShareBroker.Text.FormCoding
import Mathlib.Tactic.SplitIfs

/-!
# Reading back a written query

`FormCoding.decodePairs (FormCoding.encodePairs pairs) = pairs`: a query read back gives the
pairs it was written from, in order, whatever the names and values (`decodePairs_encodePairs`).

A name or value is written byte by byte from its UTF-8 form (`written`), and every written
byte is ASCII and neither `&` nor `=`. So the query splits at `&` into exactly the written
pairs, each splits at its first `=` into its name and its value, reading undoes each byte's
escape (`unescape_written`), and the UTF-8 bytes read back as the text
(`Utf8.decodeLossy_encode`).
-/

namespace ShareBroker

namespace FormCoding

/-! ## ASCII text -/

theorem toNat_ofNat_of_lt {n : Nat} (h : n < 0xD800) : (Char.ofNat n).toNat = n := by
  have hvalid : n.isValidChar := Or.inl h
  rw [Char.ofNat, dif_pos hvalid]
  rfl

/-- An ASCII character is written as its one byte. -/
theorem utf8EncodeChar_of_lt {ch : Char} (h : ch.toNat < 0x80) :
    String.utf8EncodeChar ch = [ch.toNat.toUInt8] := by
  have hval : ch.val.toNat < 0x80 := h
  have hsize : ch.utf8Size = 1 :=
    Char.utf8Size_eq_one_iff.2 (UInt32.le_iff_toNat_le.2 (by show ch.val.toNat ≤ 127; omega))
  rw [String.utf8EncodeChar_eq_singleton hsize]
  rfl

/-- The bytes of an ASCII text are its characters' codes. -/
theorem encode_ofList_of_lt {cs : List Char} (h : ∀ ch ∈ cs, ch.toNat < 0x80) :
    Utf8.encode (String.ofList cs) = cs.map (·.toNat.toUInt8) := by
  rw [Utf8.encode_eq_flatMap, String.toList_ofList]
  induction cs with
  | nil => rfl
  | cons ch cs ih =>
    rw [List.flatMap_cons, utf8EncodeChar_of_lt (h ch List.mem_cons_self),
      ih fun c hc => h c (List.mem_cons_of_mem _ hc)]
    rfl

theorem encode_append (s t : String) : Utf8.encode (s ++ t) = Utf8.encode s ++ Utf8.encode t := by
  simp [Utf8.encode_eq_flatMap, String.toList_append]

/-- The bytes of texts joined by a separator are their bytes joined by the separator's. -/
theorem encode_intercalate (sep : String) (ts : List String) :
    Utf8.encode (sep.intercalate ts) = (Utf8.encode sep).intercalate (ts.map Utf8.encode) := by
  induction ts with
  | nil => simp [Utf8.encode_eq_flatMap]
  | cons t ts ih =>
    cases ts with
    | nil => simp
    | cons u ts =>
      simp only [String.intercalate_cons_cons, encode_append, ih, List.map_cons,
        List.intercalate_cons_cons, List.append_assoc]

/-! ## One byte -/

/-- The bytes a byte is written as. -/
def written (b : UInt8) : List UInt8 := (encodeByte b).map (·.toNat.toUInt8)

/-- The hex digits, read back. -/
theorem hexValue_hexDigit : ∀ n, n < 16 → hexValue (hexDigit n).toNat.toUInt8 = some n := by
  decide

/-- The hex digits are ASCII, and neither `&` nor `=`. -/
theorem hexDigit_ascii : ∀ n, n < 16 →
    (hexDigit n).toNat < 0x80 ∧ (hexDigit n).toNat.toUInt8 ≠ 0x26 ∧
      (hexDigit n).toNat.toUInt8 ≠ 0x3D := by
  decide

/-- A byte that stands for itself is ASCII, and none of `%`, `&`, `+` or `=`. -/
theorem unreserved_spec {b : UInt8} (hu : unreserved b = true) :
    b.toNat < 0x80 ∧ b ≠ 0x25 ∧ b ≠ 0x26 ∧ b ≠ 0x2B ∧ b ≠ 0x3D := by
  refine ⟨?_, ?_, ?_, ?_, ?_⟩
  · have hlt : b < 0x80 := by simp [unreserved] at hu; exact hu.1
    exact UInt8.lt_iff_toNat_lt.1 hlt
  all_goals
    rintro rfl
    exact absurd hu (by decide)

/-- What a byte is written as, case by case. -/
theorem written_eq (b : UInt8) :
    written b =
      if b = 0x20 then [0x2B]
      else if unreserved b then [b]
      else [0x25, (hexDigit (b.toNat / 16)).toNat.toUInt8, (hexDigit (b.toNat % 16)).toNat.toUInt8] := by
  unfold written encodeByte
  split_ifs with hsp hu
  · rfl
  · have hlt := (unreserved_spec hu).1
    simp [toNat_ofNat_of_lt (n := b.toNat) (by omega)]
  · rfl

theorem toNat_lt_of_mem_encodeByte {b : UInt8} {ch : Char} (h : ch ∈ encodeByte b) :
    ch.toNat < 0x80 := by
  unfold encodeByte at h
  split_ifs at h with hsp hu
  · simp at h; subst h; decide
  · simp at h; subst h
    have hlt := (unreserved_spec hu).1
    rw [toNat_ofNat_of_lt (by omega)]
    exact hlt
  · have hb := b.toNat_lt
    simp only [List.mem_cons, List.not_mem_nil, or_false] at h
    rcases h with rfl | rfl | rfl
    · decide
    · exact (hexDigit_ascii _ (by omega)).1
    · exact (hexDigit_ascii _ (by omega)).1

/-- No byte is written with `&` or `=`. -/
theorem separators_not_mem_written (b : UInt8) : 0x26 ∉ written b ∧ 0x3D ∉ written b := by
  rw [written_eq]
  split_ifs with hsp hu
  · decide
  · obtain ⟨-, -, h26, -, h3D⟩ := unreserved_spec hu
    simp [Ne.symm h26, Ne.symm h3D]
  · have hb := b.toNat_lt
    have hi := hexDigit_ascii (b.toNat / 16) (by omega)
    have hj := hexDigit_ascii (b.toNat % 16) (by omega)
    simp [Ne.symm hi.2.1, Ne.symm hi.2.2, Ne.symm hj.2.1, Ne.symm hj.2.2]

/-! ## Reading escapes -/

theorem unescape_cons_of_ne {b : UInt8} (hb : b ≠ 0x25) (rest : List UInt8) :
    unescape (b :: rest) = (if b = 0x2B then 0x20 else b) :: unescape rest := by
  match rest with
  | [] => simp [unescape]
  | [x] => simp [unescape]
  | h :: l :: more => simp [unescape, hb]

theorem unescape_percent {h l : UInt8} {x y : Nat} (hx : hexValue h = some x)
    (hy : hexValue l = some y) (more : List UInt8) :
    unescape (0x25 :: h :: l :: more) = (16 * x + y).toUInt8 :: unescape more := by
  simp [unescape, hx, hy]

/-- Reading undoes the escape of one byte. -/
theorem unescape_written (b : UInt8) (rest : List UInt8) :
    unescape (written b ++ rest) = b :: unescape rest := by
  rw [written_eq]
  split_ifs with hsp hu
  · -- a space is written `+`
    subst hsp
    rw [List.singleton_append, unescape_cons_of_ne (by decide), if_pos rfl]
  · -- a byte that stands for itself
    obtain ⟨-, h25, -, h2B, -⟩ := unreserved_spec hu
    rw [List.singleton_append, unescape_cons_of_ne h25, if_neg h2B]
  · -- `%` and the two hex digits of the byte
    have hb := b.toNat_lt
    simp only [List.cons_append, List.nil_append]
    rw [unescape_percent (hexValue_hexDigit _ (by omega)) (hexValue_hexDigit _ (by omega))]
    congr 1
    apply UInt8.toNat_inj.1
    simp only [Nat.toUInt8_eq, UInt8.toNat_ofNat']
    omega

theorem unescape_flatMap_written (bs : List UInt8) : unescape (bs.flatMap written) = bs := by
  induction bs with
  | nil => rfl
  | cons b bs ih => rw [List.flatMap_cons, unescape_written, ih]

/-! ## Names and values -/

/-- The bytes of the written form of a text: its UTF-8 bytes, each written. -/
theorem encode_encode (s : String) : Utf8.encode (encode s) = (Utf8.encode s).flatMap written := by
  rw [encode, encode_ofList_of_lt fun ch hch => ?_, List.map_flatMap]
  · rfl
  · obtain ⟨b, -, hb⟩ := List.mem_flatMap.1 hch
    exact toNat_lt_of_mem_encodeByte hb

theorem separators_not_mem_encode (s : String) :
    0x26 ∉ Utf8.encode (encode s) ∧ 0x3D ∉ Utf8.encode (encode s) := by
  rw [encode_encode]
  constructor <;> intro hmem <;> obtain ⟨b, -, hb⟩ := List.mem_flatMap.1 hmem
  · exact (separators_not_mem_written b).1 hb
  · exact (separators_not_mem_written b).2 hb

/-- A name or value reads back as itself. -/
theorem decode_encode (s : String) : decode (Utf8.encode (encode s)) = s := by
  rw [decode, encode_encode, unescape_flatMap_written, Utf8.decodeLossy_encode]

/-! ## Queries -/

/-- The bytes of one written pair. -/
theorem encode_pair (p : String × String) :
    Utf8.encode (encode p.1 ++ "=" ++ encode p.2) =
      Utf8.encode (encode p.1) ++ 0x3D :: Utf8.encode (encode p.2) := by
  have heq : Utf8.encode "=" = [0x3D] := by rw [Utf8.encode_eq_flatMap]; decide
  rw [encode_append, encode_append, heq, List.append_assoc, List.singleton_append]

/-- A written pair splits at its first `=` into its name and its value. -/
theorem takeWhile_dropWhile_pair (k v : List UInt8) (hk : 0x3D ∉ k) :
    (k ++ 0x3D :: v).takeWhile (· ≠ 0x3D) = k ∧ ((k ++ 0x3D :: v).dropWhile (· ≠ 0x3D)).drop 1 = v := by
  have hpos : ∀ a ∈ k, decide (a ≠ 0x3D) = true := fun a ha =>
    decide_eq_true fun h => hk (h ▸ ha)
  rw [List.takeWhile_append_of_pos hpos, List.dropWhile_append_of_pos hpos]
  simp

/-- The bytes of one written pair: name, `=`, value. -/
def pairBytes (p : String × String) : List UInt8 :=
  Utf8.encode (encode p.1) ++ 0x3D :: Utf8.encode (encode p.2)

/-- A written query is its pairs' bytes joined by `&`. -/
theorem encode_encodePairs (pairs : List (String × String)) :
    Utf8.encode (encodePairs pairs) = [0x26].intercalate (pairs.map pairBytes) := by
  rw [encodePairs, encode_intercalate, List.map_map]
  congr 1
  · rw [Utf8.encode_eq_flatMap]
    decide
  · exact List.map_congr_left fun p _ => encode_pair p

theorem ampersand_not_mem_pairBytes (p : String × String) : 0x26 ∉ pairBytes p := by
  intro hmem
  rcases List.mem_append.1 hmem with h | h
  · exact (separators_not_mem_encode p.1).1 h
  · rcases List.mem_cons.1 h with h | h
    · exact absurd h (by decide)
    · exact (separators_not_mem_encode p.2).1 h

/-- The bytes of a written pair read back as the pair. -/
theorem decode_pairBytes (p : String × String) :
    (decode ((pairBytes p).takeWhile (· ≠ 0x3D)),
      decode (((pairBytes p).dropWhile (· ≠ 0x3D)).drop 1)) = p := by
  obtain ⟨htake, hdrop⟩ := takeWhile_dropWhile_pair (Utf8.encode (encode p.1))
    (Utf8.encode (encode p.2)) (separators_not_mem_encode p.1).2
  simp only [pairBytes, htake, hdrop, decode_encode]

/-- A query read back gives the pairs it was written from, in order. -/
theorem decodePairs_encodePairs (pairs : List (String × String)) :
    decodePairs (encodePairs pairs) = pairs := by
  cases pairs with
  | nil => simp [decodePairs, encode_encodePairs, splitBytes]
  | cons p ps =>
    -- no written pair holds `&`, so splitting at `&` gives the pairs back
    have hsplit : splitBytes 0x26 (Utf8.encode (encodePairs (p :: ps))) =
        (p :: ps).map pairBytes := by
      rw [splitBytes, encode_encodePairs, List.splitOn_intercalate _ (fun l hl => by
        obtain ⟨q, -, rfl⟩ := List.mem_map.1 hl
        exact ampersand_not_mem_pairBytes q) (by simp)]
    -- every piece holds `=`, so none is dropped as empty
    have hkeep : ((p :: ps).map pairBytes).filter (fun l => !l.isEmpty) =
        (p :: ps).map pairBytes :=
      List.filter_eq_self.2 fun l hl => by
        obtain ⟨q, -, rfl⟩ := List.mem_map.1 hl
        simp [pairBytes]
    simp only [decodePairs, hsplit, hkeep, List.map_map]
    conv => rhs; rw [← List.map_id (p :: ps)]
    exact List.map_congr_left fun q _ => decode_pairBytes q

end FormCoding

end ShareBroker
