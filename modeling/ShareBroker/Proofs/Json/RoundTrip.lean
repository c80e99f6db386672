import ShareBroker.Proofs.Json.Record
import ShareBroker.Proofs.RelationId

/-!
# Values read back from their text

`Json.write` writes a value as compact text and `Json.read` reads text back, with objects
sorted by key. The values that text holds as written (`Json.Plain`: no doubles, integers of a
64-bit word, objects with distinct keys in order) read back as themselves exactly when their
containers nest fewer than 128 deep: the reader refuses to open a 128th container.

The proof follows the reader along the written text, one lemma per kind of token, as for
objects of strings (`readStringMap_toText`):

* `Reader.run_value_keyword`, `Reader.run_value_nat`, `Reader.run_value_neg`: the scalars;
* `Reader.run_items_write`, `Reader.run_members_write`: the items of an array and the
  members of an object, each read by what is known of its own value (`Json.ReadsBack`);
* `Json.readsBack_obj`: an object, whatever the order of its keys;
* `Json.Plain.readsBack`: every plain value, by induction on it;
* `Json.ReadsBack.read_write`: a value read back as written comes out sorted;
* `Json.Plain.read_write_eq_ok_iff`: the round trip, and the depth at which it stops.
-/

namespace ShareBroker

namespace Json

/-! ## Nesting -/

mutual

/-- How deeply containers nest in a value: none in a scalar, and one more in an array or an
object than in its deepest item or field (one in an empty one). -/
def depth : Json → Nat
  | .arr xs => depthItems xs + 1
  | .obj fs => depthFields fs + 1
  | _ => 0

/-- The deepest nesting among array items. -/
def depthItems : List Json → Nat
  | [] => 0
  | x :: xs => max (depth x) (depthItems xs)

/-- The deepest nesting among field values. -/
def depthFields : List (String × Json) → Nat
  | [] => 0
  | (_, v) :: fs => max (depth v) (depthFields fs)

end

theorem depth_le_depthItems {x : Json} {xs : List Json} (hx : x ∈ xs) :
    x.depth ≤ depthItems xs := by
  induction xs with
  | nil => simp at hx
  | cons y ys ih =>
    rcases List.mem_cons.1 hx with rfl | hx
    · simp [depthItems]
    · have := ih hx
      simp only [depthItems]
      omega

theorem depth_le_depthFields {kv : String × Json} {fs : List (String × Json)} (hkv : kv ∈ fs) :
    kv.2.depth ≤ depthFields fs := by
  induction fs with
  | nil => simp at hkv
  | cons p ps ih =>
    obtain ⟨k, v⟩ := p
    rcases List.mem_cons.1 hkv with rfl | hkv
    · simp [depthFields]
    · have := ih hkv
      simp only [depthFields]
      omega

/-- The deepest item of an array with items. -/
theorem exists_depthItems {xs : List Json} (h : xs ≠ []) :
    ∃ x ∈ xs, x.depth = depthItems xs := by
  induction xs with
  | nil => exact absurd rfl h
  | cons y ys ih =>
    by_cases hys : ys = []
    · subst hys
      exact ⟨y, List.mem_cons_self, by simp [depthItems]⟩
    · obtain ⟨x, hx, hdx⟩ := ih hys
      by_cases hle : y.depth ≤ depthItems ys
      · exact ⟨x, List.mem_cons_of_mem _ hx, by simp only [depthItems]; omega⟩
      · exact ⟨y, List.mem_cons_self, by simp only [depthItems]; omega⟩

/-- The deepest field of an object with fields. -/
theorem exists_depthFields {fs : List (String × Json)} (h : fs ≠ []) :
    ∃ kv ∈ fs, kv.2.depth = depthFields fs := by
  induction fs with
  | nil => exact absurd rfl h
  | cons p ps ih =>
    obtain ⟨k, v⟩ := p
    by_cases hps : ps = []
    · subst hps
      exact ⟨(k, v), List.mem_cons_self, by simp [depthFields]⟩
    · obtain ⟨kv, hkv, hdkv⟩ := ih hps
      by_cases hle : v.depth ≤ depthFields ps
      · exact ⟨kv, List.mem_cons_of_mem _ hkv, by simp only [depthFields]; omega⟩
      · exact ⟨(k, v), List.mem_cons_self, by simp only [depthFields]; omega⟩

/-! ## Plain values -/

/-- The values that JSON text holds as they are written: no doubles, integers of a 64-bit word
(signed or unsigned), and objects whose keys are distinct and in order, as a sorted map holds
them. -/
inductive Plain : Json → Prop
  | null : Plain .null
  | bool (b : Bool) : Plain (.bool b)
  | int (i : Int) (hlo : -((Nat.pow 2 63 : Nat) : Int) ≤ i) (hhi : i < ((Nat.pow 2 64 : Nat) : Int)) :
      Plain (.num (.int i))
  | str (s : String) : Plain (.str s)
  | arr (xs : List Json) (h : ∀ x ∈ xs, Plain x) : Plain (.arr xs)
  | obj (fs : List (String × Json)) (hkeys : fs.Pairwise (fun a b => a.1 < b.1))
      (h : ∀ kv ∈ fs, Plain kv.2) : Plain (.obj fs)

/-! ## Decimal digits -/

/-- The fold by which the reader takes the value of a run of digits after `n`. -/
def digitsFold (n : Nat) (ds : List Char) : Nat :=
  ds.foldl (fun n d => 10 * n + (d.toNat - '0'.toNat)) n

theorem digit_sub_le {ch : Char} (h : ch.isDigit = true) : ch.toNat - '0'.toNat ≤ 9 := by
  simp [Char.isDigit, UInt32.le_iff_toNat_le] at h
  have : '0'.toNat = 48 := rfl
  omega

theorem le_digitsFold (ds : List Char) (n : Nat) : n ≤ digitsFold n ds := by
  induction ds generalizing n with
  | nil => simp [digitsFold]
  | cons d ds ih =>
    have := ih (10 * n + (d.toNat - '0'.toNat))
    simp only [digitsFold, List.foldl_cons] at this ⊢
    omega

theorem digitsFold_toDigits (n : Nat) : digitsFold 0 (Nat.toDigits 10 n) = n :=
  Relation.digitsValue_toDigits n

/-- The decimal digits of a number start with `0` only for zero. -/
theorem exists_toDigits_cons (n : Nat) :
    ∃ d ds, Nat.toDigits 10 n = d :: ds ∧ (d = '0' → n = 0) := by
  induction n using Nat.strongRecOn with
  | ind n ih =>
    rw [Nat.toDigits_eq_if (by decide)]
    split
    · exact ⟨_, [], rfl, fun h => Nat.digitChar_eq_zero.1 h⟩
    · obtain ⟨d, ds, hds, hd⟩ := ih (n / 10) (by omega)
      exact ⟨d, ds ++ [Nat.digitChar (n % 10)], by rw [hds]; rfl, fun h => by have := hd h; omega⟩

/-- A digit is no blank, and no character that starts a value of another kind. -/
theorem digit_ne {d : Char} (hd : d.isDigit = true) :
    ¬ (d = ' ' ∨ d = '\n' ∨ d = '\t' ∨ d = '\r') ∧
      d ≠ 'n' ∧ d ≠ 't' ∧ d ≠ 'f' ∧ d ≠ '-' ∧ d ≠ '"' ∧ d ≠ '[' ∧ d ≠ '{' := by
  refine ⟨?_, ?_, ?_, ?_, ?_, ?_, ?_, ?_⟩
  · rintro (rfl | rfl | rfl | rfl) <;> simp at hd
  all_goals rintro rfl; simp at hd

/-! ## The written text -/

/-- The text of the items of an array, with a comma before each item but the first one. -/
def valuesText : Bool → List Json → List Char
  | _, [] => []
  | first, x :: l => (if first then [] else [',']) ++ x.write.toList ++ valuesText false l

theorem valuesText_false_cons (x : Json) (l : List Json) :
    valuesText false (x :: l) = ',' :: valuesText true (x :: l) := by
  simp [valuesText]

theorem writeItems_toList (l : List Json) : (writeItems l).toList = valuesText true l := by
  induction l with
  | nil => simp [writeItems, valuesText]
  | cons x l ih =>
    cases l with
    | nil => simp [writeItems, valuesText]
    | cons x' l' =>
      rw [writeItems.eq_3 _ _ (List.cons_ne_nil _ _), valuesText, valuesText_false_cons, ← ih]
      simp

theorem arr_write_toList (xs : List Json) :
    (Json.arr xs).write.toList = '[' :: (valuesText true xs ++ [']']) := by
  simp [Json.write, writeItems_toList]

theorem write_ofNat_toList (n : Nat) :
    (Json.num (.int (n : Int))).write.toList = Nat.toDigits 10 n := by
  simp [Json.write, JsonNumber.write, toString, Int.repr, Nat.toList_repr]

theorem write_negSucc_toList (m : Nat) :
    (Json.num (.int (Int.negSucc m))).write.toList = '-' :: Nat.toDigits 10 (m + 1) := by
  simp [Json.write, JsonNumber.write, toString, Int.repr, Nat.toList_repr]

/-- The text of a plain value starts with a character that is no blank and ends no list. -/
theorem exists_write_toList {v : Json} (hv : Plain v) :
    ∃ ch r, v.write.toList = ch :: r ∧ ¬ (ch = ' ' ∨ ch = '\n' ∨ ch = '\t' ∨ ch = '\r') ∧
      ch ≠ ']' ∧ ch ≠ ',' := by
  cases hv with
  | null => exact ⟨'n', _, rfl, by decide, by decide, by decide⟩
  | bool b => cases b <;> exact ⟨_, _, rfl, by decide, by decide, by decide⟩
  | int i _ _ =>
    cases i with
    | ofNat n =>
      obtain ⟨d, ds, hdd, -⟩ := exists_toDigits_cons n
      have hdigit : d.isDigit = true :=
        Nat.isDigit_of_mem_toDigits (by decide) (by decide) (hdd ▸ List.mem_cons_self)
      refine ⟨d, ds, by rw [← hdd]; exact write_ofNat_toList n, (digit_ne hdigit).1, ?_, ?_⟩
      · rintro rfl; simp at hdigit
      · rintro rfl; simp at hdigit
    | negSucc m => exact ⟨'-', _, write_negSucc_toList m, by decide, by decide, by decide⟩
  | str s =>
    exact ⟨'"', s.toList.flatMap escapeChar ++ ['"'], by simp [Json.write, quote_toList],
      by decide, by decide, by decide⟩
  | arr xs => exact ⟨'[', _, arr_write_toList xs, by decide, by decide, by decide⟩
  | obj fs => exact ⟨'{', _, obj_write_toList fs, by decide, by decide, by decide⟩

theorem length_write_pos {v : Json} (hv : Plain v) : 0 < v.write.toList.length := by
  obtain ⟨ch, r, hvr, -⟩ := exists_write_toList hv
  simp [hvr]

theorem Plain.write_ne_empty {v : Json} (hv : Plain v) : v.write ≠ "" := by
  obtain ⟨ch, r, hvr, -⟩ := exists_write_toList hv
  intro hempty
  simp [hempty] at hvr

/-- Fuel for twice the text of a plain value is fuel for one step at least. -/
theorem Plain.exists_fuel {v : Json} (hv : Plain v) {fuel : Nat}
    (h : 2 * v.write.toList.length ≤ fuel) : ∃ f, fuel = f + 1 :=
  ⟨fuel - 1, by have := length_write_pos hv; omega⟩

/-- What may follow a value in written text: the end, a comma, or the bracket or brace that
closes its container. A number's digits stop there. -/
def EndsValue (more : List Char) : Prop := ∀ ch ∈ more.head?, ch = ',' ∨ ch = ']' ∨ ch = '}'

theorem EndsValue.not_digit {more : List Char} (h : EndsValue more) :
    ∀ ch ∈ more.head?, ch.isDigit = false := by
  intro ch hch
  rcases h ch hch with rfl | rfl | rfl <;> rfl

theorem endsValue_nil : EndsValue [] := by
  intro ch hch
  simp at hch

theorem endsValue_valuesText (l : List Json) (more : List Char) :
    EndsValue (valuesText false l ++ ']' :: more) := by
  cases l <;> simp [EndsValue, valuesText]

theorem endsValue_fieldsText (l : List (String × Json)) (more : List Char) :
    EndsValue (fieldsText false l ++ '}' :: more) := by
  cases l <;> simp [EndsValue, fieldsText]

/-! ## Reading -/

/-- The reader reads a value back from its text wherever that text stands: below the nesting
limit, with fuel for twice its length, and followed by what may follow a value. -/
def ReadsBack (v : Json) : Prop :=
  ∀ (fuel depth : Nat) (more : List Char) (c : Cursor), v.depth < depth →
    2 * v.write.toList.length ≤ fuel → EndsValue more → c.rest = v.write.toList ++ more →
    ∃ c', c'.rest = more ∧ (Reader.value fuel depth .any).run c = pure (v, c')

namespace Reader

theorem run_peek (c : Cursor) : peek.run c = pure (c.rest.head?, c) := rfl

theorem run_next {c : Cursor} {ch : Char} {r : List Char} (h : c.rest = ch :: r) :
    next.run c = pure (some ch, c.advance) := by
  simp [next, peek, bump, h]

theorem run_keyword (letters : List Char) {more : List Char} :
    ∀ {c : Cursor}, c.rest = letters ++ more →
      ∃ c', c'.rest = more ∧ (keyword letters).run c = pure ((), c') := by
  induction letters with
  | nil => intro c hc; exact ⟨c, hc, rfl⟩
  | cons ch l ih =>
    intro c hc
    obtain ⟨c', hc', hrun⟩ := ih (Cursor.advance_rest hc)
    refine ⟨c', hc', ?_⟩
    simp only [keyword] at hrun ⊢
    simp [run_next hc]
    exact hrun

theorem run_digits {ds more : List Char} {c : Cursor} (hds : ∀ ch ∈ ds, ch.isDigit = true)
    (hmore : ∀ ch ∈ more.head?, ch.isDigit = false) (hc : c.rest = ds ++ more) :
    ∃ c', c'.rest = more ∧ digits.run c = pure (ds, c') := by
  have htake : c.rest.takeWhile Char.isDigit = ds := by
    rw [hc, List.takeWhile_append_of_pos hds]
    cases more with
    | nil => simp
    | cons ch r => simp [hmore ch rfl]
  refine ⟨_, Cursor.foldl_advance_rest ds hc, ?_⟩
  simp [digits, htake]

/-- Digits whose value stays within the limit are all gathered. -/
theorem gather_of_le (limit : Nat) (ds : List Char) (hds : ∀ ch ∈ ds, ch.isDigit = true) :
    ∀ n, digitsFold n ds ≤ limit → gather limit n ds = (digitsFold n ds, ds.length) := by
  induction ds with
  | nil => intro n _; rfl
  | cons d ds ih =>
    intro n h
    have hd := digit_sub_le (hds d List.mem_cons_self)
    -- the value so far never passes the limit, since the fold only grows
    have hstep : 10 * n + (d.toNat - '0'.toNat) ≤ limit := (le_digitsFold ds _).trans h
    have hpass : passes n (d.toNat - '0'.toNat) limit = false := by
      simp only [passes, Bool.and_eq_false_iff, Bool.or_eq_false_iff, decide_eq_false_iff_not]
      omega
    rw [gather, hpass, ih (fun ch hch => hds ch (List.mem_cons_of_mem _ hch)) _ h]
    rfl

/-- A run of digits with no leading zero, followed by what may follow a value, is read as the
integer it spells, negated after a sign. -/
theorem run_number (negative : Bool) {d : Char} {ds more : List Char} {c : Cursor}
    (hds : ∀ ch ∈ d :: ds, ch.isDigit = true) (hzero : d = '0' → ds = [])
    (hval : digitsFold 0 (d :: ds) ≤ wordMax)
    (hneg : negative = true → 0 < digitsFold 0 (d :: ds) ∧ digitsFold 0 (d :: ds) ≤ Nat.pow 2 63)
    (hmore : EndsValue more) (hc : c.rest = d :: ds ++ more) :
    ∃ c', c'.rest = more ∧ (number negative).run c =
      pure (.int (if negative then -(digitsFold 0 (d :: ds) : Int) else digitsFold 0 (d :: ds)),
        c') := by
  have hgather := gather_of_le wordMax (d :: ds) hds 0 hval
  have hc₁ : c.advance.rest = ds ++ more := Cursor.advance_rest hc
  -- the sign and the value settle which number the digits make
  have hsign : ∀ c' : Cursor,
      (if (!negative) = true then pure (JsonNumber.int (digitsFold 0 (d :: ds)))
        else if digitsFold 0 (d :: ds) = 0 ∨ Nat.pow 2 63 < digitsFold 0 (d :: ds) then
          pure (JsonNumber.float (-Decimal.toDouble (digitsFold 0 (d :: ds))))
        else pure (JsonNumber.int (-(digitsFold 0 (d :: ds) : Int))) : Reader JsonNumber).run c' =
      pure (.int (if negative then -(digitsFold 0 (d :: ds) : Int) else digitsFold 0 (d :: ds)),
        c') := by
    intro c'
    cases negative with
    | false => rfl
    | true =>
      obtain ⟨hpos, hle⟩ := hneg rfl
      simp [Nat.pos_iff_ne_zero.1 hpos, Nat.not_lt.2 hle]
  -- what follows the number ends it: its first character, if any, is a closing mark
  have hhead : more.head? = none ∨ more.head? = some ',' ∨ more.head? = some ']' ∨
      more.head? = some '}' := by
    cases hm : more.head? with
    | none => exact .inl rfl
    | some ch => rcases hmore ch hm with rfl | rfl | rfl <;> simp
  by_cases hd0 : d = '0'
  · -- a zero stands alone
    subst hd0
    obtain rfl := hzero rfl
    refine ⟨c.advance, by simpa using hc₁, ?_⟩
    rcases hhead with h | h | h | h <;>
      simp only [number, StateT.run_bind, run_next hc, run_peek, hc₁, List.nil_append, h,
        Char.reduceIsDigit, Option.some.injEq, Char.reduceEq, imp_self, ↓Char.isValue,
        Bool.false_eq_true, ↓reduceIte, pure_bind, hgather, List.length_cons, List.length_nil,
        zero_add, lt_self_iff_false, tsub_self, Nat.cast_zero, false_or, hsign]
  · -- any other digit starts a run
    obtain ⟨c₂, hc₂, hdig⟩ :=
      run_digits (fun ch h => hds ch (List.mem_cons_of_mem _ h)) hmore.not_digit hc₁
    refine ⟨c₂, hc₂, ?_⟩
    have hd : d.isDigit = true := hds d List.mem_cons_self
    rcases hhead with h | h | h | h <;>
      simp only [number, StateT.run_bind, run_next hc, hd, hdig, run_peek, hc₂, h,
        Option.some.injEq, Char.reduceEq, imp_self, ↓Char.isValue, Bool.false_eq_true,
        ↓reduceIte, pure_bind, hgather, List.length_cons, lt_self_iff_false, tsub_self,
        Nat.cast_zero, false_or, hsign]

/-- A natural number of a 64-bit word, written in decimal, is read back. -/
theorem run_value_nat (fuel depth : Nat) {n : Nat} (hn : n ≤ wordMax) {more : List Char}
    {c : Cursor} (hmore : EndsValue more) (hc : c.rest = Nat.toDigits 10 n ++ more) :
    ∃ c', c'.rest = more ∧ (value (fuel + 1) depth .any).run c = pure (.num (.int n), c') := by
  obtain ⟨d, ds, hdd, hd0⟩ := exists_toDigits_cons n
  have hall : ∀ ch ∈ d :: ds, ch.isDigit = true := fun ch hch =>
    Nat.isDigit_of_mem_toDigits (by decide) (by decide) (hdd ▸ hch)
  have hval : digitsFold 0 (d :: ds) = n := hdd ▸ digitsFold_toDigits n
  have hzero : d = '0' → ds = [] := fun h => by
    have := hdd
    rw [hd0 h] at this
    simp_all
  rw [hdd] at hc
  obtain ⟨c', hc', hnum⟩ := run_number false hall hzero (hval ▸ hn) (by simp) hmore hc
  have hdigit := hall d List.mem_cons_self
  refine ⟨c', hc', ?_⟩
  simp [value, run_skipBlanks hc (digit_ne hdigit).1, (digit_ne hdigit).2, hdigit, hnum, hval]

/-- A negative number down to `-2 ^ 63`, written in decimal after its sign, is read back. -/
theorem run_value_neg (fuel depth : Nat) {m : Nat} (hpos : 0 < m) (hm : m ≤ Nat.pow 2 63)
    {more : List Char} {c : Cursor} (hmore : EndsValue more)
    (hc : c.rest = '-' :: (Nat.toDigits 10 m ++ more)) :
    ∃ c', c'.rest = more ∧
      (value (fuel + 1) depth .any).run c = pure (.num (.int (-(m : Int))), c') := by
  obtain ⟨d, ds, hdd, hd0⟩ := exists_toDigits_cons m
  have hall : ∀ ch ∈ d :: ds, ch.isDigit = true := fun ch hch =>
    Nat.isDigit_of_mem_toDigits (by decide) (by decide) (hdd ▸ hch)
  have hval : digitsFold 0 (d :: ds) = m := hdd ▸ digitsFold_toDigits m
  have hzero : d = '0' → ds = [] := fun h => absurd (hd0 h) (Nat.pos_iff_ne_zero.1 hpos)
  have hword : m ≤ wordMax := by
    have h63 : Nat.pow 2 63 = 9223372036854775808 := rfl
    have h64 : wordMax = 18446744073709551615 := rfl
    omega
  rw [hdd] at hc
  obtain ⟨c', hc', hnum⟩ := run_number true hall hzero (hval ▸ hword)
    (fun _ => hval ▸ ⟨hpos, hm⟩) hmore (Cursor.advance_rest hc)
  refine ⟨c', hc', ?_⟩
  simp [value, run_skipBlanks hc (by decide), bump, hnum, hval]

/-- A keyword is read back as its value. -/
theorem run_value_keyword (fuel depth : Nat) {v : Json}
    (hv : v = .null ∨ v = .bool true ∨ v = .bool false) {more : List Char} {c : Cursor}
    (hc : c.rest = v.write.toList ++ more) :
    ∃ c', c'.rest = more ∧ (value (fuel + 1) depth .any).run c = pure (v, c') := by
  rcases hv with rfl | rfl | rfl
  · have hc' : c.rest = 'n' :: (['u', 'l', 'l'] ++ more) := hc
    obtain ⟨c', hc'', hk⟩ := run_keyword ['u', 'l', 'l'] (Cursor.advance_rest hc')
    exact ⟨c', hc'', by simp [value, run_skipBlanks hc' (by decide), bump, hk]⟩
  · have hc' : c.rest = 't' :: (['r', 'u', 'e'] ++ more) := hc
    obtain ⟨c', hc'', hk⟩ := run_keyword ['r', 'u', 'e'] (Cursor.advance_rest hc')
    exact ⟨c', hc'', by simp [value, run_skipBlanks hc' (by decide), bump, hk]⟩
  · have hc' : c.rest = 'f' :: (['a', 'l', 's', 'e'] ++ more) := hc
    obtain ⟨c', hc'', hk⟩ := run_keyword ['a', 'l', 's', 'e'] (Cursor.advance_rest hc')
    exact ⟨c', hc'', by simp [value, run_skipBlanks hc' (by decide), bump, hk]⟩

/-! ### Arrays -/

/-- An item of an array, with the comma before it when it is not the first, is read as a
value from where its text starts, and the items after it follow. -/
theorem run_items_next (fuel depth : Nat) (first : Bool) (acc : List Json) {x : Json}
    (hx : Plain x) {more : List Char} {c : Cursor}
    (hc : c.rest = (if first then [] else [',']) ++ x.write.toList ++ more) :
    ∃ c₀, c₀.rest = x.write.toList ++ more ∧ (items (fuel + 1) depth first acc).run c =
      (do let v ← value fuel depth .any; items fuel depth false (v :: acc)).run c₀ := by
  obtain ⟨ch, r, hxt, hblank, hclose, hcomma⟩ := exists_write_toList hx
  -- the item starts with a character that neither closes the array nor separates items
  have hstart : ∀ {d : Cursor}, d.rest = x.write.toList ++ more →
      skipBlanks.run d = pure (some ch, d) := fun hd =>
    run_skipBlanks (by rw [hd, hxt]; rfl) hblank
  cases first with
  | true =>
    have hd : c.rest = x.write.toList ++ more := by simpa using hc
    exact ⟨c, hd, by simp [items, hstart hd]⟩
  | false =>
    have hcomma' : c.rest = ',' :: (x.write.toList ++ more) := by simpa using hc
    have hd := Cursor.advance_rest hcomma'
    exact ⟨c.advance, hd, by simp [items, bump, run_skipBlanks hcomma' (by decide), hstart hd]⟩

/-- An item that reads back is read as itself. -/
theorem run_items_cons (fuel depth : Nat) (first : Bool) (acc : List Json) {x : Json}
    (hx : Plain x) (hread : ReadsBack x) (hdepth : x.depth < depth)
    (hfuel : 2 * x.write.toList.length ≤ fuel) {more : List Char} {c : Cursor}
    (hmore : EndsValue more) (hc : c.rest = (if first then [] else [',']) ++ x.write.toList ++ more) :
    ∃ c', c'.rest = more ∧ (items (fuel + 1) depth first acc).run c =
      (items fuel depth false (x :: acc)).run c' := by
  obtain ⟨c₀, hc₀, hstep⟩ := run_items_next fuel depth first acc hx hc
  obtain ⟨c₁, hc₁, hv⟩ := hread fuel depth more c₀ hdepth hfuel hmore hc₀
  exact ⟨c₁, hc₁, by rw [hstep, StateT.run_bind, hv]; rfl⟩

/-- The items of an array are read as themselves, in order. -/
theorem run_items_write (depth : Nat) (more : List Char) (xs : List Json)
    (hxs : ∀ x ∈ xs, Plain x ∧ ReadsBack x ∧ x.depth < depth) :
    ∀ (fuel : Nat) (first : Bool) (acc : List Json) (c : Cursor),
      2 * (valuesText first xs).length < fuel → c.rest = valuesText first xs ++ ']' :: more →
      ∃ c', c'.rest = ']' :: more ∧
        (items fuel depth first acc).run c = pure (acc.reverse ++ xs, c') := by
  induction xs with
  | nil =>
    intro fuel first acc c hfuel hc
    obtain ⟨fuel, rfl⟩ : ∃ f, fuel = f + 1 := ⟨fuel - 1, by omega⟩
    have hc' : c.rest = ']' :: more := by simpa [valuesText] using hc
    exact ⟨c, hc', by simp [items, run_skipBlanks hc' (by decide)]⟩
  | cons x l ih =>
    intro fuel first acc c hfuel hc
    obtain ⟨hx, hread, hdepth⟩ := hxs x List.mem_cons_self
    obtain ⟨fuel, rfl⟩ : ∃ f, fuel = f + 1 := ⟨fuel - 1, by omega⟩
    -- the item's text and the rest of the items are shorter than the items' text
    have hpos := length_write_pos hx
    have hlen : (valuesText first (x :: l)).length =
        (if first then 0 else 1) + x.write.toList.length + (valuesText false l).length := by
      cases first
      · simp [valuesText]
        omega
      · simp [valuesText]
    simp only [valuesText, List.append_assoc] at hc
    obtain ⟨c₁, hc₁, hstep⟩ := run_items_cons fuel depth first acc hx hread hdepth
      (by split at hlen <;> omega) (endsValue_valuesText l more)
      (hc.trans (List.append_assoc _ _ _).symm)
    obtain ⟨c', hc', hrun⟩ := ih (fun y hy => hxs y (List.mem_cons_of_mem _ hy)) fuel false
      (x :: acc) c₁ (by split at hlen <;> omega) hc₁
    exact ⟨c', hc', by rw [hstep, hrun]; simp⟩

/-- An array, from its opening bracket, is read whole. -/
theorem run_openArray_write (fuel depth : Nat) (hdepth : 1 < depth) (xs : List Json)
    (hxs : ∀ x ∈ xs, Plain x ∧ ReadsBack x ∧ x.depth < depth - 1) {more : List Char}
    {c : Cursor} (hfuel : 2 * (valuesText true xs).length + 1 < fuel)
    (hc : c.rest = '[' :: (valuesText true xs ++ ']' :: more)) :
    ∃ c', c'.rest = more ∧ (openArray fuel depth).run c = pure (.arr xs, c') := by
  obtain ⟨fuel, rfl⟩ : ∃ f, fuel = f + 1 := ⟨fuel - 1, by omega⟩
  obtain ⟨c₁, hc₁, hrun⟩ :=
    run_items_write (depth - 1) more xs hxs fuel true [] c.advance (by omega) (Cursor.advance_rest hc)
  refine ⟨c₁.advance, Cursor.advance_rest hc₁, ?_⟩
  have hd : ¬ depth ≤ 1 := by omega
  simp [openArray, hd, bump, hrun, run_skipBlanks hc₁ (by decide)]

/-! ### Objects -/

/-- A member of an object, with the comma before it when it is not the first, has its key
read, and then its value from where its text starts; the members after it follow. -/
theorem run_members_next (fuel depth : Nat) (first : Bool) (acc : Fields) (k : String)
    (v : Json) {more : List Char} {c : Cursor}
    (hc : c.rest = (if first then [] else [',']) ++ fieldText k v ++ more) :
    ∃ c₀, c₀.rest = v.write.toList ++ more ∧ (members (fuel + 1) depth .any first acc).run c =
      (do let v ← value fuel depth .any; members fuel depth .any false ((k, v) :: acc)).run c₀ := by
  -- the member's own text: the key and the colon, then the value
  have hkey : ∀ {d : Cursor}, d.rest = fieldText k v ++ more →
      skipBlanks.run d = pure (some '"', d) ∧ ∃ c₂, string.run d.advance = pure (k, c₂) ∧
        skipBlanks.run c₂ = pure (some ':', c₂) ∧ c₂.advance.rest = v.write.toList ++ more := by
    intro d hd
    simp only [fieldText, quote_toList, List.cons_append, List.append_assoc] at hd
    obtain ⟨c₂, hc₂, hk⟩ := run_string_quoted k (Cursor.advance_rest hd)
    exact ⟨run_skipBlanks hd (by decide), c₂, hk, run_skipBlanks hc₂ (by decide),
      Cursor.advance_rest hc₂⟩
  cases first with
  | true =>
    obtain ⟨h₁, c₂, hk, h₂, hc₀⟩ := hkey (by simpa using hc)
    exact ⟨c₂.advance, hc₀, by simp [members, bump, h₁, hk, h₂]⟩
  | false =>
    have hcomma : c.rest = ',' :: (fieldText k v ++ more) := by simpa using hc
    obtain ⟨h₁, c₂, hk, h₂, hc₀⟩ := hkey (Cursor.advance_rest hcomma)
    exact ⟨c₂.advance, hc₀, by
      simp [members, bump, run_skipBlanks hcomma (by decide), h₁, hk, h₂]⟩

/-- A member whose value reads back is read as its field. -/
theorem run_members_cons (fuel depth : Nat) (first : Bool) (acc : Fields) {k : String}
    {v : Json} (hread : ReadsBack v) (hdepth : v.depth < depth)
    (hfuel : 2 * v.write.toList.length ≤ fuel) {more : List Char} {c : Cursor}
    (hmore : EndsValue more)
    (hc : c.rest = (if first then [] else [',']) ++ fieldText k v ++ more) :
    ∃ c', c'.rest = more ∧ (members (fuel + 1) depth .any first acc).run c =
      (members fuel depth .any false ((k, v) :: acc)).run c' := by
  obtain ⟨c₀, hc₀, hstep⟩ := run_members_next fuel depth first acc k v hc
  obtain ⟨c₁, hc₁, hv⟩ := hread fuel depth more c₀ hdepth hfuel hmore hc₀
  exact ⟨c₁, hc₁, by rw [hstep, StateT.run_bind, hv]; rfl⟩

/-- The members of an object are read as its fields, in order. -/
theorem run_members_write (depth : Nat) (more : List Char) (fs : List (String × Json))
    (hfs : ∀ kv ∈ fs, ReadsBack kv.2 ∧ kv.2.depth < depth) :
    ∀ (fuel : Nat) (first : Bool) (acc : Fields) (c : Cursor),
      2 * (fieldsText first fs).length < fuel → c.rest = fieldsText first fs ++ '}' :: more →
      ∃ c', c'.rest = '}' :: more ∧
        (members fuel depth .any first acc).run c = pure (acc.reverse ++ fs, c') := by
  induction fs with
  | nil =>
    intro fuel first acc c hfuel hc
    obtain ⟨fuel, rfl⟩ : ∃ f, fuel = f + 1 := ⟨fuel - 1, by omega⟩
    have hc' : c.rest = '}' :: more := by simpa [fieldsText] using hc
    exact ⟨c, hc', by simp [members, run_skipBlanks hc' (by decide)]⟩
  | cons p fs ih =>
    intro fuel first acc c hfuel hc
    obtain ⟨k, v⟩ := p
    obtain ⟨hread, hdepth⟩ : ReadsBack v ∧ v.depth < depth := hfs (k, v) List.mem_cons_self
    obtain ⟨fuel, rfl⟩ : ∃ f, fuel = f + 1 := ⟨fuel - 1, by omega⟩
    -- the value's text and the rest of the members are shorter than the members' text
    have hwrite := length_write_lt_fieldText k v
    have hlen : (fieldsText first ((k, v) :: fs)).length =
        (if first then 0 else 1) + (fieldText k v).length + (fieldsText false fs).length := by
      cases first
      · simp [fieldsText]
        omega
      · simp [fieldsText]
    simp only [fieldsText, List.append_assoc] at hc
    obtain ⟨c₁, hc₁, hstep⟩ := run_members_cons fuel depth first acc hread hdepth
      (by split at hlen <;> omega) (endsValue_fieldsText fs more)
      (hc.trans (List.append_assoc _ _ _).symm)
    obtain ⟨c', hc', hrun⟩ := ih (fun kv hkv => hfs kv (List.mem_cons_of_mem _ hkv)) fuel false
      ((k, v) :: acc) c₁ (by split at hlen <;> omega) hc₁
    exact ⟨c', hc', by rw [hstep, hrun]; simp⟩

/-- An object, from its opening brace, is read whole. -/
theorem run_openObject_write (fuel depth : Nat) (hdepth : 1 < depth) (fs : List (String × Json))
    (hfs : ∀ kv ∈ fs, ReadsBack kv.2 ∧ kv.2.depth < depth - 1) {more : List Char}
    {c : Cursor} (hfuel : 2 * (fieldsText true fs).length + 1 < fuel)
    (hc : c.rest = '{' :: (fieldsText true fs ++ '}' :: more)) :
    ∃ c', c'.rest = more ∧ (openObject fuel depth .any).run c = pure (.obj fs, c') := by
  obtain ⟨fuel, rfl⟩ : ∃ f, fuel = f + 1 := ⟨fuel - 1, by omega⟩
  obtain ⟨c₁, hc₁, hrun⟩ := run_members_write (depth - 1) more fs hfs fuel true [] c.advance
    (by omega) (Cursor.advance_rest hc)
  refine ⟨c₁.advance, Cursor.advance_rest hc₁, ?_⟩
  have hd : ¬ depth ≤ 1 := by omega
  simp [openObject, hd, bump, hrun, run_skipBlanks hc₁ (by decide)]

/-- An integer of a 64-bit word, signed or unsigned, is read back. -/
theorem run_value_int (fuel depth : Nat) {i : Int} (hlo : -((Nat.pow 2 63 : Nat) : Int) ≤ i)
    (hhi : i < ((Nat.pow 2 64 : Nat) : Int)) {more : List Char} {c : Cursor}
    (hmore : EndsValue more) (hc : c.rest = (Json.num (.int i)).write.toList ++ more) :
    ∃ c', c'.rest = more ∧ (value (fuel + 1) depth .any).run c = pure (.num (.int i), c') := by
  cases i with
  | ofNat n =>
    rw [Int.ofNat_eq_natCast, write_ofNat_toList] at hc
    have hn : n ≤ wordMax := by
      have h64 : wordMax = Nat.pow 2 64 - 1 := rfl
      rw [Int.ofNat_eq_natCast] at hhi
      omega
    exact run_value_nat fuel depth hn hmore hc
  | negSucc m =>
    rw [write_negSucc_toList] at hc
    have hm : m + 1 ≤ Nat.pow 2 63 := by
      rw [Int.negSucc_eq] at hlo
      omega
    have hneg : -(((m + 1 : Nat)) : Int) = Int.negSucc m := by omega
    simpa only [hneg] using run_value_neg fuel depth (Nat.succ_pos m) hm hmore hc

end Reader

open Reader in
/-- An object reads back from its text, its fields in the order written, when each of its
values does: the key order matters only to the sorting after the read. -/
theorem readsBack_obj {fs : Fields} (hfs : ∀ kv ∈ fs, ReadsBack kv.2) : ReadsBack (.obj fs) := by
  intro fuel depth more c hdepth hfuel hmore hc
  rw [obj_write_toList] at hc hfuel
  have hd : 1 < depth := by simp [Json.depth] at hdepth; omega
  obtain ⟨fuel, rfl⟩ : ∃ f, fuel = f + 1 := ⟨fuel - 1, by simp at hfuel; omega⟩
  -- each value stands one level down
  obtain ⟨c', hc', hobj⟩ := run_openObject_write fuel depth hd fs
    (fun kv hkv => ⟨hfs kv hkv, by
      have := depth_le_depthFields hkv
      simp [Json.depth] at hdepth
      omega⟩)
    (by simp at hfuel; omega) (by simpa using hc)
  exact ⟨c', hc', by simp [value, run_skipBlanks hc (by decide), hobj]⟩

open Reader in
/-- Every plain value reads back from its text. The induction is on the value; an array or an
object opens one level, so its items are read one level further down. -/
theorem Plain.readsBack {v : Json} (hv : Plain v) : ReadsBack v := by
  induction hv with
  | null =>
    intro fuel depth more c _ hfuel _ hc
    obtain ⟨fuel, rfl⟩ := Plain.null.exists_fuel hfuel
    exact run_value_keyword fuel depth (.inl rfl) hc
  | bool b =>
    intro fuel depth more c _ hfuel _ hc
    obtain ⟨fuel, rfl⟩ := (Plain.bool b).exists_fuel hfuel
    cases b
    · exact run_value_keyword fuel depth (.inr (.inr rfl)) hc
    · exact run_value_keyword fuel depth (.inr (.inl rfl)) hc
  | int i hlo hhi =>
    intro fuel depth more c _ hfuel hmore hc
    obtain ⟨fuel, rfl⟩ := (Plain.int i hlo hhi).exists_fuel hfuel
    exact run_value_int fuel depth hlo hhi hmore hc
  | str s =>
    intro fuel depth more c _ hfuel _ hc
    obtain ⟨fuel, rfl⟩ := (Plain.str s).exists_fuel hfuel
    exact run_value_str fuel depth s hc
  | arr xs hxs ih =>
    intro fuel depth more c hdepth hfuel hmore hc
    rw [arr_write_toList] at hc hfuel
    have hd : 1 < depth := by simp [Json.depth] at hdepth; omega
    obtain ⟨fuel, rfl⟩ : ∃ f, fuel = f + 1 := ⟨fuel - 1, by simp at hfuel; omega⟩
    obtain ⟨c', hc', harr⟩ := run_openArray_write fuel depth hd xs
      (fun x hx => ⟨hxs x hx, ih x hx, by
        have := depth_le_depthItems hx
        simp [Json.depth] at hdepth
        omega⟩)
      (by simp at hfuel; omega) (by simpa using hc)
    exact ⟨c', hc', by simp [value, run_skipBlanks hc (by decide), harr]⟩
  | obj fs _ _ ih => exact readsBack_obj ih

/-! ## Too deep -/

/-- The reader refuses a value wherever its text stands once the value nests containers as
deep as the levels it may still open, or deeper. -/
def FailsDeep (v : Json) : Prop :=
  ∀ (fuel depth : Nat) (more : List Char) (c : Cursor), 0 < depth → depth ≤ v.depth →
    2 * v.write.toList.length ≤ fuel → EndsValue more → c.rest = v.write.toList ++ more →
    ∃ e, (Reader.value fuel depth .any).run c = .error e

namespace Reader

theorem run_bind_error {α β : Type} {x : Reader α} {f : α → Reader β} {c : Cursor}
    {e : ReadError} (h : x.run c = .error e) : (x >>= f).run c = .error e := by
  simp only [StateT.run_bind, h]
  rfl

/-- The items of an array one of which is too deep are refused. -/
theorem items_error (depth : Nat) (hpos : 0 < depth) (more : List Char) (xs : List Json)
    (hxs : ∀ x ∈ xs, Plain x ∧ FailsDeep x) (hdeep : ∃ x ∈ xs, depth ≤ x.depth) :
    ∀ (fuel : Nat) (first : Bool) (acc : List Json) (c : Cursor),
      2 * (valuesText first xs).length < fuel → c.rest = valuesText first xs ++ ']' :: more →
      ∃ e, (items fuel depth first acc).run c = .error e := by
  induction xs with
  | nil =>
    obtain ⟨x, hx, -⟩ := hdeep
    simp at hx
  | cons x l ih =>
    intro fuel first acc c hfuel hc
    obtain ⟨hx, hfails⟩ := hxs x List.mem_cons_self
    obtain ⟨fuel, rfl⟩ : ∃ f, fuel = f + 1 := ⟨fuel - 1, by omega⟩
    have hpos' := length_write_pos hx
    have hlen : (valuesText first (x :: l)).length =
        (if first then 0 else 1) + x.write.toList.length + (valuesText false l).length := by
      cases first
      · simp [valuesText]
        omega
      · simp [valuesText]
    simp only [valuesText, List.append_assoc] at hc
    have hc' := hc.trans (List.append_assoc _ _ _).symm
    by_cases hxd : depth ≤ x.depth
    · -- this item is too deep
      obtain ⟨c₀, hc₀, hstep⟩ := run_items_next fuel depth first acc hx hc'
      obtain ⟨e, he⟩ := hfails fuel depth _ c₀ hpos hxd (by split at hlen <;> omega)
        (endsValue_valuesText l more) hc₀
      exact ⟨e, by rw [hstep, run_bind_error he]⟩
    · -- this item reads back, and a deeper one follows it
      obtain ⟨c₁, hc₁, hstep⟩ := run_items_cons fuel depth first acc hx hx.readsBack
        (by omega) (by split at hlen <;> omega) (endsValue_valuesText l more) hc'
      obtain ⟨y, hy, hyd⟩ := hdeep
      have hyl : y ∈ l := by
        rcases List.mem_cons.1 hy with rfl | hyl
        · exact absurd hyd hxd
        · exact hyl
      obtain ⟨e, he⟩ := ih (fun z hz => hxs z (List.mem_cons_of_mem _ hz)) ⟨y, hyl, hyd⟩ fuel
        false (x :: acc) c₁ (by split at hlen <;> omega) hc₁
      exact ⟨e, by rw [hstep, he]⟩

/-- An array nested as deep as the levels left, or deeper, is refused at its opening
bracket. -/
theorem openArray_error (fuel depth : Nat) (xs : List Json)
    (hxs : ∀ x ∈ xs, Plain x ∧ FailsDeep x) (hdeep : depth ≤ depthItems xs + 1)
    {more : List Char} {c : Cursor} (hfuel : 2 * (valuesText true xs).length + 1 < fuel)
    (hc : c.rest = '[' :: (valuesText true xs ++ ']' :: more)) :
    ∃ e, (openArray fuel depth).run c = .error e := by
  obtain ⟨fuel, rfl⟩ : ∃ f, fuel = f + 1 := ⟨fuel - 1, by omega⟩
  by_cases hd : depth ≤ 1
  · exact ⟨_, by simp [openArray, hd, failPeek]; rfl⟩
  · -- some item is too deep for the level below
    have hne : xs ≠ [] := by
      rintro rfl
      simp [depthItems] at hdeep
      omega
    obtain ⟨x, hx, hdx⟩ := exists_depthItems hne
    obtain ⟨e, he⟩ := items_error (depth - 1) (by omega) more xs hxs ⟨x, hx, by omega⟩ fuel
      true [] c.advance (by omega) (Cursor.advance_rest hc)
    exact ⟨e, by simp [openArray, hd, bump, he]; rfl⟩

/-- The members of an object one of which is too deep are refused. -/
theorem members_error (depth : Nat) (hpos : 0 < depth) (more : List Char)
    (fs : List (String × Json)) (hfs : ∀ kv ∈ fs, Plain kv.2 ∧ FailsDeep kv.2)
    (hdeep : ∃ kv ∈ fs, depth ≤ kv.2.depth) :
    ∀ (fuel : Nat) (first : Bool) (acc : Fields) (c : Cursor),
      2 * (fieldsText first fs).length < fuel → c.rest = fieldsText first fs ++ '}' :: more →
      ∃ e, (members fuel depth .any first acc).run c = .error e := by
  induction fs with
  | nil =>
    obtain ⟨kv, hkv, -⟩ := hdeep
    simp at hkv
  | cons p fs ih =>
    intro fuel first acc c hfuel hc
    obtain ⟨k, v⟩ := p
    obtain ⟨hv, hfails⟩ : Plain v ∧ FailsDeep v := hfs (k, v) List.mem_cons_self
    obtain ⟨fuel, rfl⟩ : ∃ f, fuel = f + 1 := ⟨fuel - 1, by omega⟩
    have hwrite := length_write_lt_fieldText k v
    have hlen : (fieldsText first ((k, v) :: fs)).length =
        (if first then 0 else 1) + (fieldText k v).length + (fieldsText false fs).length := by
      cases first
      · simp [fieldsText]
        omega
      · simp [fieldsText]
    simp only [fieldsText, List.append_assoc] at hc
    have hc' := hc.trans (List.append_assoc _ _ _).symm
    by_cases hvd : depth ≤ v.depth
    · -- this member's value is too deep
      obtain ⟨c₀, hc₀, hstep⟩ := run_members_next fuel depth first acc k v hc'
      obtain ⟨e, he⟩ := hfails fuel depth _ c₀ hpos hvd (by split at hlen <;> omega)
        (endsValue_fieldsText fs more) hc₀
      exact ⟨e, by rw [hstep, run_bind_error he]⟩
    · -- this member reads back, and a deeper one follows it
      obtain ⟨c₁, hc₁, hstep⟩ := run_members_cons fuel depth first acc hv.readsBack
        (by omega) (by split at hlen <;> omega) (endsValue_fieldsText fs more) hc'
      obtain ⟨kv, hkv, hkvd⟩ := hdeep
      have hkvl : kv ∈ fs := by
        rcases List.mem_cons.1 hkv with rfl | hkvl
        · exact absurd hkvd hvd
        · exact hkvl
      obtain ⟨e, he⟩ := ih (fun kv' hkv' => hfs kv' (List.mem_cons_of_mem _ hkv'))
        ⟨kv, hkvl, hkvd⟩ fuel false ((k, v) :: acc) c₁ (by split at hlen <;> omega) hc₁
      exact ⟨e, by rw [hstep, he]⟩

/-- An object nested as deep as the levels left, or deeper, is refused at its opening
brace. -/
theorem openObject_error (fuel depth : Nat) (fs : List (String × Json))
    (hfs : ∀ kv ∈ fs, Plain kv.2 ∧ FailsDeep kv.2) (hdeep : depth ≤ depthFields fs + 1)
    {more : List Char} {c : Cursor} (hfuel : 2 * (fieldsText true fs).length + 1 < fuel)
    (hc : c.rest = '{' :: (fieldsText true fs ++ '}' :: more)) :
    ∃ e, (openObject fuel depth .any).run c = .error e := by
  obtain ⟨fuel, rfl⟩ : ∃ f, fuel = f + 1 := ⟨fuel - 1, by omega⟩
  by_cases hd : depth ≤ 1
  · exact ⟨_, by simp [openObject, hd, failPeek]; rfl⟩
  · -- some member is too deep for the level below
    have hne : fs ≠ [] := by
      rintro rfl
      simp [depthFields] at hdeep
      omega
    obtain ⟨kv, hkv, hdkv⟩ := exists_depthFields hne
    obtain ⟨e, he⟩ := members_error (depth - 1) (by omega) more fs hfs ⟨kv, hkv, by omega⟩ fuel
      true [] c.advance (by omega) (Cursor.advance_rest hc)
    exact ⟨e, by simp [openObject, hd, bump, he]; rfl⟩

end Reader

open Reader in
/-- Every plain value is refused once it nests too deep. The induction is on the value, as for
`Plain.readsBack`; only containers can be too deep. -/
theorem Plain.failsDeep {v : Json} (hv : Plain v) : FailsDeep v := by
  induction hv with
  | null | bool | int | str =>
    intro fuel depth more c hpos hdepth
    simp [Json.depth] at hdepth
    omega
  | arr xs hxs ih =>
    intro fuel depth more c hpos hdepth hfuel hmore hc
    rw [arr_write_toList] at hc hfuel
    obtain ⟨fuel, rfl⟩ : ∃ f, fuel = f + 1 := ⟨fuel - 1, by simp at hfuel; omega⟩
    obtain ⟨e, he⟩ := openArray_error fuel depth xs (fun x hx => ⟨hxs x hx, ih x hx⟩)
      (by simpa [Json.depth] using hdepth) (by simp at hfuel; omega) (by simpa using hc)
    exact ⟨e, by simp [value, run_skipBlanks hc (by decide), he]⟩
  | obj fs hkeys hfs ih =>
    intro fuel depth more c hpos hdepth hfuel hmore hc
    rw [obj_write_toList] at hc hfuel
    obtain ⟨fuel, rfl⟩ : ∃ f, fuel = f + 1 := ⟨fuel - 1, by simp at hfuel; omega⟩
    obtain ⟨e, he⟩ := openObject_error fuel depth fs (fun kv hkv => ⟨hfs kv hkv, ih kv hkv⟩)
      (by simpa [Json.depth] using hdepth) (by simp at hfuel; omega) (by simpa using hc)
    exact ⟨e, by simp [value, run_skipBlanks hc (by decide), he]⟩

/-! ## Sorting what was read -/

theorem sortedItems_eq {xs : List Json} (h : ∀ x ∈ xs, sorted x = x) : sortedItems xs = xs := by
  induction xs with
  | nil => rfl
  | cons x xs ih =>
    rw [sortedItems, h x List.mem_cons_self, ih fun y hy => h y (List.mem_cons_of_mem _ hy)]

theorem sortedFields_eq {fs : List (String × Json)} (h : ∀ kv ∈ fs, sorted kv.2 = kv.2) :
    sortedFields fs = fs := by
  induction fs with
  | nil => rfl
  | cons p fs ih =>
    obtain ⟨k, v⟩ := p
    rw [sortedFields, h (k, v) List.mem_cons_self,
      ih fun kv hkv => h kv (List.mem_cons_of_mem _ hkv)]

/-- Sorting changes nothing in a plain value, whose objects are already sorted. -/
theorem Plain.sorted_eq {v : Json} (hv : Plain v) : sorted v = v := by
  induction hv with
  | null | bool | int | str => rfl
  | arr xs _ ih => rw [sorted, sortedItems_eq ih]
  | obj fs hkeys _ ih => rw [sorted, sortedFields_eq ih, Fields.normalize_of_sorted hkeys]

/-! ## The round trip -/

/-- A value that reads back as written, nesting fewer than 128 containers deep, is read from
its text in its sorted form. -/
theorem ReadsBack.read_write {v : Json} (hv : ReadsBack v) (hdepth : v.depth < 128) :
    read v.write = .ok (sorted v) := by
  have hstart : (Cursor.start v.write).rest = v.write.toList ++ [] := by simp
  obtain ⟨c', hc', hrun⟩ := hv (2 * v.write.toList.length + 4) 128 [] _ hdepth
    (by omega) endsValue_nil hstart
  have hwhole : (Reader.whole .any).run' (Cursor.start v.write) = .ok v := by
    simp [Reader.whole, hrun, Reader.run_skipBlanks_nil hc']
    rfl
  rw [read, hwhole]
  rfl

/-- A plain value reads back from its text when it nests fewer than 128 containers deep. -/
theorem Plain.read_write {v : Json} (hv : Plain v) (hdepth : v.depth < 128) :
    read v.write = .ok v := by
  rw [hv.readsBack.read_write hdepth, hv.sorted_eq]

/-- A plain value that nests 128 containers deep or more is refused. -/
theorem Plain.read_write_deep {v : Json} (hv : Plain v) (hdepth : 128 ≤ v.depth) :
    ∃ e, read v.write = .error e := by
  have hstart : (Cursor.start v.write).rest = v.write.toList ++ [] := by simp
  obtain ⟨e, he⟩ := hv.failsDeep (2 * v.write.toList.length + 4) 128 [] _ (by decide) hdepth
    (by omega) endsValue_nil hstart
  refine ⟨e, ?_⟩
  simp [read, Reader.whole, he]
  rfl

/-- Plain values read back from their text exactly when they nest fewer than 128 containers
deep. -/
theorem Plain.read_write_eq_ok_iff {v : Json} (hv : Plain v) :
    read v.write = .ok v ↔ v.depth < 128 := by
  refine ⟨fun h => ?_, hv.read_write⟩
  by_contra hdeep
  obtain ⟨e, he⟩ := hv.read_write_deep (by omega)
  rw [he] at h
  cases h

end Json

end ShareBroker
