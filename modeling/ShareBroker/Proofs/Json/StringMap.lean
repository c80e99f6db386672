import ShareBroker.Json.Read
import ShareBroker.Proofs.Databag

/-!
# Reading back a written string map

`Databag.toText` writes a databag as a compact JSON object of strings, and
`Json.readStringMap` reads such an object back. The main statement, `readStringMap_toText`,
is that reading gives back the pairs of a databag exactly, whatever characters its keys
and values hold.

The proof follows the reader along the written text, one step per kind of token:

* `run_stringBody_escapeChar`: one written character is read back as that character, whichever
  of its three written forms (a short escape, `\u00xx`, or the character itself) it took;
* `run_string_quoted`: a quoted string is read back whole, the fuel of the loop being the
  length of the rest of the text;
* `run_members`: the members of an object, `"key":"value"` each, separated by commas;
* `normalize_of_sorted`: the reader sorts the fields it read, which changes nothing when the
  writer wrote them sorted; `normalize_perm`: whatever their order, fields with distinct keys
  are only reordered.

Each reading step is stated as `(r.run c) = pure (x, c')` for some cursor `c'` holding the rest
of the text, so that the steps chain through `pure_bind`.
-/

namespace ShareBroker

namespace Json

/-! ## The written text -/

/-- The text of one member of an object of strings: `"key":"value"`. -/
def memberText (k v : String) : List Char := (quote k).toList ++ ':' :: (quote v).toList

/-- The text of the members of an object of strings, with a comma before each member but the
first one of the object. -/
def membersText : Bool → List (String × String) → List Char
  | _, [] => []
  | first, (k, v) :: l => (if first then [] else [',']) ++ memberText k v ++ membersText false l

theorem quote_toList (s : String) :
    (quote s).toList = '"' :: (s.toList.flatMap escapeChar ++ ['"']) := by
  simp [quote]

theorem writeFields_toList (l : List (String × String)) :
    (writeFields (l.map fun kv => (kv.1, Json.str kv.2))).toList = membersText true l := by
  induction l with
  | nil => simp [writeFields, membersText]
  | cons p l ih =>
    obtain ⟨k, v⟩ := p
    cases l with
    | nil => simp [writeFields, membersText, memberText, Json.write]
    | cons p' l' =>
      simp only [List.map_cons] at ih ⊢
      rw [writeFields.eq_3 _ _ _ (List.cons_ne_nil _ _)]
      simp only [membersText, String.toList_append, Json.write, ih, memberText, ite_true,
        List.nil_append, List.append_assoc]
      simp

theorem toText_toList (d : Databag) :
    d.toText.toList = '{' :: (membersText true d.entries ++ ['}']) := by
  simp [Databag.toText, Databag.toJson, Json.write, writeFields_toList]

theorem length_le_membersText (first : Bool) (l : List (String × String)) :
    l.length ≤ (membersText first l).length := by
  induction l generalizing first with
  | nil => simp [membersText]
  | cons p l ih =>
    obtain ⟨k, v⟩ := p
    have := ih false
    simp only [membersText, List.length_append, memberText, List.length_cons, List.length_cons]
    omega

/-! ## The cursor -/

@[simp] theorem Cursor.start_rest (s : String) : (Cursor.start s).rest = s.toList := rfl

theorem Cursor.advance_rest {c : Cursor} {ch : Char} {r : List Char} (h : c.rest = ch :: r) :
    c.advance.rest = r := by
  simp only [Cursor.advance, h]
  split <;> rfl

theorem Cursor.foldl_advance_rest (l : List Char) {r : List Char} :
    ∀ {c : Cursor}, c.rest = l ++ r → (l.foldl (fun c' _ => c'.advance) c).rest = r := by
  induction l with
  | nil => intro c h; simpa using h
  | cons ch l ih => intro c h; exact ih (Cursor.advance_rest h)

namespace Reader

theorem run_skipBlanks {c : Cursor} {ch : Char} {r : List Char} (h : c.rest = ch :: r)
    (hb : ¬ (ch = ' ' ∨ ch = '\n' ∨ ch = '\t' ∨ ch = '\r')) :
    skipBlanks.run c = pure (some ch, c) := by
  simp [skipBlanks, peek, h, hb]

theorem run_skipBlanks_nil {c : Cursor} (h : c.rest = []) : skipBlanks.run c = pure (none, c) := by
  simp [skipBlanks, peek, h]

/-! ## Strings -/

/-- The four digits of `\u00xx` for a control character, read back as its code. -/
theorem hex4_read : ∀ n, n < 32 →
    (hex4 n).mapM hexValue = some [0, 0, n / 16, n % 16] ∧
      (hex4 n).length = 4 ∧ (hex4 n).foldr (fun ch k => ch.utf8Size + k) 0 = 4 := by
  decide

/-- The byte count of a list of characters, as the reader folds it, splits off its start. -/
theorem foldr_utf8Size_add (l : List Char) (x : Nat) :
    l.foldr (fun ch k => ch.utf8Size + k) x = l.foldr (fun ch k => ch.utf8Size + k) 0 + x := by
  induction l with
  | nil => simp
  | cons ch l ih => simp only [List.foldr_cons, ih]; omega

theorem run_hexEscape {c : Cursor} {n : Nat} (hn : n < 32) {more : List Char}
    (hc : c.rest = hex4 n ++ more) :
    ∃ c', c'.rest = more ∧ hexEscape.run c = pure (n, c') := by
  obtain ⟨hmap, hlen, hsize⟩ := hex4_read n hn
  have hsum : 4 ≤ c.rest.foldr (fun ch k => ch.utf8Size + k) 0 := by
    rw [hc, List.foldr_append, foldr_utf8Size_add]
    omega
  have htake : c.rest.take 4 = hex4 n := by
    rw [hc, List.take_append_of_le_length (by omega)]
    simp [← hlen]
  refine ⟨_, Cursor.foldl_advance_rest (hex4 n) hc, ?_⟩
  simp [hexEscape, htake, hmap, Nat.not_lt.2 hsum]
  rw [Nat.div_add_mod']

theorem run_unicodeEscape {c : Cursor} {ch : Char} (hn : ch.toNat < 32) {more : List Char}
    (hc : c.rest = hex4 ch.toNat ++ more) :
    ∃ c', c'.rest = more ∧ unicodeEscape.run c = pure (ch, c') := by
  obtain ⟨c', hrest, hrun⟩ := run_hexEscape hn hc
  refine ⟨c', hrest, ?_⟩
  -- a control character is neither half of a surrogate pair
  have h1 : ¬ (0xDC00 ≤ ch.toNat ∧ ch.toNat ≤ 0xDFFF) := by omega
  have h2 : ch.toNat < 0xD800 ∨ 0xDBFF < ch.toNat := by omega
  simp [unicodeEscape, hrun, h1, h2]

/-- One written character is read back as that character, with one unit of fuel. -/
theorem run_stringBody_escapeChar (fuel : Nat) (acc : List Char) (ch : Char) {more : List Char}
    {c : Cursor} (hc : c.rest = escapeChar ch ++ more) :
    ∃ c', c'.rest = more ∧
      (stringBody (fuel + 1) acc).run c = (stringBody fuel (ch :: acc)).run c' := by
  have h2 : ∀ {a b : Char}, c.rest = [a, b] ++ more → c.advance.advance.rest = more :=
    fun h => Cursor.advance_rest (Cursor.advance_rest h)
  unfold escapeChar at hc
  split at hc
  -- the short escapes `\" \\ \n \r \t \b \f`
  · exact ⟨_, h2 hc, by simp [stringBody, next, peek, bump, hc, Cursor.advance_rest hc]⟩
  · exact ⟨_, h2 hc, by simp [stringBody, next, peek, bump, hc, Cursor.advance_rest hc]⟩
  · exact ⟨_, h2 hc, by simp [stringBody, next, peek, bump, hc, Cursor.advance_rest hc]⟩
  · exact ⟨_, h2 hc, by simp [stringBody, next, peek, bump, hc, Cursor.advance_rest hc]⟩
  · exact ⟨_, h2 hc, by simp [stringBody, next, peek, bump, hc, Cursor.advance_rest hc]⟩
  · exact ⟨_, h2 hc, by simp [stringBody, next, peek, bump, hc, Cursor.advance_rest hc]⟩
  · exact ⟨_, h2 hc, by simp [stringBody, next, peek, bump, hc, Cursor.advance_rest hc]⟩
  · split at hc
    · -- another control character, written `\u00xx`
      rename_i hlow
      have hu : c.advance.advance.rest = hex4 ch.toNat ++ more :=
        Cursor.advance_rest (Cursor.advance_rest hc)
      obtain ⟨c', hrest, hrun⟩ := run_unicodeEscape hlow hu
      exact ⟨c', hrest, by simp [stringBody, next, peek, bump, hc, Cursor.advance_rest hc, hrun]⟩
    · -- any other character stands for itself
      rename_i hhigh
      refine ⟨c.advance, Cursor.advance_rest hc, ?_⟩
      simp [stringBody, next, peek, bump, hc, hhigh]

/-- The rest of a quoted string after its opening quote is read back whole. -/
theorem run_stringBody_quoted (s : List Char) (more : List Char) :
    ∀ (fuel : Nat) (acc : List Char) (c : Cursor), s.length < fuel →
      c.rest = s.flatMap escapeChar ++ '"' :: more →
      ∃ c', c'.rest = more ∧
        (stringBody fuel acc).run c = pure (String.ofList (acc.reverse ++ s), c') := by
  induction s with
  | nil =>
    intro fuel acc c hfuel hc
    obtain ⟨fuel, rfl⟩ : ∃ f, fuel = f + 1 := ⟨fuel - 1, by simp at hfuel; omega⟩
    refine ⟨c.advance, Cursor.advance_rest (by simpa using hc), ?_⟩
    simp_all [stringBody, next, peek, bump]
  | cons ch s ih =>
    intro fuel acc c hfuel hc
    obtain ⟨fuel, rfl⟩ : ∃ f, fuel = f + 1 := ⟨fuel - 1, by simp at hfuel; omega⟩
    rw [List.flatMap_cons, List.append_assoc] at hc
    obtain ⟨c₁, hc₁, hstep⟩ := run_stringBody_escapeChar fuel acc ch hc
    obtain ⟨c', hc', hrun⟩ := ih fuel (ch :: acc) c₁ (by simp at hfuel; omega) hc₁
    exact ⟨c', hc', by rw [hstep, hrun]; simp⟩

/-- Every written character takes at least one character of text. -/
theorem length_le_flatMap_escapeChar (s : List Char) : s.length ≤ (s.flatMap escapeChar).length := by
  induction s with
  | nil => simp
  | cons ch s ih =>
    have : 1 ≤ (escapeChar ch).length := by
      unfold escapeChar
      split <;> try simp
      split <;> simp
    simp only [List.flatMap_cons, List.length_append, List.length_cons]
    omega

/-- A quoted string is read back whole, from just after its opening quote. -/
theorem run_string_quoted (s : String) {more : List Char} {c : Cursor}
    (hc : c.rest = s.toList.flatMap escapeChar ++ '"' :: more) :
    ∃ c', c'.rest = more ∧ string.run c = pure (s, c') := by
  have hlen : s.toList.length < c.rest.length + 1 := by
    have := length_le_flatMap_escapeChar s.toList
    rw [hc, List.length_append, List.length_cons]
    omega
  obtain ⟨c', hc', hrun⟩ := run_stringBody_quoted s.toList more _ [] c hlen hc
  exact ⟨c', hc', by simpa [string] using hrun⟩

/-! ## Objects of strings -/

/-- The reading steps of one member `"key":"value"`: the key's opening quote, the key, the
colon, the value's opening quote and the value. -/
theorem run_member_steps {d : Cursor} {k v : String} {more : List Char}
    (hd : d.rest = memberText k v ++ more) :
    ∃ c₂ c₅, skipBlanks.run d = pure (some '"', d) ∧ string.run d.advance = pure (k, c₂) ∧
      skipBlanks.run c₂ = pure (some ':', c₂) ∧
      skipBlanks.run c₂.advance = pure (some '"', c₂.advance) ∧
      string.run c₂.advance.advance = pure (v, c₅) ∧ c₅.rest = more := by
  simp only [memberText, quote_toList, List.cons_append, List.append_assoc] at hd
  obtain ⟨c₂, hc₂, hk⟩ := run_string_quoted k (Cursor.advance_rest hd)
  have hc₃ := Cursor.advance_rest hc₂
  obtain ⟨c₅, hc₅, hv⟩ := run_string_quoted v (Cursor.advance_rest hc₃)
  exact ⟨c₂, c₅, run_skipBlanks hd (by decide), hk, run_skipBlanks hc₂ (by decide),
    run_skipBlanks hc₃ (by decide), hv, hc₅⟩

/-- One member of an object of strings, with the comma before it when it is not the first, is
read as its field. -/
theorem run_members_member (fuel depth : Nat) (first : Bool) (acc : Fields) (k v : String)
    {more : List Char} {c : Cursor}
    (hc : c.rest = (if first then [] else [',']) ++ memberText k v ++ more) :
    ∃ c', c'.rest = more ∧ (members (fuel + 2) depth .string first acc).run c =
      (members (fuel + 1) depth .string false ((k, .str v) :: acc)).run c' := by
  cases first with
  | true =>
    obtain ⟨c₂, c₅, h₁, hk, h₂, h₃, hv, hc₅⟩ := run_member_steps (by simpa using hc)
    exact ⟨c₅, hc₅, by simp [members, value, bump, h₁, hk, h₂, h₃, hv]⟩
  | false =>
    -- the comma is taken first, then the member is read as the first one is
    have hcomma : c.rest = ',' :: (memberText k v ++ more) := by simpa using hc
    obtain ⟨c₂, c₅, h₁, hk, h₂, h₃, hv, hc₅⟩ := run_member_steps (Cursor.advance_rest hcomma)
    have h₀ : skipBlanks.run c = pure (some ',', c) := run_skipBlanks hcomma (by decide)
    exact ⟨c₅, hc₅, by simp [members, value, bump, h₀, h₁, hk, h₂, h₃, hv]⟩

/-- The closing brace ends the members. -/
theorem run_members_close (fuel depth : Nat) (first : Bool) (acc : Fields) {more : List Char}
    {c : Cursor} (hc : c.rest = '}' :: more) :
    (members (fuel + 1) depth .string first acc).run c = pure (acc.reverse, c) := by
  simp [members, run_skipBlanks hc (by decide)]

/-- The members of an object of strings are read as its fields, in order. -/
theorem run_members (depth : Nat) (more : List Char) (l : List (String × String)) :
    ∀ (fuel : Nat) (first : Bool) (acc : Fields) (c : Cursor), l.length < fuel →
      c.rest = membersText first l ++ '}' :: more →
      ∃ c', c'.rest = '}' :: more ∧ (members fuel depth .string first acc).run c =
        pure (acc.reverse ++ l.map (fun kv => (kv.1, .str kv.2)), c') := by
  induction l with
  | nil =>
    intro fuel first acc c hfuel hc
    obtain ⟨fuel, rfl⟩ : ∃ f, fuel = f + 1 := ⟨fuel - 1, by simp at hfuel; omega⟩
    have hc' : c.rest = '}' :: more := by simpa [membersText] using hc
    exact ⟨c, hc', by simpa using run_members_close fuel depth first acc hc'⟩
  | cons p l ih =>
    intro fuel first acc c hfuel hc
    obtain ⟨k, v⟩ := p
    obtain ⟨fuel, rfl⟩ : ∃ f, fuel = f + 2 := ⟨fuel - 2, by simp at hfuel; omega⟩
    simp only [membersText, List.append_assoc] at hc
    obtain ⟨c₁, hc₁, hstep⟩ :=
      run_members_member fuel depth first acc k v (hc.trans (List.append_assoc _ _ _).symm)
    obtain ⟨c', hc', hrun⟩ := ih (fuel + 1) false ((k, .str v) :: acc) c₁
      (by simp at hfuel; omega) hc₁
    exact ⟨c', hc', by rw [hstep, hrun]; simp⟩

/-- An object of strings, from its opening brace, is read whole. -/
theorem run_openObject (fuel depth : Nat) (hdepth : 1 < depth) (l : List (String × String))
    {more : List Char} {c : Cursor} (hfuel : l.length + 1 < fuel)
    (hc : c.rest = '{' :: (membersText true l ++ '}' :: more)) :
    ∃ c', c'.rest = more ∧ (openObject fuel depth .string).run c =
      pure (.obj (l.map fun kv => (kv.1, .str kv.2)), c') := by
  obtain ⟨fuel, rfl⟩ : ∃ f, fuel = f + 1 := ⟨fuel - 1, by omega⟩
  obtain ⟨c₁, hc₁, hrun⟩ :=
    run_members (depth - 1) more l fuel true [] c.advance (by omega) (Cursor.advance_rest hc)
  refine ⟨c₁.advance, Cursor.advance_rest hc₁, ?_⟩
  have hd : ¬ depth ≤ 1 := by omega
  simp [openObject, hd, bump, hrun, run_skipBlanks hc₁ (by decide)]

end Reader

/-! ## Sorting the fields read -/

/-- Inserting a key above every key of a field list appends it. -/
theorem Fields.insert_of_lt {k : String} {v : Json} {fs : Fields} (h : ∀ kv ∈ fs, kv.1 < k) :
    Fields.insert k v fs = fs ++ [(k, v)] := by
  induction fs with
  | nil => rfl
  | cons kv fs ih =>
    obtain ⟨k', v'⟩ := kv
    have hlt : k' < k := h _ List.mem_cons_self
    simp only [Fields.insert, List.cons_append]
    rw [if_neg (not_lt.2 hlt.le), if_neg (ne_of_gt hlt),
      ih fun kv hkv => h kv (List.mem_cons_of_mem _ hkv)]

/-- Fields already in strictly increasing key order are left as they are. -/
theorem Fields.normalize_of_sorted {fs : Fields} (h : fs.Pairwise (fun a b => a.1 < b.1)) :
    Fields.normalize fs = fs := by
  -- the fold appends each field in turn, since each key is above those before it
  suffices ∀ acc : Fields, (acc ++ fs).Pairwise (fun a b => a.1 < b.1) →
      fs.foldl (fun acc kv => Fields.insert kv.1 kv.2 acc) acc = acc ++ fs by
    simpa [Fields.normalize] using this [] h
  clear h
  induction fs with
  | nil => simp
  | cons kv fs ih =>
    intro acc hsort
    have hlt : ∀ a ∈ acc, a.1 < kv.1 :=
      fun a ha => (List.pairwise_append.1 hsort).2.2 a ha kv List.mem_cons_self
    rw [List.foldl_cons, Fields.insert_of_lt hlt,
      ih (acc ++ [kv]) (by rw [List.append_assoc, List.singleton_append]; exact hsort)]
    simp

/-- Putting in a new key adds its field, somewhere in the order. -/
theorem Fields.insert_perm {k : String} {v : Json} {fs : Fields} (hk : k ∉ fs.map (·.1)) :
    (Fields.insert k v fs).Perm ((k, v) :: fs) := by
  induction fs with
  | nil => exact .refl _
  | cons kv rest ih =>
    obtain ⟨k', v'⟩ := kv
    have hne : k ≠ k' := fun h => hk (h ▸ List.mem_cons_self ..)
    have hrest : k ∉ rest.map (·.1) := fun h => hk (List.mem_cons_of_mem _ h)
    simp only [Fields.insert]
    split_ifs with hlt
    · exact .refl _
    · -- past a smaller key, the field goes in further on
      exact ((ih hrest).cons _).trans (.swap _ _ _)

/-- Fields with distinct keys are only reordered by sorting. -/
theorem Fields.normalize_perm {fs : Fields} (hfs : (fs.map (·.1)).Nodup) :
    (Fields.normalize fs).Perm fs := by
  -- the fold puts each field among those before it, none of which has its key
  suffices ∀ acc : Fields, (fs.map (·.1) ++ acc.map (·.1)).Nodup →
      (fs.foldl (fun acc kv => Fields.insert kv.1 kv.2 acc) acc).Perm (fs.reverse ++ acc) by
    have h := this [] (by simpa using hfs)
    rw [List.append_nil] at h
    exact h.trans (List.reverse_perm fs)
  clear hfs
  induction fs with
  | nil => intro acc _; exact .refl _
  | cons kv rest ih =>
    intro acc hnd
    obtain ⟨hk, hnd'⟩ := List.nodup_cons.1 hnd
    have hins := @Fields.insert_perm kv.1 kv.2 acc fun h => hk (List.mem_append_right _ h)
    have hnd'' : (rest.map (·.1) ++ (Fields.insert kv.1 kv.2 acc).map (·.1)).Nodup :=
      (((hins.map _).append_left _).trans (by simp [List.perm_middle])).nodup_iff.2
        (List.nodup_cons.2 ⟨hk, hnd'⟩)
    simpa using (ih _ hnd'').trans (hins.append_left _)

/-! ## The round trip -/

/-- A databag written as JSON is read back as its own pairs. -/
theorem readStringMap_toText (d : Databag) :
    readStringMap d.toText = .ok d.entries := by
  have hstart : (Cursor.start d.toText).rest = '{' :: (membersText true d.entries ++ ['}']) := by
    rw [Cursor.start_rest, toText_toList]
  have hlen := length_le_membersText true d.entries
  obtain ⟨c', hc', hrun⟩ := Reader.run_openObject (2 * d.toText.toList.length + 3) 128
    (by decide) d.entries (by rw [toText_toList]; simp; omega) hstart
  have hvalue : (Reader.value (2 * d.toText.toList.length + 4) 128 .stringMap).run
      (Cursor.start d.toText) =
      pure (.obj (d.entries.map fun kv => (kv.1, .str kv.2)), c') := by
    simp [Reader.value, Reader.run_skipBlanks hstart (by decide), hrun]
  have hsorted : (d.entries.map fun kv => (kv.1, Json.str kv.2)).Pairwise
      (fun a b => a.1 < b.1) := List.pairwise_map.2 d.sorted
  have hwhole : (Reader.whole .stringMap).run' (Cursor.start d.toText) =
      .ok (.obj (d.entries.map fun kv => (kv.1, .str kv.2))) := by
    simp [Reader.whole, hvalue, Reader.run_skipBlanks_nil hc']
    rfl
  rw [readStringMap, hwhole]
  simp only [Fields.normalize_of_sorted hsorted, List.map_map]
  exact congrArg Except.ok (List.map_id _)

end Json

end ShareBroker
