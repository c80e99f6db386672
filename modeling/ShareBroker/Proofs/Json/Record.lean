import ShareBroker.Proofs.Json.StringMap

/-!
# Reading back a written record

A record is written as a compact JSON object, `Json.write`, and read by `Json.readRecord`,
which keeps the fields it knows, as written and in written order. The records the interfaces
publish hold strings and arrays of strings (`Json.Flat`). The main statement,
`readRecord_write`, is that such a record whose every field is known reads back as itself,
whatever characters its keys and strings hold.

The proof follows the reader along the written text, as for objects of strings
(`readStringMap_toText`), one lemma per kind of value:

* `run_value_str`: a string, at its opening quote;
* `run_items`, `run_openArray`: the items of an array of strings, and the array;
* `run_members_record`: the fields of a record, each with its known key.

The reader's fuel is bounded by the length of the text, which is always enough.
-/

namespace ShareBroker

namespace Json

/-- A value the record reader reads back as written: a string, or an array of strings. -/
inductive Flat : Json → Prop
  | str (s : String) : Flat (.str s)
  | strings (l : List String) : Flat (.ofStrings l)

/-! ## The written text -/

/-- The text of the items of an array of strings, with a comma before each item but the first
one of the array. -/
def itemsText : Bool → List String → List Char
  | _, [] => []
  | first, s :: l => (if first then [] else [',']) ++ (quote s).toList ++ itemsText false l

/-- The text of one field of an object: `"key":value`. -/
def fieldText (k : String) (v : Json) : List Char := (quote k).toList ++ ':' :: v.write.toList

/-- The text of the fields of an object, with a comma before each field but the first one of
the object. -/
def fieldsText : Bool → List (String × Json) → List Char
  | _, [] => []
  | first, (k, v) :: l => (if first then [] else [',']) ++ fieldText k v ++ fieldsText false l

theorem itemsText_toList (l : List String) :
    (writeItems (l.map Json.str)).toList = itemsText true l := by
  induction l with
  | nil => simp [writeItems, itemsText]
  | cons s l ih =>
    cases l with
    | nil => simp [writeItems, itemsText, Json.write]
    | cons s' l' =>
      simp only [List.map_cons] at ih ⊢
      rw [writeItems.eq_3 _ _ (List.cons_ne_nil _ _)]
      simp only [itemsText, String.toList_append, Json.write, ih, ite_true, List.nil_append,
        List.append_assoc]
      simp

theorem fieldsText_toList (l : List (String × Json)) : (writeFields l).toList = fieldsText true l := by
  induction l with
  | nil => simp [writeFields, fieldsText]
  | cons p l ih =>
    obtain ⟨k, v⟩ := p
    cases l with
    | nil => simp [writeFields, fieldsText, fieldText]
    | cons p' l' =>
      rw [writeFields.eq_3 _ _ _ (List.cons_ne_nil _ _)]
      obtain ⟨k', v'⟩ := p'
      simp only [fieldsText, String.toList_append, ih, fieldText, ite_true, List.nil_append,
        List.append_assoc]
      simp

theorem ofStrings_write_toList (l : List String) :
    (Json.ofStrings l).write.toList = '[' :: (itemsText true l ++ [']']) := by
  simp [Json.ofStrings, Json.write, itemsText_toList]

theorem obj_write_toList (fs : List (String × Json)) :
    (Json.obj fs).write.toList = '{' :: (fieldsText true fs ++ ['}']) := by
  simp [Json.write, fieldsText_toList]

theorem length_le_itemsText (first : Bool) (l : List String) :
    l.length ≤ (itemsText first l).length := by
  induction l generalizing first with
  | nil => simp [itemsText]
  | cons s l ih =>
    have := ih false
    simp only [itemsText, quote_toList, List.length_append, List.length_cons]
    omega

/-- A field's value takes three characters fewer than the field, at least: the key's quotes
and the colon. -/
theorem length_write_lt_fieldText (k : String) (v : Json) :
    v.write.toList.length + 3 ≤ (fieldText k v).length := by
  simp only [fieldText, quote_toList, List.length_append, List.length_cons]
  omega

namespace Reader

/-! ## Strings and arrays of strings -/

/-- A string is read back as a value, from its opening quote. -/
theorem run_value_str (fuel depth : Nat) (s : String) {more : List Char} {c : Cursor}
    (hc : c.rest = (quote s).toList ++ more) :
    ∃ c', c'.rest = more ∧ (value (fuel + 1) depth .any).run c = pure (.str s, c') := by
  rw [quote_toList, List.cons_append, List.append_assoc] at hc
  obtain ⟨c', hc', hs⟩ := run_string_quoted s (Cursor.advance_rest hc)
  exact ⟨c', hc', by simp [value, bump, run_skipBlanks hc (by decide), hs]⟩

/-- One item of an array of strings, with the comma before it when it is not the first, is
read as a string. -/
theorem run_items_item (fuel depth : Nat) (first : Bool) (acc : List Json) (s : String)
    {more : List Char} {c : Cursor}
    (hc : c.rest = (if first then [] else [',']) ++ (quote s).toList ++ more) :
    ∃ c', c'.rest = more ∧ (items (fuel + 2) depth first acc).run c =
      (items (fuel + 1) depth false (.str s :: acc)).run c' := by
  have hquote : ∀ {d : Cursor}, d.rest = (quote s).toList ++ more →
      skipBlanks.run d = pure (some '"', d) := fun hd =>
    run_skipBlanks (by rw [hd, quote_toList]; rfl) (by decide)
  rw [items.eq_2 depth first acc (fuel + 1)]
  cases first with
  | true =>
    have hd : c.rest = (quote s).toList ++ more := by simpa using hc
    obtain ⟨c₁, hc₁, hv⟩ := run_value_str fuel depth s hd
    exact ⟨c₁, hc₁, by simp [hquote hd, hv]⟩
  | false =>
    -- the comma is taken first, then the item is read as the first one is
    have hcomma : c.rest = ',' :: ((quote s).toList ++ more) := by simpa using hc
    have hd := Cursor.advance_rest hcomma
    obtain ⟨c₁, hc₁, hv⟩ := run_value_str fuel depth s hd
    exact ⟨c₁, hc₁, by simp [bump, run_skipBlanks hcomma (by decide), hquote hd, hv]⟩

/-- The items of an array of strings are read as strings, in order. -/
theorem run_items (depth : Nat) (more : List Char) (l : List String) :
    ∀ (fuel : Nat) (first : Bool) (acc : List Json) (c : Cursor), l.length < fuel →
      c.rest = itemsText first l ++ ']' :: more →
      ∃ c', c'.rest = ']' :: more ∧
        (items fuel depth first acc).run c = pure (acc.reverse ++ l.map .str, c') := by
  induction l with
  | nil =>
    intro fuel first acc c hfuel hc
    obtain ⟨fuel, rfl⟩ : ∃ f, fuel = f + 1 := ⟨fuel - 1, by simp at hfuel; omega⟩
    have hc' : c.rest = ']' :: more := by simpa [itemsText] using hc
    exact ⟨c, hc', by simp [items, run_skipBlanks hc' (by decide)]⟩
  | cons s l ih =>
    intro fuel first acc c hfuel hc
    obtain ⟨fuel, rfl⟩ : ∃ f, fuel = f + 2 := ⟨fuel - 2, by simp at hfuel; omega⟩
    simp only [itemsText, List.append_assoc] at hc
    obtain ⟨c₁, hc₁, hstep⟩ :=
      run_items_item fuel depth first acc s (hc.trans (List.append_assoc _ _ _).symm)
    obtain ⟨c', hc', hrun⟩ := ih (fuel + 1) false (.str s :: acc) c₁
      (by simp at hfuel; omega) hc₁
    exact ⟨c', hc', by rw [hstep, hrun]; simp⟩

/-- An array of strings, from its opening bracket, is read whole. -/
theorem run_openArray (fuel depth : Nat) (hdepth : 1 < depth) (l : List String)
    {more : List Char} {c : Cursor} (hfuel : l.length + 1 < fuel)
    (hc : c.rest = '[' :: (itemsText true l ++ ']' :: more)) :
    ∃ c', c'.rest = more ∧ (openArray fuel depth).run c = pure (.ofStrings l, c') := by
  obtain ⟨fuel, rfl⟩ : ∃ f, fuel = f + 1 := ⟨fuel - 1, by omega⟩
  obtain ⟨c₁, hc₁, hrun⟩ :=
    run_items (depth - 1) more l fuel true [] c.advance (by omega) (Cursor.advance_rest hc)
  refine ⟨c₁.advance, Cursor.advance_rest hc₁, ?_⟩
  have hd : ¬ depth ≤ 1 := by omega
  simp [openArray, hd, bump, hrun, run_skipBlanks hc₁ (by decide), Json.ofStrings]

/-- A string or an array of strings is read back as a value, with fuel for its text. -/
theorem run_value_flat {v : Json} (hv : Flat v) (fuel depth : Nat) (hdepth : 1 < depth)
    {more : List Char} {c : Cursor} (hfuel : v.write.toList.length + 1 < fuel)
    (hc : c.rest = v.write.toList ++ more) :
    ∃ c', c'.rest = more ∧ (value fuel depth .any).run c = pure (v, c') := by
  obtain ⟨fuel, rfl⟩ : ∃ f, fuel = f + 1 := ⟨fuel - 1, by omega⟩
  cases hv with
  | str s => exact run_value_str fuel depth s hc
  | strings l =>
    rw [ofStrings_write_toList] at hc hfuel
    have hlen := length_le_itemsText true l
    simp only [List.cons_append, List.append_assoc] at hc
    obtain ⟨c', hc', harr⟩ := run_openArray fuel depth hdepth l (by simp at hfuel; omega) hc
    exact ⟨c', hc', by simp [value, run_skipBlanks hc (by decide), harr]⟩

/-! ## Records -/

/-- One known field holding a string or an array of strings, with the comma before it when it
is not the first, is read as written. -/
theorem run_members_field (fuel depth : Nat) (hdepth : 1 < depth) (known : List String)
    (first : Bool) (acc : Fields) {k : String} {v : Json} (hk : k ∈ known) (hv : Flat v)
    {more : List Char} {c : Cursor} (hfuel : v.write.toList.length + 1 < fuel)
    (hc : c.rest = (if first then [] else [',']) ++ fieldText k v ++ more) :
    ∃ c', c'.rest = more ∧ (members (fuel + 1) depth (.record known) first acc).run c =
      (members fuel depth (.record known) false ((k, v) :: acc)).run c' := by
  -- the field's own text: the key, the colon and the value
  have hfield : ∀ {d : Cursor}, d.rest = fieldText k v ++ more →
      ∃ c₁, c₁.rest = more ∧ skipBlanks.run d = pure (some '"', d) ∧
        ∃ c₂, string.run d.advance = pure (k, c₂) ∧ skipBlanks.run c₂ = pure (some ':', c₂) ∧
          (value fuel depth .any).run c₂.advance = pure (v, c₁) := by
    intro d hd
    simp only [fieldText, quote_toList, List.cons_append, List.append_assoc] at hd
    obtain ⟨c₂, hc₂, hkey⟩ := run_string_quoted k (Cursor.advance_rest hd)
    obtain ⟨c₁, hc₁, hval⟩ := run_value_flat hv fuel depth hdepth hfuel (Cursor.advance_rest hc₂)
    exact ⟨c₁, hc₁, run_skipBlanks hd (by decide), c₂, hkey, run_skipBlanks hc₂ (by decide), hval⟩
  rw [members.eq_2 depth (.record known) first acc fuel]
  cases first with
  | true =>
    obtain ⟨c₁, hc₁, h₁, c₂, hkey, h₂, hval⟩ := hfield (by simpa using hc)
    exact ⟨c₁, hc₁, by simp [bump, h₁, hkey, h₂, hk, hval]⟩
  | false =>
    have hcomma : c.rest = ',' :: (fieldText k v ++ more) := by simpa using hc
    obtain ⟨c₁, hc₁, h₁, c₂, hkey, h₂, hval⟩ := hfield (Cursor.advance_rest hcomma)
    exact ⟨c₁, hc₁, by
      simp [bump, run_skipBlanks hcomma (by decide), h₁, hkey, h₂, hk, hval]⟩

/-- The fields of a record, each known and holding a string or an array of strings, are read
as written, in order. -/
theorem run_members_record (depth : Nat) (hdepth : 1 < depth) (known : List String)
    (more : List Char) (fs : List (String × Json)) (hfs : ∀ kv ∈ fs, kv.1 ∈ known ∧ Flat kv.2) :
    ∀ (fuel : Nat) (first : Bool) (acc : Fields) (c : Cursor),
      (fieldsText first fs).length + 2 < fuel →
      c.rest = fieldsText first fs ++ '}' :: more →
      ∃ c', c'.rest = '}' :: more ∧
        (members fuel depth (.record known) first acc).run c = pure (acc.reverse ++ fs, c') := by
  induction fs with
  | nil =>
    intro fuel first acc c hfuel hc
    obtain ⟨fuel, rfl⟩ : ∃ f, fuel = f + 1 := ⟨fuel - 1, by omega⟩
    have hc' : c.rest = '}' :: more := by simpa [fieldsText] using hc
    exact ⟨c, hc', by simp [members, run_skipBlanks hc' (by decide)]⟩
  | cons p fs ih =>
    intro fuel first acc c hfuel hc
    obtain ⟨k, v⟩ := p
    obtain ⟨hk, hv⟩ : k ∈ known ∧ Flat v := hfs (k, v) List.mem_cons_self
    obtain ⟨fuel, rfl⟩ : ∃ f, fuel = f + 1 := ⟨fuel - 1, by omega⟩
    -- the value's text and the rest of the fields are shorter than the fields' text
    have hwrite := length_write_lt_fieldText k v
    have hlen : (fieldsText first ((k, v) :: fs)).length =
        (if first then 0 else 1) + (fieldText k v).length + (fieldsText false fs).length := by
      cases first
      · simp [fieldsText]
        omega
      · simp [fieldsText]
    simp only [fieldsText, List.append_assoc] at hc
    obtain ⟨c₁, hc₁, hstep⟩ := run_members_field fuel depth hdepth known first acc hk hv
      (by split at hlen <;> omega) (hc.trans (List.append_assoc _ _ _).symm)
    obtain ⟨c', hc', hrun⟩ := ih (fun kv hkv => hfs kv (List.mem_cons_of_mem _ hkv)) fuel false
      ((k, v) :: acc) c₁ (by split at hlen <;> omega) hc₁
    exact ⟨c', hc', by rw [hstep, hrun]; simp⟩

/-- A record, from its opening brace, is read whole. -/
theorem run_openObject_record (fuel depth : Nat) (hdepth : 2 < depth) (known : List String)
    (fs : List (String × Json)) (hfs : ∀ kv ∈ fs, kv.1 ∈ known ∧ Flat kv.2) {more : List Char}
    {c : Cursor} (hfuel : (fieldsText true fs).length + 3 < fuel)
    (hc : c.rest = '{' :: (fieldsText true fs ++ '}' :: more)) :
    ∃ c', c'.rest = more ∧ (openObject fuel depth (.record known)).run c = pure (.obj fs, c') := by
  obtain ⟨fuel, rfl⟩ : ∃ f, fuel = f + 1 := ⟨fuel - 1, by omega⟩
  obtain ⟨c₁, hc₁, hrun⟩ := run_members_record (depth - 1) (by omega) known more fs hfs fuel true
    [] c.advance (by omega) (Cursor.advance_rest hc)
  refine ⟨c₁.advance, Cursor.advance_rest hc₁, ?_⟩
  have hd : ¬ depth ≤ 1 := by omega
  simp [openObject, hd, bump, hrun, run_skipBlanks hc₁ (by decide)]

end Reader

/-- A record whose every field is known and holds a string or an array of strings is read back
as written. -/
theorem readRecord_write {known : List String} {fs : List (String × Json)}
    (hfs : ∀ kv ∈ fs, kv.1 ∈ known ∧ Flat kv.2) :
    readRecord known (Json.obj fs).write = .ok (.obj fs) := by
  have hstart : (Cursor.start (Json.obj fs).write).rest =
      '{' :: (fieldsText true fs ++ ['}']) := by
    rw [Cursor.start_rest, obj_write_toList]
  have hlen : ((Json.obj fs).write.toList).length = (fieldsText true fs).length + 2 := by
    rw [obj_write_toList]
    simp
  obtain ⟨c', hc', hrun⟩ := Reader.run_openObject_record
    (2 * (Json.obj fs).write.toList.length + 3) 128 (by decide) known fs hfs (by omega) hstart
  have hvalue : (Reader.value (2 * (Json.obj fs).write.toList.length + 4) 128 (.record known)).run
      (Cursor.start (Json.obj fs).write) = pure (.obj fs, c') := by
    simp [Reader.value, Reader.run_skipBlanks hstart (by decide), hrun]
  simp [readRecord, Reader.whole, hvalue, Reader.run_skipBlanks_nil hc']
  rfl

end Json

end ShareBroker
