import ShareBroker.Proofs.Json.RoundTrip
import ShareBroker.Proofs.Host.Views
import ShareBroker.Record.Codec

/-!
# Records through the per-field codec

`Record.save` stores each field of an object under its key as the field's text, and
`Record.load` reads the non-reserved keys back and decodes the object they form. For objects
whose fields are plain values (`Json.Plain`) under keys that are not reserved, the codec is
the identity exactly as far as the reader is (`Json.Plain.read_write_eq_ok_iff`): a field whose
containers nest 128 deep is refused.

* `Record.fields_eq_ok_iff`: what reading the fields of a databag gives, key by key;
* `Record.save_plain`, `Record.load_save_plain_iff`: the saved entries, and when they load back;
* `Record.load_dataOnly`: reserved keys play no part in loading;
* `Record.load_eq_ok_iff`: a record whose fields are in a databag loads from it exactly when
  every other non-reserved value reads as JSON, since its decoder skips the fields it does not
  know (`Fields.exists_collect`) but loading reads them all;
* `Record.load_save_eq`, `Record.load_merge_save_iff`: saved alone, or merged over a databag;
* `MountInfo.load_save`, `MountInfo.load_merge_save_iff`: the same for a mount request.
-/

namespace ShareBroker

namespace Record

/-! ## Reading the fields of a databag -/

/-- A walk over a list succeeds exactly when each step succeeds, with what the steps give. -/
theorem mapM_eq_ok_iff {α β ε : Type} {f : α → Except ε β} {l : List α} {bs : List β} :
    l.mapM f = .ok bs ↔ List.Forall₂ (fun a b => f a = .ok b) l bs := by
  induction l generalizing bs with
  | nil => cases bs <;> simp [pure, Except.pure]
  | cons a l ih =>
    rw [List.mapM_cons]
    cases h : f a with
    | error e => cases bs <;> simp [bind, Except.bind, h]
    | ok b =>
      cases ht : l.mapM f with
      | error e => cases bs <;> simp [bind, Except.bind, ← ih, ht, h]
      | ok bs' => cases bs <;> simp [bind, Except.bind, pure, Except.pure, ← ih, ht, h]

theorem exists_forall₂ {α β : Type} {R : α → β → Prop} {l : List α}
    (h : ∀ a ∈ l, ∃ b, R a b) : ∃ bs, List.Forall₂ R l bs := by
  induction l with
  | nil => exact ⟨[], .nil⟩
  | cons a l ih =>
    obtain ⟨b, hb⟩ := h a List.mem_cons_self
    obtain ⟨bs, hbs⟩ := ih fun a' ha' => h a' (List.mem_cons_of_mem _ ha')
    exact ⟨b :: bs, .cons hb hbs⟩

theorem Forall₂.exists_mem {α β : Type} {R : α → β → Prop} {l : List α} {bs : List β}
    (h : List.Forall₂ R l bs) {a : α} (ha : a ∈ l) : ∃ b ∈ bs, R a b := by
  induction h with
  | nil => simp at ha
  | cons hab _ ih =>
    rcases List.mem_cons.1 ha with rfl | ha
    · exact ⟨_, List.mem_cons_self, hab⟩
    · obtain ⟨b, hb, hr⟩ := ih ha
      exact ⟨b, List.mem_cons_of_mem _ hb, hr⟩

/-- How an entry of a databag is read: under its key, as the value its text reads as. -/
def ReadsAs (kv : String × String) (g : String × Json) : Prop :=
  g.1 = kv.1 ∧ Json.read kv.2 = .ok g.2

theorem Forall₂.keys_eq {l : List (String × String)} {gs : Json.Fields}
    (h : List.Forall₂ ReadsAs l gs) : gs.map (·.1) = l.map (·.1) := by
  induction h with
  | nil => rfl
  | cons hab _ ih => simp [ih, hab.1]

/-- A walk over a list gives `bs` exactly when the steps relate each item to the value in the
same place of `bs`, for a relation that says when a step gives a value. -/
theorem mapM_eq_ok_iff_of {α β ε : Type} {f : α → Except ε β} {R : α → β → Prop}
    (hf : ∀ a b, f a = .ok b ↔ R a b) {l : List α} {bs : List β} :
    l.mapM f = .ok bs ↔ List.Forall₂ R l bs := by
  rw [mapM_eq_ok_iff]
  exact ⟨fun h => h.imp fun a b => (hf a b).1, fun h => h.imp fun a b => (hf a b).2⟩

/-- The fields read from a databag are its non-reserved entries, each read as JSON, in order. -/
theorem fields_eq_ok_iff {d : Databag} {gs : Json.Fields} :
    fields d = .ok (.obj gs) ↔ List.Forall₂ ReadsAs (dataOnly d).entries gs := by
  have hobj : ∀ x : Outcome Json.Fields,
      (x >>= fun fs => pure (Json.obj fs)) = .ok (.obj gs) ↔ x = .ok gs := by
    intro x
    cases x <;> simp [bind, Except.bind, pure, Except.pure]
  unfold fields
  rw [hobj]
  -- reading one entry succeeds with the field exactly when its text reads
  refine mapM_eq_ok_iff_of fun kv g => ?_
  obtain ⟨k, w⟩ := kv
  obtain ⟨k', j⟩ := g
  cases h : Json.read w <;> simp [ReadsAs, h, eq_comm]

/-- A databag whose non-reserved values all read as JSON has its fields read. -/
theorem exists_fields_eq_ok {d : Databag}
    (h : ∀ kv ∈ (dataOnly d).entries, ∃ j, Json.read kv.2 = .ok j) :
    ∃ gs, fields d = .ok (.obj gs) ∧ List.Forall₂ ReadsAs (dataOnly d).entries gs := by
  obtain ⟨gs, hgs⟩ := @exists_forall₂ _ _ ReadsAs _ fun kv hkv => by
    obtain ⟨j, hj⟩ := h kv hkv
    exact ⟨(kv.1, j), rfl, hj⟩
  exact ⟨gs, fields_eq_ok_iff.2 hgs, hgs⟩

/-- What reading the fields gives is an object. -/
theorem eq_obj_of_fields {d : Databag} {j : Json} (h : fields d = .ok j) : ∃ gs, j = .obj gs := by
  unfold fields at h
  revert h
  generalize (List.mapM _ _ : Outcome Json.Fields) = x
  cases x with
  | error e => simp [bind, Except.bind]
  | ok gs =>
    rintro ⟨⟩
    exact ⟨gs, rfl⟩

/-- A databag whose non-reserved values all read as JSON has its fields read: distinct keys,
each with the value its text reads as. -/
theorem exists_fields_of_reads {d : Databag}
    (hread : ∀ k w, (dataOnly d).get? k = some w → ∃ j, Json.read w = .ok j) :
    ∃ gs, fields d = .ok (.obj gs) ∧ (gs.map (·.1)).Nodup ∧
      ∀ k w j, (dataOnly d).get? k = some w → Json.read w = .ok j → (k, j) ∈ gs := by
  obtain ⟨gs, hf, hgs⟩ := exists_fields_eq_ok fun kv hkv =>
    hread kv.1 kv.2 ((Databag.get?_eq_some_iff_mem _).2 hkv)
  refine ⟨gs, hf, ?_, fun k w j hget hj => ?_⟩
  · rw [Forall₂.keys_eq hgs]
    exact (dataOnly d).keys_sorted.imp ne_of_lt
  · obtain ⟨g, hg, hk, hr⟩ := Forall₂.exists_mem hgs ((Databag.get?_eq_some_iff_mem _).1 hget)
    rw [hj] at hr
    cases hr
    obtain ⟨k', j'⟩ := g
    simp only at hk
    rw [hk] at hg
    exact hg

/-! ## Loading -/

/-- Loading a JSON value is reading the fields. -/
theorem load_ok (d : Databag) : load (fun j => .ok j) d = fields d := by
  unfold load
  cases fields d <;> rfl

theorem load_eq_ok {α : Type} {decode : Json → Except DecodeError α} {d : Databag} {j : Json}
    {a : α} (hf : fields d = .ok j) (hdec : decode j = .ok a) : load decode d = .ok a := by
  unfold load
  rw [hf]
  simp [bind, Except.bind, hdec]

theorem load_ne_ok {α : Type} {decode : Json → Except DecodeError α} {d : Databag}
    (h : ∀ j, fields d ≠ .ok j) (a : α) : load decode d ≠ .ok a := by
  unfold load
  cases hf : fields d with
  | error e => simp [bind, Except.bind]
  | ok j => exact absurd hf (h j)

theorem dataOnly_dataOnly (d : Databag) : dataOnly (dataOnly d) = dataOnly d := by
  simp [dataOnly, Databag.filterKeys, List.filter_filter]

/-- Reserved keys are left out of loading, so dropping them first changes nothing. -/
theorem load_dataOnly {α : Type} (decode : Json → Except DecodeError α) (d : Databag) :
    load decode (dataOnly d) = load decode d := by
  simp only [load, fields, dataOnly_dataOnly]

/-! ## Saving -/

/-- For distinct keys, each key of a saved object holds the text of its field. -/
theorem get?_save {fs : Json.Fields} (hnd : (fs.map (·.1)).Nodup) {d : Databag}
    (hd : save (.obj fs) = .ok d) (k : String) : d.get? k = (Json.Fields.find? fs k).map Json.write := by
  simp only [save, Except.ok.injEq] at hd
  subst hd
  rw [Databag.get?_ofList_of_nodup (by simpa [List.map_map, Function.comp_def] using hnd)]
  simp [Databag.lookupIn, Json.Fields.find?, List.find?_map, Function.comp_def]

/-- Saving an object whose keys are in order gives the texts of its fields, in that order. -/
theorem save_obj_sorted {fs : Json.Fields} (hkeys : fs.Pairwise (fun a b => a.1 < b.1)) :
    ∃ d, save (.obj fs) = .ok d ∧ d.entries = fs.map fun kv => (kv.1, kv.2.write) := by
  let d : Databag := ⟨fs.map fun kv => (kv.1, kv.2.write), List.pairwise_map.2 hkeys⟩
  exact ⟨d, congrArg Except.ok (Databag.ofList_entries d), rfl⟩

/-! ## Plain objects -/

/-- A plain object is saved one field per key, each value the text of the field, never
empty. -/
theorem save_plain {fs : Json.Fields} (hv : Json.Plain (.obj fs)) :
    ∃ d, save (.obj fs) = .ok d ∧ d.entries = fs.map (fun kv => (kv.1, kv.2.write)) ∧
      d.NoEmpty := by
  cases hv with
  | obj _ hkeys hplain =>
    obtain ⟨d, hsave, hd⟩ := save_obj_sorted hkeys
    refine ⟨d, hsave, hd, fun e he => ?_⟩
    obtain ⟨kv, hkv, rfl⟩ := List.mem_map.1 (hd ▸ he)
    exact (hplain kv hkv).write_ne_empty

/-- A plain object whose keys are not reserved loads back as itself exactly when none of its
fields nests 128 containers deep. -/
theorem load_save_plain_iff {fs : Json.Fields} (hv : Json.Plain (.obj fs))
    (hres : ∀ kv ∈ fs, isReserved kv.1 = false) :
    (save (.obj fs) >>= load fun j => .ok j) = .ok (.obj fs) ↔ ∀ kv ∈ fs, kv.2.depth < 128 := by
  cases hv with
  | obj _ hkeys hplain =>
    obtain ⟨d, hsave, hd⟩ := save_obj_sorted hkeys
    -- no key is reserved, so every saved entry is read
    have hdata : (dataOnly d).entries = d.entries := by
      simp only [dataOnly, Databag.filterKeys]
      exact List.filter_eq_self.2 fun e he => by
        obtain ⟨kv, hkv, rfl⟩ := List.mem_map.1 (hd ▸ he)
        simp [hres kv hkv]
    rw [hsave]
    simp only [bind, Except.bind]
    rw [load_ok, fields_eq_ok_iff, hdata, hd, List.forall₂_map_left_iff, List.forall₂_same]
    -- each field reads back exactly when it is shallow enough
    refine forall₂_congr fun kv hkv => ?_
    simp only [ReadsAs, true_and]
    exact (hplain kv hkv).read_write_eq_ok_iff

/-- Where the fields of a record are found in a databag, each as its text, loading it with a
decoder that accepts any object holding those fields succeeds exactly when every non-reserved
value of the databag reads as JSON. -/
theorem load_eq_ok_iff {α : Type} {decode : Json → Except DecodeError α} {x : α}
    {fs : Json.Fields} {d : Databag}
    (hfs : ∀ k j, Json.Fields.find? fs k = some j →
      (dataOnly d).get? k = some j.write ∧ Json.read j.write = .ok j)
    (hdec : ∀ gs : Json.Fields, (gs.map (·.1)).Nodup →
      (∀ k j, Json.Fields.find? fs k = some j → (k, j) ∈ gs) → decode (.obj gs) = .ok x) :
    load decode d = .ok x ↔ ∀ k w, (dataOnly d).get? k = some w → ∃ j, Json.read w = .ok j := by
  constructor
  · intro hload k w hw
    -- loading reads every field before decoding
    cases hf : fields d with
    | error e => exact absurd hload (load_ne_ok (by simp [hf]) x)
    | ok j =>
      obtain ⟨gs, rfl⟩ := eq_obj_of_fields hf
      obtain ⟨g, -, -, hread⟩ := Forall₂.exists_mem (fields_eq_ok_iff.1 hf)
        ((Databag.get?_eq_some_iff_mem _).1 hw)
      exact ⟨_, hread⟩
  · intro hread
    obtain ⟨gs, hgs, hgnd, hmem⟩ := exists_fields_of_reads hread
    exact load_eq_ok hgs (hdec gs hgnd fun k j hj => hmem k _ j (hfs k j hj).1 (hfs k j hj).2)

section Saved

variable {α : Type} {decode : Json → Except DecodeError α} {x : α} {fs : Json.Fields}

/-- Saving an object with distinct keys, whose fields are plain, shallow and not reserved,
over a databag `B` and loading the result back gives the record exactly when every
non-reserved value of `B` under a key the object lacks reads as JSON: the codec reads every
key of the databag, not only the record's. -/
theorem load_merge_save_iff (hnd : (fs.map (·.1)).Nodup)
    (hfs : ∀ k j, Json.Fields.find? fs k = some j →
      Json.Plain j ∧ j.depth < 128 ∧ isReserved k = false)
    (hdec : ∀ gs : Json.Fields, (gs.map (·.1)).Nodup →
      (∀ k j, Json.Fields.find? fs k = some j → (k, j) ∈ gs) → decode (.obj gs) = .ok x)
    (B : Databag) :
    (save (.obj fs) >>= fun d => load decode (B.merge d)) = .ok x ↔
      ∀ k w, B.get? k = some w → isReserved k = false → Json.Fields.find? fs k = none →
        ∃ j, Json.read w = .ok j := by
  have hsave : save (.obj fs) = .ok (Databag.ofList (fs.map fun kv => (kv.1, kv.2.write))) := rfl
  have hget := get?_save hnd hsave
  -- the merged databag holds each field's text, and `B`'s value under every other key
  have hfield : ∀ k j, Json.Fields.find? fs k = some j →
      (B.merge (Databag.ofList (fs.map fun kv => (kv.1, kv.2.write)))).get? k = some j.write := by
    intro k j hj
    rw [Databag.get?_merge_of_some (by rw [hget, hj, Option.map_some]),
      if_neg (hfs k j hj).1.write_ne_empty]
  have hother : ∀ k, Json.Fields.find? fs k = none →
      (B.merge (Databag.ofList (fs.map fun kv => (kv.1, kv.2.write)))).get? k = B.get? k :=
    fun k hk => Databag.get?_merge_of_none (by rw [hget, hk, Option.map_none]) B
  have hfound : ∀ k j, Json.Fields.find? fs k = some j →
      (dataOnly (B.merge (Databag.ofList (fs.map fun kv => (kv.1, kv.2.write))))).get? k =
        some j.write ∧ Json.read j.write = .ok j := by
    intro k j hj
    obtain ⟨hplain, hdepth, hres⟩ := hfs k j hj
    exact ⟨by rw [Databag.get?_dataOnly, hres, if_neg Bool.false_ne_true, hfield k j hj],
      hplain.read_write hdepth⟩
  simp only [hsave, bind, Except.bind]
  -- loading needs every data value of the merge to read; the record's own keys hold its
  -- fields, which do, so what is asked of is `B`'s data under the other keys
  rw [load_eq_ok_iff hfound hdec]
  constructor
  · intro hall k w hw hres hnone
    exact hall k w (by rw [Databag.get?_dataOnly, hres, if_neg Bool.false_ne_true, hother k hnone, hw])
  · intro hall k w hw
    rw [Databag.get?_dataOnly] at hw
    split at hw
    · cases hw
    · rename_i hres
      cases hf : Json.Fields.find? fs k with
      | some j =>
        rw [hfield k j hf, Option.some.injEq] at hw
        exact ⟨j, hw ▸ (hfound k j hf).2⟩
      | none =>
        rw [hother k hf] at hw
        exact hall k w hw (by simpa using hres) hf

/-- Such an object, saved alone, loads back as its decoder reads any object that holds its
fields. -/
theorem load_save_eq (hnd : (fs.map (·.1)).Nodup)
    (hfs : ∀ k j, Json.Fields.find? fs k = some j →
      Json.Plain j ∧ j.depth < 128 ∧ isReserved k = false)
    (hdec : ∀ gs : Json.Fields, (gs.map (·.1)).Nodup →
      (∀ k j, Json.Fields.find? fs k = some j → (k, j) ∈ gs) → decode (.obj gs) = .ok x) :
    (save (.obj fs) >>= load decode) = .ok x := by
  have hsave : save (.obj fs) = .ok (Databag.ofList (fs.map fun kv => (kv.1, kv.2.write))) := rfl
  -- saved alone is saved over the empty databag, which holds no other value
  have hempty : Databag.empty.merge (Databag.ofList (fs.map fun kv => (kv.1, kv.2.write))) =
      Databag.ofList (fs.map fun kv => (kv.1, kv.2.write)) := by
    refine Databag.empty_merge fun k v hv => ?_
    rw [get?_save hnd hsave] at hv
    obtain ⟨j, hj, rfl⟩ := Option.map_eq_some_iff.1 hv
    exact (hfs k j hj).1.write_ne_empty
  have hload := (load_merge_save_iff hnd hfs hdec Databag.empty).2 fun k w hw => by
    rw [Databag.get?_empty] at hw
    cases hw
  simp only [hsave, bind, Except.bind] at hload ⊢
  rwa [hempty] at hload

end Saved

end Record

/-! ## Decoding an object that holds a record -/

namespace Fields

/-- In fields with distinct keys, a key is looked up as its field. -/
theorem lookup_eq_some {met : Json.Fields} (hnd : (met.map (·.1)).Nodup) {k : String} {j : Json}
    (h : (k, j) ∈ met) : lookup met k = some j := by
  cases hf : List.find? (·.1 == k) met with
  | none =>
    have := List.find?_eq_none.1 hf (k, j) h
    simp at this
  | some g =>
    have hk : g.1 = k := by simpa using List.find?_some hf
    have hg : g = (k, j) := List.inj_on_of_nodup_map hnd (List.mem_of_find?_eq_some hf) h hk
    simp [lookup, hf, hg]

/-- Fields with distinct keys, each accepted by the check of its schema field, are collected:
those of the schema are kept, in order, and the others skipped. -/
theorem collect_eq_ok {schema : List FieldSpec} {gs : Json.Fields} (hnd : (gs.map (·.1)).Nodup)
    (hcheck : ∀ kv ∈ gs, ∀ spec ∈ schema, spec.name = kv.1 → spec.check kv.2 = .ok ()) :
    ∀ acc : Json.Fields, (∀ a ∈ acc, a.1 ∉ gs.map (·.1)) →
      collect schema false gs acc =
        .ok (acc.reverse ++ gs.filter fun kv => (schema.find? (·.name == kv.1)).isSome) := by
  induction gs with
  | nil => intro acc _; simp [collect]
  | cons kv gs ih =>
    intro acc hacc
    obtain ⟨k, v⟩ := kv
    simp only [List.map_cons, List.nodup_cons] at hnd
    have hih := ih hnd.2 fun kv' hkv' => hcheck kv' (List.mem_cons_of_mem _ hkv')
    cases hf : List.find? (·.name == k) schema with
    | none =>
      -- a field outside the schema is skipped
      rw [collect, hf]
      simp only [Bool.false_eq_true, if_false]
      rw [hih acc fun a ha hmem => hacc a ha (List.mem_cons_of_mem _ hmem)]
      simp [hf]
    | some spec =>
      -- a schema field is met once, and its check accepts it
      have hname : spec.name = k := by simpa using List.find?_some hf
      have hnew : acc.any (·.1 == k) = false := by
        simp only [List.any_eq_false, beq_iff_eq]
        intro a ha hak
        exact hacc a ha (by simp [hak])
      have hok := hcheck (k, v) List.mem_cons_self spec (List.mem_of_find?_eq_some hf) hname
      rw [collect, hf]
      simp only [hnew, Bool.false_eq_true, if_false, hok]
      rw [hih ((k, v) :: acc) fun a ha => ?_]
      · simp [hf]
      · rcases List.mem_cons.1 ha with rfl | ha
        · exact hnd.1
        · exact fun hmem => hacc a ha (List.mem_cons_of_mem _ hmem)

/-- The fields collected for a schema field are looked up as in the object. -/
theorem lookup_collect {schema : List FieldSpec} {gs : Json.Fields} (hnd : (gs.map (·.1)).Nodup)
    {k : String} {j : Json} (h : (k, j) ∈ gs) (hk : (schema.find? (·.name == k)).isSome) :
    lookup (gs.filter fun kv => (schema.find? (·.name == kv.1)).isSome) k = some j :=
  lookup_eq_some ((List.filter_sublist).map _ |>.nodup hnd) (List.mem_filter.2 ⟨h, hk⟩)

/-- An object with distinct keys holding the fields of a record, each accepted by its check,
is collected, and each field of the schema is met with the record's value. -/
theorem exists_collect {schema : List FieldSpec} {fs gs : Json.Fields}
    (hnd : (gs.map (·.1)).Nodup)
    (hspec : ∀ spec ∈ schema, ∃ j, Json.Fields.find? fs spec.name = some j ∧ spec.check j = .ok ())
    (hfs : ∀ k j, Json.Fields.find? fs k = some j → (k, j) ∈ gs) :
    ∃ met, collect schema false gs [] = .ok met ∧
      ∀ k j, Json.Fields.find? fs k = some j → (schema.find? (·.name == k)).isSome →
        lookup met k = some j := by
  -- a field the schema names is the record's, so its check accepts it
  have hcheck : ∀ kv ∈ gs, ∀ spec ∈ schema, spec.name = kv.1 → spec.check kv.2 = .ok () := by
    intro kv hkv spec hs hname
    obtain ⟨j, hj, hok⟩ := hspec spec hs
    rw [List.inj_on_of_nodup_map hnd hkv (hfs _ _ hj) hname.symm]
    exact hok
  exact ⟨_, collect_eq_ok hnd hcheck [] (by simp), fun k j hj => lookup_collect hnd (hfs k j hj)⟩

end Fields

namespace MountInfo

/-- An object with distinct keys that holds the fields of a mount request, whatever else it
holds, decodes as that request. -/
theorem ofJson_eq_ok {m : MountInfo} {gs : Json.Fields} (hnd : (gs.map (·.1)).Nodup)
    (hm : ∀ k j, m.toJson.field? k = some j → (k, j) ∈ gs) : ofJson (.obj gs) = .ok m := by
  obtain ⟨mp, noexec, nosuid, nodev, readOnly⟩ := m
  obtain ⟨met, hcol, hl⟩ := @Fields.exists_collect schema _ _ hnd
    (by simp [schema, Json.Fields.find?, FieldSpec.string, FieldSpec.bool, Json.decodeString,
      Json.decodeBool, Except.map]) hm
  simp only [ofJson, hcol]
  change ofMet met = _
  simp [ofMet, Fields.required, hl "mountpoint" (.str mp) rfl rfl, hl "noexec" (.bool noexec) rfl rfl,
    hl "nosuid" (.bool nosuid) rfl rfl, hl "nodev" (.bool nodev) rfl rfl,
    hl "read_only" (.bool readOnly) rfl rfl, Json.decodeString, Json.decodeBool, bind, Except.bind,
    pure, Except.pure]

/-- Every field of a mount request is a plain scalar, under a key that is not reserved. -/
theorem plain_of_field?_toJson {m : MountInfo} {k : String} {j : Json}
    (hj : m.toJson.field? k = some j) : Json.Plain j ∧ j.depth < 128 ∧ isReserved k = false := by
  have hmem := mem_of_find?_key hj
  simp only [List.mem_cons, Prod.mk.injEq, List.not_mem_nil, or_false] at hmem
  rcases hmem with ⟨rfl, rfl⟩ | ⟨rfl, rfl⟩ | ⟨rfl, rfl⟩ | ⟨rfl, rfl⟩ | ⟨rfl, rfl⟩
  · exact ⟨.str _, by simp [Json.depth], by simp [isReserved]⟩
  all_goals exact ⟨.bool _, by simp [Json.depth], by simp [isReserved]⟩

/-- The JSON form of a mount request has exactly the fields of the schema. -/
theorem field?_toJson_eq_none_iff (m : MountInfo) (k : String) :
    m.toJson.field? k = none ↔ k ∉ schema.map (·.name) := by
  simp [toJson, schema, Json.field?, Json.Fields.find?, FieldSpec.string, FieldSpec.bool]
  grind

/-- A mount request saved one field per key loads back as itself. -/
theorem load_save (m : MountInfo) : (Record.save m.toJson >>= Record.load ofJson) = .ok m :=
  Record.load_save_eq (by simp) (fun _ _ hj => plain_of_field?_toJson hj)
    fun _ hnd hm => ofJson_eq_ok hnd hm

/-- A mount request saved over a databag `B` loads back exactly when every other non-reserved
value of `B` reads as JSON. -/
theorem load_merge_save_iff (m : MountInfo) (B : Databag) :
    (Record.save m.toJson >>= fun d => Record.load ofJson (B.merge d)) = .ok m ↔
      ∀ k w, B.get? k = some w → isReserved k = false → k ∉ schema.map (·.name) →
        ∃ j, Json.read w = .ok j := by
  rw [show m.toJson = .obj _ from rfl, Record.load_merge_save_iff (by simp)
    (fun _ _ hj => plain_of_field?_toJson hj) (fun _ hnd hm => ofJson_eq_ok hnd hm) B]
  simp only [← field?_toJson_eq_none_iff m]
  rfl

end MountInfo


end ShareBroker
