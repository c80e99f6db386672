import ShareBroker.Proofs.Json.RoundTrip

/-!
# Events through their JSON text

An event is written as an object tagged by its kind under `event`, with its relation in the
written form `endpoint:id` and the remote application and unit beside it (`HostEvent.toJson`).
The reader sorts the keys of every object it reads, so the text of an event reads back as the
same fields in another order (`HostEvent.read_write_toJson`). The decoder finds the tag by its
key and checks the other fields in the order it meets them, then reads them by key: fields with
distinct keys that decode in one order decode, as the same event, in any other
(`HostEvent.ofFields_perm`), and so the sorted fields decode as the written ones do.

## Key results

- `HostEvent.ofJson_toJson`: an event whose relation reads back decodes from its JSON form
- `HostEvent.collectFields_eq_ok_iff`: the fields of a kind are accepted exactly when their keys
  are distinct keys of the kind and each value passes its check
- `HostEvent.ofFields_perm`: the order of the fields does not change what they decode as
- `HostEvent.read_write_toJson`: the text of an event reads back as its sorted JSON form
- `HostEvent.ofJson_sorted_toJson`: the sorted form decodes as the event too
- `Relation.written_ids_read_back`: relation ids, and events through their text
-/

namespace ShareBroker

namespace HostEvent

theorem fieldRelation_toString {r : Relation} (h : Relation.parse r.toString = .ok r) :
    fieldRelation (.str r.toString) = .ok r := by
  simp [fieldRelation, fieldString, h, bind, Except.bind, pure, Except.pure]

/-- An event whose relation reads back from its written form decodes from its JSON form as
itself. -/
theorem ofJson_toJson {e : HostEvent} (h : ∀ r ∈ e.relation?, Relation.parse r.toString = .ok r) :
    ofJson e.toJson = .ok e := by
  -- every relation event has its relation among the checked fields; the rest are strings
  cases e with
  | install | start | configChanged | updateStatus | upgradeCharm | leaderElected =>
    simp [ofJson, toJson, ofFields, variantOf, kindNames, List.idxOf?_cons, bind, Except.bind,
      pure, Except.pure]
  | relationCreated r a | relationJoined r a u | relationDeparted r a u =>
    have hr := fieldRelation_toString (h r rfl)
    simp [ofJson, toJson, ofFields, variantOf, kindNames, List.idxOf?_cons, collectFields, hr,
      fieldString, Fields.required, Fields.lookup, Except.map, bind, Except.bind, pure,
      Except.pure]
  | relationChanged r _ u | relationBroken r u =>
    -- the optional field is `null` or a string
    have hr := fieldRelation_toString (h r rfl)
    cases u <;>
      simp [ofJson, toJson, ofFields, variantOf, kindNames, List.idxOf?_cons, collectFields, hr,
        fieldString, fieldOptString, Json.ofOption, Fields.required, Fields.lookup, Except.map,
        bind, Except.bind, pure, Except.pure]

/-! ## The order of the fields -/

/-- `collectFields` accepts the fields exactly when their keys are distinct and new, each is a
key of the kind and each value passes its check; it then returns the fields met, in order. -/
theorem collectFields_eq_ok_iff {names optional : List String} {fs acc met : List (String × Json)}
    (hacc : (acc.map (·.1)).Nodup) :
    collectFields names optional fs acc = .ok met ↔
      met = acc.reverse ++ fs ∧ (fs.map (·.1) ++ acc.map (·.1)).Nodup ∧
      ∀ kv ∈ fs, names.contains kv.1 = true ∧
        (if kv.1 == "relation" then (fieldRelation kv.2).map fun _ => ()
          else if optional.contains kv.1 then (fieldOptString kv.2).map fun _ => ()
          else (fieldString kv.2).map fun _ => ()) = .ok () := by
  induction fs generalizing acc with
  | nil =>
    simp only [collectFields, Except.ok.injEq, List.append_nil, List.map_nil, List.nil_append,
      hacc, List.not_mem_nil, false_implies, implies_true, and_true]
    exact eq_comm
  | cons kv rest ih =>
    obtain ⟨k, v⟩ := kv
    simp only [collectFields]
    by_cases hname : names.contains k = true
    · by_cases hmet : acc.any (·.1 == k) = true
      · -- a key met before is refused, and the keys are not distinct
        have hk : k ∈ acc.map (·.1) := by simpa using hmet
        simp only [hname, hmet, ↓reduceIte, reduceCtorEq, false_iff]
        rintro ⟨-, hnd, -⟩
        exact List.disjoint_of_nodup_append hnd (List.mem_cons_self ..) hk
      · have hk : k ∉ acc.map (·.1) := by simpa using hmet
        simp only [hname, hmet, ↓reduceIte, Bool.false_eq_true]
        split
        · -- the value passes its check: the rest is collected after it
          rename_i hcheck
          rw [@ih ((k, v) :: acc) (List.nodup_cons.2 ⟨hk, hacc⟩)]
          simp only [List.reverse_cons, List.append_assoc, List.cons_append, List.nil_append,
            List.map_cons, List.nodup_middle, List.forall_mem_cons, hname, hcheck, true_and]
        · rename_i hcheck
          simp only [reduceCtorEq, false_iff]
          rintro ⟨-, -, hall⟩
          have hpass := (hall (k, v) (List.mem_cons_self ..)).2
          dsimp only at hpass
          rw [hpass] at hcheck
          cases hcheck
    · -- a key outside the kind is refused
      simp only [hname, ↓reduceIte, Bool.false_eq_true, reduceCtorEq, false_iff]
      rintro ⟨-, -, hall⟩
      exact hname (hall (k, v) (List.mem_cons_self ..)).1

/-- Fields with distinct keys that pass the checks pass them in any order, and are looked up
alike. -/
theorem collectFields_perm {names optional : List String} {fs fs' met : List (String × Json)}
    (hp : fs.Perm fs') (hfs : (fs.map (·.1)).Nodup)
    (h : collectFields names optional fs [] = .ok met) :
    collectFields names optional fs' [] = .ok fs' ∧
      ∀ k, Fields.lookup met k = Fields.lookup fs' k := by
  obtain ⟨rfl, -, hall⟩ := (@collectFields_eq_ok_iff names optional fs [] met List.nodup_nil).1 h
  have hfs' : (fs'.map (·.1)).Nodup := (hp.map _).nodup_iff.1 hfs
  refine ⟨(@collectFields_eq_ok_iff names optional fs' [] fs' List.nodup_nil).2
    ⟨by simp, by simpa using hfs', fun kv hkv => hall kv (hp.mem_iff.2 hkv)⟩, fun k => ?_⟩
  simp only [Fields.lookup, find?_key_perm hp hfs k]

/-- A continuation that reads the collected fields only by key gives the same answer after
fields met in another order. -/
theorem collectFields_bind_perm {β : Type} {names optional : List String}
    {fs fs' : List (String × Json)} (hp : fs.Perm fs') (hfs : (fs.map (·.1)).Nodup)
    {K : List (String × Json) → Except DecodeError β}
    (hK : ∀ met met', (∀ k, Fields.lookup met k = Fields.lookup met' k) → K met = K met')
    {b : β} (h : (collectFields names optional fs [] >>= K) = .ok b) :
    (collectFields names optional fs' [] >>= K) = .ok b := by
  cases hc : collectFields names optional fs [] with
  | error err => rw [hc] at h; cases h
  | ok met =>
    obtain ⟨hc', hlookup⟩ := collectFields_perm hp hfs hc
    rw [hc] at h
    rw [hc']
    show K fs' = .ok b
    rw [← hK met fs' hlookup]
    exact h

/-- The decoder finds the tag and the fields of a kind by their keys, so fields with distinct
keys that decode in one order decode, as the same event, in any other. -/
theorem ofFields_perm {fs fs' : Json.Fields} (hp : fs.Perm fs') (hfs : (fs.map (·.1)).Nodup)
    {e : HostEvent} (h : ofFields fs = .ok e) : ofFields fs' = .ok e := by
  -- the tag is the one field named `event`, found in either order
  simp only [ofFields, ← find?_key_perm hp hfs "event"] at h ⊢
  -- the other fields, in either order, are collected alike
  have hrest := hp.filter (fun kv => kv.1 != "event")
  have hnd : ((fs.filter fun kv => kv.1 != "event").map (·.1)).Nodup :=
    hfs.sublist (List.filter_sublist.map _)
  generalize List.filter (fun kv => kv.1 != "event") fs = rest at h hrest hnd
  generalize List.filter (fun kv => kv.1 != "event") fs' = rest' at hrest ⊢
  generalize List.find? (fun kv => kv.1 == "event") fs = found at h ⊢
  cases found with
  | none => cases h
  | some kv =>
    obtain ⟨_, t⟩ := kv
    dsimp only at h ⊢
    generalize variantOf t = tag at h ⊢
    cases tag with
    | error err => cases h
    | ok n =>
      -- a lifecycle kind reads no other field; a relation kind reads them by key
      match n, h with
      | 0, h | 1, h | 2, h | 3, h | 4, h | 5, h => exact h
      | 6, h | 7, h | 8, h | 9, h | _ + 10, h =>
        exact collectFields_bind_perm hrest hnd
          (fun met met' hl => by simp only [Fields.required, hl]) h

/-- The JSON form of an event is one object with distinct keys, each holding a string, or
`null` for an absent option. -/
theorem toJson_eq_obj (e : HostEvent) :
    ∃ fs, e.toJson = .obj fs ∧ (fs.map (·.1)).Nodup ∧ ∀ kv ∈ fs, Json.sorted kv.2 = kv.2 := by
  have hopt : ∀ o, Json.sorted (Json.ofOption o) = Json.ofOption o := by
    intro o; cases o <;> rfl
  cases e <;> refine ⟨_, rfl, by simp, ?_⟩ <;> simp [Json.sorted, hopt]

/-! ## The text of an event -/

/-- The JSON form of an event is one object of texts, and `null` for an absent option: it reads
back as written, one level deep. -/
theorem readsBack_toJson (e : HostEvent) : Json.ReadsBack e.toJson ∧ e.toJson.depth = 1 := by
  have hstr : ∀ s, Json.ReadsBack (.str s) := fun s => (Json.Plain.str s).readsBack
  have hopt : ∀ o, Json.ReadsBack (Json.ofOption o) ∧ (Json.ofOption o).depth = 0 := by
    intro o
    cases o
    · exact ⟨Json.Plain.null.readsBack, rfl⟩
    · exact ⟨hstr _, rfl⟩
  cases e <;>
    refine ⟨Json.readsBack_obj ?_, ?_⟩ <;>
    simp [toJson, hstr, hopt, Json.depth, Json.depthFields]

/-- The text of an event reads back as its JSON form with the keys sorted. -/
theorem read_write_toJson (e : HostEvent) : Json.read e.toJson.write = .ok (Json.sorted e.toJson) :=
  (readsBack_toJson e).1.read_write (by rw [(readsBack_toJson e).2]; decide)

/-- The sorted form of an event decodes as the event, as the form it was written in does: only
the order of the fields differs. -/
theorem ofJson_sorted_toJson {e : HostEvent}
    (h : ∀ r ∈ e.relation?, Relation.parse r.toString = .ok r) :
    ofJson (Json.sorted e.toJson) = .ok e := by
  obtain ⟨fs, hfs, hnd, hvals⟩ := toJson_eq_obj e
  have hdec : ofFields fs = .ok e := by
    have hread := ofJson_toJson h
    rw [hfs] at hread
    exact hread
  rw [hfs, Json.sorted, Json.sortedFields_eq hvals]
  -- sorting only reorders the fields, and the decoder reads them by key
  exact ofFields_perm (Json.Fields.normalize_perm hnd).symm hnd hdec

end HostEvent

namespace Relation

/-- Relation ids are read by their grammar and invert their written form. `parse s` gives `r`
exactly when `s` is a non-empty colon-free endpoint `e`, a colon, and a non-empty run `d` of
ASCII digits whose decimal value is below `2 ^ 32`, and `r` is the relation of `e` numbered by
that value. Hence a relation reads back from its written form exactly when its endpoint is
non-empty and colon-free, and every event whose relation (if it has one) is such decodes from
its tagged JSON form as itself, and is read from its serialized text as itself. -/
theorem written_ids_read_back :
    (∀ (s : String) (r : Relation), parse s = .ok r ↔
      ∃ e d : String, s = e ++ ":" ++ d ∧ e ≠ "" ∧ ':' ∉ e.toList ∧ d ≠ "" ∧
        (∀ c ∈ d.toList, c.isDigit = true) ∧ numeralValue d < 2 ^ 32 ∧
        r = ⟨e, (numeralValue d).toUInt32⟩) ∧
    (∀ r : Relation, parse r.toString = .ok r ↔ r.endpoint ≠ "" ∧ ':' ∉ r.endpoint.toList) ∧
    (∀ e : HostEvent, (∀ r ∈ e.relation?, r.endpoint ≠ "" ∧ ':' ∉ r.endpoint.toList) →
      HostEvent.ofJson e.toJson = .ok e ∧
      ∃ j, Json.read e.toJson.write = .ok j ∧ HostEvent.ofJson j = .ok e) := by
  refine ⟨parse_eq_ok_iff, parse_toString_iff, fun e h => ?_⟩
  have hread : ∀ r ∈ e.relation?, parse r.toString = .ok r :=
    fun r hr => (parse_toString_iff r).2 (h r hr)
  -- the text reads back sorted, and the sorted fields decode as the written ones do
  exact ⟨HostEvent.ofJson_toJson hread, _, HostEvent.read_write_toJson e,
    HostEvent.ofJson_sorted_toJson hread⟩

/-- A change on a CephFS share relation with no remote unit decodes from its JSON form and from
its text. -/
theorem written_ids_read_back_changed :
    HostEvent.ofJson (HostEvent.relationChanged ⟨"cephfs-share", 2⟩ "cephfs-client" none).toJson =
      .ok (.relationChanged ⟨"cephfs-share", 2⟩ "cephfs-client" none) ∧
    ∃ j, Json.read (HostEvent.relationChanged ⟨"cephfs-share", 2⟩ "cephfs-client" none).toJson.write =
      .ok j ∧ HostEvent.ofJson j = .ok (.relationChanged ⟨"cephfs-share", 2⟩ "cephfs-client" none) :=
  written_ids_read_back.2.2 (.relationChanged ⟨"cephfs-share", 2⟩ "cephfs-client" none) fun r hr => by
    simp only [HostEvent.relation?, Option.mem_def, Option.some.injEq] at hr
    subst hr
    decide

end Relation

end ShareBroker
