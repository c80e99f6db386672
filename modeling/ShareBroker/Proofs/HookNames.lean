import ShareBroker.Event

/-!
# Hook names

The host names the hook that runs and, for a relation hook, puts the relation id, the remote
unit and the remote application in the environment. `HostEvent.ofHook` turns the two into an
event:

* the six lifecycle names give their events, whatever the environment holds;
* a name whose text after its last `-relation-` is `created`, `joined`, `changed`, `departed`
  or `broken` gives the relation event of that kind, built from the environment, and fails
  with `InvalidRecord` when the relation id is missing or does not read, or when a field the
  kind needs is missing;
* any other name gives no event when it has no `-relation-` in it. A name that has one, with
  another text after the last, is only recognised as no event once the relation id reads: the
  id is read before the kind is looked at, so without it the name is refused.

## Key results

- `HostEvent.relationKind_eq_some_iff`: the kind found is the text after the last
  `-relation-` (`HostEvent.KindAfterMarker`);
- `HostEvent.ofRelationHook_eq_ok_iff`, `HostEvent.ofRelationHook_eq_error_iff`: the event a
  relation kind carries (`HookEnv.Carries`), and when a field it needs is missing
  (`HookEnv.Lacks`);
- `HostEvent.hook_names_classified`: the outcome for every name in every environment;
- `HostEvent.unknown_relation_hook_needs_id`: a name with `-relation-` and a kind no charm
  reacts to is refused when the relation id is missing.
-/

namespace ShareBroker

namespace HookEnv

/-- The relation the environment names, when its id is given and reads. -/
def relation? (env : HookEnv) : Option Relation :=
  env.relationId.bind fun id => (Relation.parse id).toOption

/-- A relation hook of kind `kind` needs a field the environment lacks: the remote
application, for every kind but `broken`, or the remote unit, for `joined` and `departed`. -/
def Lacks (env : HookEnv) (kind : String) : Prop :=
  (kind ≠ "broken" ∧ env.app = none) ∨
    ((kind = "joined" ∨ kind = "departed") ∧ env.remoteUnit = none)

/-- The event a relation hook of kind `kind` on `r` carries: the remote application and the
remote unit of the environment, each where the kind has a field for it. -/
inductive Carries (env : HookEnv) (r : Relation) : String → HostEvent → Prop
  | created {a : String} : env.app = some a → Carries env r "created" (.relationCreated r a)
  | joined {a u : String} : env.app = some a → env.remoteUnit = some u →
      Carries env r "joined" (.relationJoined r a u)
  | changed {a : String} : env.app = some a →
      Carries env r "changed" (.relationChanged r a env.remoteUnit)
  | departed {a u : String} : env.app = some a → env.remoteUnit = some u →
      Carries env r "departed" (.relationDeparted r a u)
  | broken : Carries env r "broken" (.relationBroken r env.app)

/-- The relation of a relation hook is the one the environment names; without one, the hook is
refused as an invalid record. -/
theorem relation_cases (env : HookEnv) (hook : String) :
    (∃ r, env.relation hook = .ok r ∧ env.relation? = some r) ∨
      (∃ msg, env.relation hook = .error (.invalidRecord msg) ∧ env.relation? = none) := by
  cases hid : env.relationId with
  | none =>
    refine .inr ⟨"`" ++ hook ++ "` hook without JUJU_RELATION_ID", ?_, ?_⟩
    · simp only [relation, hid]
    · simp only [relation?, hid, Option.bind_none]
  | some id =>
    cases hr : Relation.parse id with
    | ok r =>
      exact .inl ⟨r, by simp only [relation, hid, hr],
        by simp [relation?, hid, hr, Except.toOption]⟩
    | error e =>
      exact .inr ⟨e.message, by simp only [relation, hid, hr],
        by simp [relation?, hid, hr, Except.toOption]⟩

/-- The remote application a hook requires is the one the environment gives. -/
theorem requireApp_cases (env : HookEnv) (hook : String) :
    (∃ a, env.requireApp hook = .ok a ∧ env.app = some a) ∨
      (∃ msg, env.requireApp hook = .error (.invalidRecord msg) ∧ env.app = none) := by
  unfold requireApp
  cases env.app with
  | none => exact .inr ⟨_, rfl, rfl⟩
  | some a => exact .inl ⟨a, rfl, rfl⟩

/-- The remote unit a hook requires is the one the environment gives. -/
theorem requireUnit_cases (env : HookEnv) (hook : String) :
    (∃ u, env.requireUnit hook = .ok u ∧ env.remoteUnit = some u) ∨
      (∃ msg, env.requireUnit hook = .error (.invalidRecord msg) ∧ env.remoteUnit = none) := by
  unfold requireUnit
  cases env.remoteUnit with
  | none => exact .inr ⟨_, rfl, rfl⟩
  | some u => exact .inl ⟨u, rfl, rfl⟩

theorem requireApp_eq_ok {env : HookEnv} {a : String} (ha : env.app = some a) (hook : String) :
    env.requireApp hook = .ok a := by
  simp only [requireApp, ha]

theorem requireUnit_eq_ok {env : HookEnv} {u : String} (hu : env.remoteUnit = some u)
    (hook : String) : env.requireUnit hook = .ok u := by
  simp only [requireUnit, hu]

/-- A kind that carries its event lacks no field. -/
theorem Carries.not_lacks {env : HookEnv} {r : Relation} {kind : String} {e : HostEvent}
    (h : env.Carries r kind e) : ¬ env.Lacks kind := by
  cases h <;> simp_all [Lacks]

end HookEnv

namespace HostEvent

/-! ## The text after the last marker -/

/-- The text between the name of a relation and the kind in the name of a relation hook. -/
def relationMarker : List Char := "-relation-".toList

/-- `kind` is the text after the last occurrence of `-relation-` in `hook`: an occurrence ends
right before it, and none starts later. -/
def KindAfterMarker (hook kind : String) : Prop :=
  ∃ before, hook.toList = before ++ relationMarker ++ kind.toList ∧
    ¬ relationMarker <:+: relationMarker.tail ++ kind.toList

theorem relationMarker_eq_cons : relationMarker = '-' :: relationMarker.tail := rfl

theorem relationMarker_ne_nil : relationMarker ≠ [] := by
  rw [relationMarker_eq_cons]
  exact List.cons_ne_nil _ _

/-- A text without a dash has no marker starting in front of it: the marker has two dashes. -/
theorem not_marker_infix_tail {kind : List Char} (hk : '-' ∉ kind) :
    ¬ relationMarker <:+: relationMarker.tail ++ kind := by
  intro h
  have hle := h.sublist.count_le '-'
  rw [List.count_append, List.count_eq_zero.2 hk] at hle
  exact absurd hle (by decide)

/-- One character further: the text after the last marker of `c :: rest` is the one of `rest`,
unless `rest` has no marker and one starts at `c`. -/
theorem lastAfter_cons_iff {c : Char} {rest kind : List Char} :
    (∃ before, c :: rest = before ++ relationMarker ++ kind ∧
        ¬ relationMarker <:+: relationMarker.tail ++ kind) ↔
      (∃ before, rest = before ++ relationMarker ++ kind ∧
        ¬ relationMarker <:+: relationMarker.tail ++ kind) ∨
      (c :: rest = relationMarker ++ kind ∧ ¬ relationMarker <:+: rest) := by
  constructor
  · rintro ⟨before, hcs, hlast⟩
    rw [List.append_assoc, List.cons_eq_append_iff] at hcs
    rcases hcs with ⟨rfl, hcs⟩ | ⟨before', rfl, hrest⟩
    · -- the marker starts at `c`, so `rest` is the marker's tail and then the kind
      refine .inr ⟨hcs.symm, ?_⟩
      rw [relationMarker_eq_cons, List.cons_append, List.cons.injEq] at hcs
      rw [← hcs.2]
      exact hlast
    · exact .inl ⟨before', by rw [hrest, List.append_assoc], hlast⟩
  · rintro (⟨before, hrest, hlast⟩ | ⟨hcs, hlast⟩)
    · exact ⟨c :: before, by rw [hrest]; rfl, hlast⟩
    · refine ⟨[], hcs, ?_⟩
      rw [relationMarker_eq_cons, List.cons_append, List.cons.injEq] at hcs
      rwa [hcs.2] at hlast

/-- The search keeps the text after the last marker it met, starting from `found`. -/
theorem go_eq_some_iff (cs : List Char) (found : Option (List Char)) (kind : List Char) :
    relationKind.go relationMarker cs found = some kind ↔
      (∃ before, cs = before ++ relationMarker ++ kind ∧
        ¬ relationMarker <:+: relationMarker.tail ++ kind) ∨
      (¬ relationMarker <:+: cs ∧ found = some kind) := by
  -- the search walks the text; `found` is what followed the last marker met so far
  induction cs generalizing found with
  | nil =>
    -- at the end of the text the search gives what it found, and no marker fits in nothing
    simp only [relationKind.go]
    constructor
    · exact fun h => .inr ⟨fun hi => relationMarker_ne_nil (List.eq_nil_of_infix_nil hi), h⟩
    · rintro (⟨before, hnil, -⟩ | ⟨-, h⟩)
      · rw [relationMarker_eq_cons] at hnil
        simp at hnil
      · exact h
  | cons c rest ih =>
    -- one character on: the last marker of `c :: rest` is in `rest`, or starts at `c`
    rw [relationKind.go, ih, lastAfter_cons_iff]
    by_cases hp : relationMarker <+: c :: rest
    · -- a marker starts here: what follows it is found, and a later marker overrides it
      obtain ⟨after, hafter⟩ := hp
      have hrest : rest = relationMarker.tail ++ after := by
        rw [relationMarker_eq_cons, List.cons_append, List.cons.injEq] at hafter
        exact hafter.2.symm
      have hdrop : rest.drop (relationMarker.length - 1) = after := by
        rw [hrest]
        exact List.drop_left' rfl
      rw [if_pos (List.isPrefixOf_iff_prefix.2 ⟨after, hafter⟩), hdrop]
      have hin : relationMarker <:+: c :: rest := ⟨[], after, hafter⟩
      simp only [hin, not_true_eq_false, false_and, or_false, Option.some.injEq]
      -- the search now carries `after`, and gives it back when `rest` has no other marker
      constructor
      · rintro (h | ⟨hlast, rfl⟩)
        · exact .inl h
        · exact .inr ⟨hafter.symm, hlast⟩
      · rintro (h | ⟨hcs, hlast⟩)
        · exact .inl h
        · refine .inr ⟨hlast, ?_⟩
          rw [← hafter] at hcs
          exact List.append_cancel_left hcs
    · -- no marker starts here: the search goes on as it was
      have hnp : relationMarker.isPrefixOf (c :: rest) = false := by
        cases h : relationMarker.isPrefixOf (c :: rest) with
        | false => rfl
        | true => exact absurd (List.isPrefixOf_iff_prefix.1 h) hp
      have hin : relationMarker <:+: c :: rest ↔ relationMarker <:+: rest := by
        rw [List.infix_cons_iff]
        exact or_iff_right hp
      simp only [hnp, Bool.false_eq_true, ↓reduceIte]
      rw [hin]
      have hstart : ¬ c :: rest = relationMarker ++ kind := fun h => hp ⟨kind, h.symm⟩
      simp only [hstart, false_and, or_false]

/-- The search finds nothing exactly when there is no marker and nothing was found before. -/
theorem go_eq_none_iff (cs : List Char) (found : Option (List Char)) :
    relationKind.go relationMarker cs found = none ↔
      ¬ relationMarker <:+: cs ∧ found = none := by
  induction cs generalizing found with
  | nil =>
    simp only [relationKind.go]
    exact ⟨fun h => ⟨fun hi => relationMarker_ne_nil (List.eq_nil_of_infix_nil hi), h⟩,
      (·.2)⟩
  | cons c rest ih =>
    rw [relationKind.go, ih, List.infix_cons_iff]
    by_cases hp : relationMarker <+: c :: rest
    · rw [if_pos (List.isPrefixOf_iff_prefix.2 hp)]
      simp [hp]
    · have hnp : relationMarker.isPrefixOf (c :: rest) = false := by
        cases h : relationMarker.isPrefixOf (c :: rest) with
        | false => rfl
        | true => exact absurd (List.isPrefixOf_iff_prefix.1 h) hp
      simp only [hnp, Bool.false_eq_true, ↓reduceIte]
      simp [hp]

/-- The kind of a hook is the text after the last marker of its name. -/
theorem relationKind_eq_some_iff {hook kind : String} :
    relationKind hook = some kind ↔ KindAfterMarker hook kind := by
  unfold relationKind
  simp only [Option.map_eq_some_iff]
  constructor
  · rintro ⟨k, hk, rfl⟩
    rcases (go_eq_some_iff _ _ _).1 hk with h | ⟨-, h⟩
    · simpa [KindAfterMarker, String.toList_ofList] using h
    · exact absurd h (by simp)
  · rintro ⟨before, hhook, hlast⟩
    exact ⟨kind.toList, (go_eq_some_iff _ _ _).2 (.inl ⟨before, hhook, hlast⟩),
      String.ofList_toList⟩

/-- A hook has no kind exactly when its name has no marker. -/
theorem relationKind_eq_none_iff {hook : String} :
    relationKind hook = none ↔ ¬ relationMarker <:+: hook.toList := by
  unfold relationKind
  rw [Option.map_eq_none_iff]
  exact (go_eq_none_iff hook.toList none).trans (and_iff_left rfl)

/-! ## Relation hooks -/

/-- The kinds of relation hooks a charm reacts to. -/
def relationKinds : List String := ["created", "joined", "changed", "departed", "broken"]

/-- For a kind a charm reacts to, the text after the last marker is that kind as soon as the
name ends with the marker and the kind: the kind holds no dash, so no marker starts later. -/
theorem kindAfterMarker_iff {hook kind : String} (hk : kind ∈ relationKinds) :
    KindAfterMarker hook kind ↔
      ∃ before, hook.toList = before ++ relationMarker ++ kind.toList := by
  have hdash : '-' ∉ kind.toList := by
    simp only [relationKinds, List.mem_cons, List.not_mem_nil, or_false] at hk
    rcases hk with rfl | rfl | rfl | rfl | rfl <;> decide
  refine ⟨fun h => ?_, fun h => ?_⟩
  · obtain ⟨before, h, -⟩ := h
    exact ⟨before, h⟩
  · obtain ⟨before, h⟩ := h
    exact ⟨before, h, not_marker_infix_tail hdash⟩

/-- Every relation kind a charm reacts to either carries its event or lacks a field for it. -/
theorem ofRelationHook_cases {kind : String} (hk : kind ∈ relationKinds) (hook : String)
    (env : HookEnv) (r : Relation) :
    (∃ e, ofRelationHook hook kind env r = .ok (some e) ∧ env.Carries r kind e) ∨
      (∃ msg, ofRelationHook hook kind env r = .error (.invalidRecord msg) ∧
        env.Lacks kind) := by
  simp only [relationKinds, List.mem_cons, List.not_mem_nil, or_false] at hk
  rcases hk with rfl | rfl | rfl | rfl | rfl
  · -- `created` needs the remote application
    rcases env.requireApp_cases hook with ⟨a, ha, happ⟩ | ⟨msg, ha, happ⟩
    · exact .inl ⟨_, by rw [ofRelationHook, ha]; rfl, .created happ⟩
    · exact .inr ⟨msg, by rw [ofRelationHook, ha]; rfl, .inl ⟨by decide, happ⟩⟩
  · -- `joined` needs the remote application, then the remote unit
    rcases env.requireApp_cases hook with ⟨a, ha, happ⟩ | ⟨msg, ha, happ⟩
    · rcases env.requireUnit_cases hook with ⟨u, hu, hunit⟩ | ⟨msg, hu, hunit⟩
      · exact .inl ⟨_, by rw [ofRelationHook, ha, hu]; rfl, .joined happ hunit⟩
      · exact .inr ⟨msg, by rw [ofRelationHook, ha, hu]; rfl, .inr ⟨.inl rfl, hunit⟩⟩
    · exact .inr ⟨msg, by rw [ofRelationHook, ha]; rfl, .inl ⟨by decide, happ⟩⟩
  · -- `changed` needs the remote application and takes the remote unit as it is
    rcases env.requireApp_cases hook with ⟨a, ha, happ⟩ | ⟨msg, ha, happ⟩
    · exact .inl ⟨_, by rw [ofRelationHook, ha]; rfl, .changed happ⟩
    · exact .inr ⟨msg, by rw [ofRelationHook, ha]; rfl, .inl ⟨by decide, happ⟩⟩
  · -- `departed` needs both, like `joined`
    rcases env.requireApp_cases hook with ⟨a, ha, happ⟩ | ⟨msg, ha, happ⟩
    · rcases env.requireUnit_cases hook with ⟨u, hu, hunit⟩ | ⟨msg, hu, hunit⟩
      · exact .inl ⟨_, by rw [ofRelationHook, ha, hu]; rfl, .departed happ hunit⟩
      · exact .inr ⟨msg, by rw [ofRelationHook, ha, hu]; rfl, .inr ⟨.inr rfl, hunit⟩⟩
    · exact .inr ⟨msg, by rw [ofRelationHook, ha]; rfl, .inl ⟨by decide, happ⟩⟩
  · -- `broken` needs neither
    exact .inl ⟨_, rfl, .broken⟩

/-- The event a kind carries is the one its hook gives. -/
theorem ofRelationHook_of_carries {env : HookEnv} {r : Relation} {kind : String}
    {e : HostEvent} (h : env.Carries r kind e) (hook : String) :
    ofRelationHook hook kind env r = .ok (some e) := by
  cases h with
  | created ha => rw [ofRelationHook, HookEnv.requireApp_eq_ok ha]; rfl
  | joined ha hu =>
    rw [ofRelationHook, HookEnv.requireApp_eq_ok ha, HookEnv.requireUnit_eq_ok hu]; rfl
  | changed ha => rw [ofRelationHook, HookEnv.requireApp_eq_ok ha]; rfl
  | departed ha hu =>
    rw [ofRelationHook, HookEnv.requireApp_eq_ok ha, HookEnv.requireUnit_eq_ok hu]; rfl
  | broken => rfl

/-- A kind no charm reacts to gives no event. -/
theorem ofRelationHook_of_not_mem {kind : String} (hk : kind ∉ relationKinds) (hook : String)
    (env : HookEnv) (r : Relation) : ofRelationHook hook kind env r = .ok none := by
  unfold ofRelationHook
  split
  case h_6 => rfl
  -- the five kinds a charm reacts to are excluded
  all_goals exact absurd (by decide) hk

/-- A relation hook of a kind a charm reacts to gives the event that kind carries. -/
theorem ofRelationHook_eq_ok_iff {kind : String} (hk : kind ∈ relationKinds) (hook : String)
    (env : HookEnv) (r : Relation) (e : HostEvent) :
    ofRelationHook hook kind env r = .ok (some e) ↔ env.Carries r kind e := by
  refine ⟨fun hrun => ?_, fun h => ofRelationHook_of_carries h hook⟩
  rcases ofRelationHook_cases hk hook env r with ⟨e', h, hc⟩ | ⟨msg, h, -⟩
  · rw [hrun, Except.ok.injEq, Option.some.injEq] at h
    exact h ▸ hc
  · rw [hrun] at h
    cases h

/-- A relation hook of a kind a charm reacts to is refused exactly when a field the kind needs
is missing. -/
theorem ofRelationHook_eq_error_iff {kind : String} (hk : kind ∈ relationKinds) (hook : String)
    (env : HookEnv) (r : Relation) :
    (∃ msg, ofRelationHook hook kind env r = .error (.invalidRecord msg)) ↔ env.Lacks kind := by
  rcases ofRelationHook_cases hk hook env r with ⟨e, hrun, hc⟩ | ⟨msg, hrun, hl⟩
  · refine ⟨fun h => ?_, fun h => absurd h hc.not_lacks⟩
    obtain ⟨msg, h⟩ := h
    rw [hrun] at h
    cases h
  · exact ⟨fun _ => hl, fun _ => ⟨msg, hrun⟩⟩

/-! ## Classifying names -/

/-- The lifecycle hooks and their events. -/
def lifecycleHooks : List (String × HostEvent) :=
  [("install", .install), ("start", .start), ("config-changed", .configChanged),
   ("update-status", .updateStatus), ("upgrade-charm", .upgradeCharm),
   ("leader-elected", .leaderElected)]

/-- No lifecycle name has a marker in it. -/
theorem relationKind_lifecycle : ∀ p ∈ lifecycleHooks, relationKind p.1 = none := by decide

theorem ofHook_lifecycle {hook : String} {e : HostEvent} (h : (hook, e) ∈ lifecycleHooks)
    (env : HookEnv) : ofHook hook env = .ok (some e) := by
  simp only [lifecycleHooks, List.mem_cons, Prod.mk.injEq, List.not_mem_nil, or_false] at h
  rcases h with ⟨rfl, rfl⟩ | ⟨rfl, rfl⟩ | ⟨rfl, rfl⟩ | ⟨rfl, rfl⟩ | ⟨rfl, rfl⟩ | ⟨rfl, rfl⟩ <;>
    rfl

/-- Any other name is classified by the text after its last marker. -/
theorem ofHook_of_not_lifecycle {hook : String} (hnl : hook ∉ lifecycleHooks.map (·.1))
    (env : HookEnv) :
    ofHook hook env = (match relationKind hook with
      | none => .ok none
      | some kind => env.relation hook >>= ofRelationHook hook kind env) := by
  simp only [lifecycleHooks, List.map_cons, List.map_nil, List.mem_cons, List.not_mem_nil,
    or_false, not_or] at hnl
  obtain ⟨h₁, h₂, h₃, h₄, h₅, h₆⟩ := hnl
  unfold ofHook
  split
  case h_7 => rfl
  -- the six lifecycle names are excluded
  all_goals contradiction

/-- A name with a kind is no lifecycle name, so its kind decides. -/
theorem ofHook_of_relationKind_eq_some {hook kind : String} (hk : relationKind hook = some kind)
    (env : HookEnv) : ofHook hook env = env.relation hook >>= ofRelationHook hook kind env := by
  have hnl : hook ∉ lifecycleHooks.map (·.1) := by
    intro hmem
    obtain ⟨p, hp, rfl⟩ := List.mem_map.1 hmem
    rw [relationKind_lifecycle p hp] at hk
    cases hk
  rw [ofHook_of_not_lifecycle hnl, hk]

/-- A name whose kind is one a charm reacts to: the relation event of that kind when the
relation id reads and the kind's fields are there, and an `InvalidRecord` refusal otherwise. -/
theorem ofHook_relation {hook kind : String} (hk : kind ∈ relationKinds)
    (hafter : KindAfterMarker hook kind) (env : HookEnv) :
    (∀ e, ofHook hook env = .ok (some e) ↔
        ∃ r, env.relation? = some r ∧ env.Carries r kind e) ∧
      ((∃ msg, ofHook hook env = .error (.invalidRecord msg)) ↔
        env.relation? = none ∨ env.Lacks kind) ∧
      ((∃ e, ofHook hook env = .ok (some e)) ∨
        ∃ msg, ofHook hook env = .error (.invalidRecord msg)) := by
  have hkind := relationKind_eq_some_iff.2 hafter
  rcases env.relation_cases hook with ⟨r, hr, hr?⟩ | ⟨msg, hr, hr?⟩
  · -- the relation reads, and the kind decides
    have hrun : ofHook hook env = ofRelationHook hook kind env r := by
      rw [ofHook_of_relationKind_eq_some hkind, hr]
      rfl
    rw [hrun, hr?]
    refine ⟨fun e => ?_, ?_, ?_⟩
    · rw [ofRelationHook_eq_ok_iff hk]
      simp
    · rw [ofRelationHook_eq_error_iff hk]
      simp
    · rcases ofRelationHook_cases hk hook env r with ⟨e, h, -⟩ | ⟨msg, h, -⟩
      · exact .inl ⟨e, h⟩
      · exact .inr ⟨msg, h⟩
  · -- the relation does not read, and the hook is refused
    have hrun : ofHook hook env = .error (.invalidRecord msg) := by
      rw [ofHook_of_relationKind_eq_some hkind, hr]
      rfl
    rw [hrun, hr?]
    exact ⟨fun e => by simp, by simp, .inr ⟨msg, rfl⟩⟩

/-- Any other name gives no event when it has no marker or the relation id reads, and is
refused as an `InvalidRecord` otherwise. -/
theorem ofHook_other {hook : String} (hnl : hook ∉ lifecycleHooks.map (·.1))
    (hnk : ∀ kind ∈ relationKinds, ¬ KindAfterMarker hook kind) (env : HookEnv) :
    (ofHook hook env = .ok none ↔
        ¬ relationMarker <:+: hook.toList ∨ env.relation? ≠ none) ∧
      (ofHook hook env = .ok none ∨ ∃ msg, ofHook hook env = .error (.invalidRecord msg)) := by
  cases hkind : relationKind hook with
  | none =>
    -- no marker at all: the name is no event, whatever the environment
    have hrun : ofHook hook env = .ok none := by
      rw [ofHook_of_not_lifecycle hnl, hkind]
    exact ⟨iff_of_true hrun (.inl (relationKind_eq_none_iff.1 hkind)), .inl hrun⟩
  | some kind =>
    -- the name has a marker, and the kind after the last one is none a charm reacts to
    have hout : kind ∉ relationKinds := fun hk =>
      hnk kind hk (relationKind_eq_some_iff.1 hkind)
    have hin : relationMarker <:+: hook.toList := by
      refine Classical.not_not.1 fun h => ?_
      rw [← relationKind_eq_none_iff, hkind] at h
      cases h
    -- the relation id is read before the kind is looked at: a missing or bad id is an error
    rcases env.relation_cases hook with ⟨r, hr, hr?⟩ | ⟨msg, hr, hr?⟩
    · have hrun : ofHook hook env = .ok none := by
        rw [ofHook_of_relationKind_eq_some hkind, hr]
        exact ofRelationHook_of_not_mem hout hook env r
      exact ⟨iff_of_true hrun (.inr (by simp [hr?])), .inl hrun⟩
    · have hrun : ofHook hook env = .error (.invalidRecord msg) := by
        rw [ofHook_of_relationKind_eq_some hkind, hr]
        rfl
      rw [hrun]
      refine ⟨⟨fun h => (by cases h), fun h => ?_⟩, .inr ⟨msg, rfl⟩⟩
      rcases h with h | h
      · exact absurd hin h
      · exact absurd hr? h

/-- Hook names are classified exactly. The six lifecycle names give their events whatever the
environment holds. A name whose text after its last `-relation-` is a relation kind gives that
kind's event on the relation the environment names, with the remote application and unit it
holds, and is refused as an `InvalidRecord` exactly when the relation id is missing or does
not read, or a field the kind needs is missing. Any other name gives no event exactly when it
has no `-relation-` or its relation id reads; otherwise it is refused as an `InvalidRecord`,
since the relation id is read before the kind is looked at. -/
theorem hook_names_classified (hook : String) (env : HookEnv) :
    (∀ e, (hook, e) ∈ lifecycleHooks → ofHook hook env = .ok (some e)) ∧
    (∀ kind ∈ relationKinds, KindAfterMarker hook kind →
      (∀ e, ofHook hook env = .ok (some e) ↔
        ∃ r, env.relation? = some r ∧ env.Carries r kind e) ∧
      ((∃ msg, ofHook hook env = .error (.invalidRecord msg)) ↔
        env.relation? = none ∨ env.Lacks kind) ∧
      ((∃ e, ofHook hook env = .ok (some e)) ∨
        ∃ msg, ofHook hook env = .error (.invalidRecord msg))) ∧
    (hook ∉ lifecycleHooks.map (·.1) →
      (∀ kind ∈ relationKinds, ¬ KindAfterMarker hook kind) →
      (ofHook hook env = .ok none ↔
        ¬ relationMarker <:+: hook.toList ∨ env.relation? ≠ none) ∧
      (ofHook hook env = .ok none ∨ ∃ msg, ofHook hook env = .error (.invalidRecord msg))) :=
  ⟨fun _ he => ofHook_lifecycle he env, fun _ hk hafter => ofHook_relation hk hafter env,
    fun hnl hnk => ofHook_other hnl hnk env⟩

/-- A changed hook of `mount:4` from the unit `nfs-proxy/0` is its relation event, the remote
application taken from the unit. -/
theorem hook_names_classified_mount_changed :
    ofHook "mount-relation-changed"
        { relationId := some "mount:4", remoteUnit := some "nfs-proxy/0" } =
      .ok (some (.relationChanged ⟨"mount", 4⟩ "nfs-proxy" (some "nfs-proxy/0"))) := by
  have hafter : KindAfterMarker "mount-relation-changed" "changed" :=
    (kindAfterMarker_iff (by decide)).2 ⟨"mount".toList, rfl⟩
  refine (((hook_names_classified _ _).2.1 "changed" (by decide) hafter).1 _).2
    ⟨⟨"mount", 4⟩, rfl, .changed rfl⟩

/-- A name with `-relation-` whose kind no charm reacts to is still refused when the relation
id is missing, so it is not classified as no event. -/
theorem unknown_relation_hook_needs_id :
    "mount-relation-foo" ∉ lifecycleHooks.map (·.1) ∧
      (∀ kind ∈ relationKinds, ¬ KindAfterMarker "mount-relation-foo" kind) ∧
      ofHook "mount-relation-foo" {} =
        .error (.invalidRecord "`mount-relation-foo` hook without JUJU_RELATION_ID") := by
  refine ⟨by decide, fun kind hk hafter => ?_, rfl⟩
  have hkind : relationKind "mount-relation-foo" = some "foo" := rfl
  rw [relationKind_eq_some_iff.2 hafter, Option.some.injEq] at hkind
  rw [hkind] at hk
  exact absurd hk (by decide)

end HostEvent

end ShareBroker
