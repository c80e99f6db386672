import Mathlib.Data.String.Basic
import ShareBroker.Mount.Executor

/-!
# Applying a mount table wholly or not at all

`Executor.reconcile` makes the machine serve a mount table. This file gives the pass in closed
form (`Executor.reconcile_eq`): an unforced pass over the table already written does nothing;
any other creates every mountpoint, writes the map and reloads autofs, and when the reload
fails writes the old map back, so the map on disk is either the new one, after a success, or
the old one.

Tables are built from `MountTable.empty` by `MountTable.add` (`MountTable.Built`), which keeps
mountpoints in ascending order, so the mountpoints are created in that order.

## Key results

- `Executor.reconcile_unchanged` and `Executor.reconcile_applies`: the two kinds of pass.
- `MountTable.Built.sorted`: every table a charm builds has its mountpoints in ascending order.
- `Executor.reconcile_all_or_nothing`: the calls, outcome and map of every pass; after a
  success no unforced pass does anything while the map stays, and after a failed reload the
  next unforced pass applies the table again.
-/

namespace ShareBroker

namespace Executor

theorem foldl_record_createMountpoint (l : List String) (x : Executor) :
    l.foldl (fun y mp => y.record (.createMountpoint mp)) x =
      { x with calls := x.calls ++ l.map .createMountpoint } := by
  induction l generalizing x with
  | nil => simp
  | cons mp l ih =>
    rw [List.foldl_cons, ih]
    simp [record]

/-- The calls of a pass that applies `t`: each mountpoint created in order, the map written,
autofs reloaded, and the old map written back when the reload fails. -/
def applyCalls (t : MountTable) (failReload : Bool) : List Call :=
  t.mountpoints.map .createMountpoint ++ [.writeTable, .reload] ++
    if failReload then [.writeTable] else []

/-- A pass in closed form: only the calls and the map change. -/
theorem reconcile_eq (x : Executor) (t : MountTable) (force : Bool) :
    x.reconcile t force =
      if force = false ∧ t.render = x.table then (.ok false, x)
      else if x.failReload then
        (.error (.mount reloadError.message), { x with calls := x.calls ++ applyCalls t true })
      else (.ok true, { x with table := t.render, calls := x.calls ++ applyCalls t false }) := by
  simp only [reconcile]
  rw [foldl_record_createMountpoint]
  by_cases hskip : force = false ∧ t.render = x.table
  · simp [hskip]
  · simp [hskip, writeTable, record, applyCalls]

/-- An unforced pass over the table already written does nothing. -/
theorem reconcile_unchanged {x : Executor} {t : MountTable} (h : t.render = x.table) :
    x.reconcile t false = (.ok false, x) := by
  rw [reconcile_eq, if_pos ⟨rfl, h⟩]

/-- Any other pass makes every call, and applies the table or leaves the old map. -/
theorem reconcile_applies {x : Executor} {t : MountTable} {force : Bool}
    (h : force = true ∨ t.render ≠ x.table) :
    x.reconcile t force =
      if x.failReload then
        (.error (.mount reloadError.message), { x with calls := x.calls ++ applyCalls t true })
      else (.ok true, { x with table := t.render, calls := x.calls ++ applyCalls t false }) := by
  have hskip : ¬(force = false ∧ t.render = x.table) := by
    rintro ⟨rfl, heq⟩
    simp_all
  rw [reconcile_eq, if_neg hskip]

end Executor

namespace MountTable

/-- Mountpoints strictly ascending, so each once. -/
def Sorted (t : MountTable) : Prop := t.entries.Pairwise (fun a b => a.1 < b.1)

theorem mem_putEntry {mp : String} {e : MountEntry} {l : List (String × MountEntry)}
    {x : String × MountEntry} (h : x ∈ putEntry mp e l) : x = (mp, e) ∨ x ∈ l := by
  induction l with
  | nil => simpa [putEntry] using h
  | cons y l ih =>
    obtain ⟨mp', e'⟩ := y
    simp only [putEntry] at h
    split_ifs at h with hlt heq
    · simpa using h
    · rcases List.mem_cons.1 h with h | h
      · exact .inl h
      · exact .inr (List.mem_cons_of_mem _ h)
    · rcases List.mem_cons.1 h with h | h
      · exact .inr (h ▸ List.mem_cons_self)
      · rcases ih h with h | h
        · exact .inl h
        · exact .inr (List.mem_cons_of_mem _ h)

theorem sorted_putEntry {mp : String} {e : MountEntry} {l : List (String × MountEntry)}
    (hl : l.Pairwise (fun a b => a.1 < b.1)) :
    (putEntry mp e l).Pairwise (fun a b => a.1 < b.1) := by
  induction l with
  | nil => simp [putEntry]
  | cons y l ih =>
    obtain ⟨mp', e'⟩ := y
    rw [List.pairwise_cons] at hl
    simp only [putEntry]
    split_ifs with hlt heq
    · -- `mp` goes in front of mountpoints all above `mp'`, hence above `mp`
      refine List.Pairwise.cons (fun x hx => ?_) (List.Pairwise.cons hl.1 hl.2)
      rcases List.mem_cons.1 hx with rfl | hx
      · exact hlt
      · exact lt_trans hlt (hl.1 x hx)
    · subst heq
      exact List.Pairwise.cons hl.1 hl.2
    · have hgt : mp' < mp := lt_of_le_of_ne (not_lt.1 hlt) (Ne.symm heq)
      refine List.Pairwise.cons (fun x hx => ?_) (ih hl.2)
      rcases mem_putEntry hx with rfl | hx
      · exact hgt
      · exact hl.1 x hx

theorem Sorted.add {t t' : MountTable} (ht : t.Sorted) {info : FsInfo} {mp : String}
    {opts : MountOptions} (h : t.add info mp opts = .ok t') : t'.Sorted := by
  unfold MountTable.add at h
  -- past the checks, the only success is the table with the entry put in
  split_ifs at h
  split at h
  simp only at h
  split at h
  · simp at h
  · simp only [Except.ok.injEq] at h
    rw [← h]
    exact sorted_putEntry ht

/-- The tables a charm can build: the empty one, and whatever a successful `add` makes of
one. -/
inductive Built : MountTable → Prop
  | empty : Built MountTable.empty
  | add {t t' : MountTable} {info : FsInfo} {mp : String} {opts : MountOptions} :
      Built t → t.add info mp opts = .ok t' → Built t'

theorem Built.sorted {t : MountTable} (ht : t.Built) : t.Sorted := by
  induction ht with
  | empty => exact List.Pairwise.nil
  | add _ h ih => exact ih.add h

theorem Sorted.mountpoints {t : MountTable} (ht : t.Sorted) : t.mountpoints.Pairwise (· < ·) :=
  List.pairwise_map.2 ht

end MountTable

namespace Executor

/-- Reconciliation applies a table wholly or not at all and is idempotent. An unforced pass
over the table already written returns `false` and makes no call. Any other pass creates the
mountpoints, in ascending order, writes the map and reloads autofs, and writes the old map
back when the reload fails: it returns `true` with the new map, or a mount error with the old
map. Packages, autofs files and virtualization are never touched. Hence once a pass has
succeeded, no unforced pass makes a call until the map is changed by something else, and a
failed reload is retried by the next unforced pass. -/
theorem reconcile_all_or_nothing {t : MountTable} (ht : t.Built) (x : Executor) (force : Bool) :
    (force = false → t.render = x.table → x.reconcile t force = (.ok false, x)) ∧
    ((force = true ∨ t.render ≠ x.table) →
      (x.reconcile t force).2.calls = x.calls ++ applyCalls t x.failReload ∧
      (x.reconcile t force).1 =
        (if x.failReload then .error (.mount reloadError.message) else .ok true) ∧
      (x.reconcile t force).2.table = (if x.failReload then x.table else t.render)) ∧
    t.mountpoints.Pairwise (· < ·) ∧
    (x.reconcile t force).2.packages = x.packages ∧
    (x.reconcile t force).2.tables = x.tables ∧
    (x.reconcile t force).2.virtualization = x.virtualization ∧
    ((∃ b, (x.reconcile t force).1 = .ok b) →
      ∀ y : Executor, y.table = (x.reconcile t force).2.table →
        y.reconcile t false = (.ok false, y)) ∧
    (force = false → ∀ e, (x.reconcile t force).1 = .error e →
      ((x.reconcile t force).2.reconcile t false).2.calls =
        (x.reconcile t force).2.calls ++ applyCalls t x.failReload) := by
  -- the skip, the applied pass and the order of the table are lemmas of their own; what is
  -- left is what each pass leaves behind for the next
  refine ⟨fun hf h => hf ▸ reconcile_unchanged h, fun h => ?_, ht.sorted.mountpoints, ?_⟩
  · rw [reconcile_applies h]
    cases x.failReload <;> simp
  by_cases hskip : force = false ∧ t.render = x.table
  · -- nothing is done, and the map written is the one asked for
    obtain ⟨rfl, heq⟩ := hskip
    rw [reconcile_unchanged heq]
    refine ⟨rfl, rfl, rfl, fun _ y hy => reconcile_unchanged (heq.trans hy.symm), ?_⟩
    intro _ e he
    simp at he
  · -- the pass is forced, or the map differs: the table is written and the map reloaded
    have happ : force = true ∨ t.render ≠ x.table := by
      by_cases hf : force = true
      · exact .inl hf
      · exact .inr fun heq => hskip ⟨by simpa using hf, heq⟩
    rw [reconcile_applies happ]
    by_cases hfail : x.failReload = true
    · -- the old map is back, so the next unforced pass applies the table again
      rw [if_pos hfail]
      refine ⟨rfl, rfl, rfl, fun ⟨b, hb⟩ => by simp at hb, ?_⟩
      intro hf _ _
      have hne : t.render ≠ x.table := fun heq => hskip ⟨hf, heq⟩
      rw [reconcile_applies (x := { x with calls := x.calls ++ applyCalls t true }) (.inr hne)]
      simp [hfail]
    · -- the table is applied, and the next pass finds it written
      rw [if_neg hfail]
      refine ⟨rfl, rfl, rfl, fun _ y hy => reconcile_unchanged hy.symm, ?_⟩
      intro _ e he
      simp at he

/-- A Lustre table of one mountpoint is built by one `add`; a first pass on a fresh machine
applies it, and the pass after it does nothing. -/
theorem reconcile_all_or_nothing_lustre :
    let t : MountTable :=
      ⟨[("/data", ⟨"mgs1:/fs", ["dev", "exec", "fstype=lustre", "rw", "suid"]⟩)]⟩
    let x : Executor := default
    t.Built ∧ (x.reconcile t false).2.calls = applyCalls t false ∧
      (x.reconcile t false).2.reconcile t false = (.ok false, (x.reconcile t false).2) := by
  intro t x
  have habs : "/data".startsWith "/" = true := by decide +kernel
  have hadd : MountTable.empty.add (.lustre ["mgs1"] "fs") "/data" {} = .ok t := by
    unfold MountTable.add
    rw [habs]
    rfl
  have ht : t.Built := .add .empty hadd
  have hne : t.render ≠ x.table := by decide +kernel
  obtain ⟨-, happ, -, -, -, -, hsucc, -⟩ := reconcile_all_or_nothing ht x false
  obtain ⟨hcalls, hres, -⟩ := happ (.inr hne)
  exact ⟨ht, hcalls, hsucc ⟨true, hres⟩ _ rfl⟩

end Executor

end ShareBroker
