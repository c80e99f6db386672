import ShareBroker.Proofs.Mount.Reconcile

/-!
# Making the machine ready

`Executor.install` makes sure of each required package, in order, and then creates the autofs
files; `Executor.installed` checks that both are done. Installing in closed form
(`Executor.install_eq`) changes only the packages, the files and the calls, and the calls it
adds are one `ensurePackage` per required package followed by `initTables`. Every install
leaves an installed machine, whatever packages were there before, and neither installing nor
reconciling changes whether the platform can mount or whether the machine is ready.

A pass of the filesystem client works on `Executor.prepared`: the machine as it is when
installed, and installed first otherwise.

## Key results

- `Executor.install_eq`, `Executor.installed_install`.
- `Executor.supported_reconcile`, `Executor.installed_reconcile`: a pass of reconciling keeps
  both.
- `Executor.table_reconcile_of_ok`: after an unforced pass that succeeds, the map written is
  the table's.
-/

namespace ShareBroker

namespace MountTable

theorem insertSorted_perm (s : String) (l : List String) : (insertSorted s l).Perm (s :: l) := by
  induction l with
  | nil => exact List.Perm.refl _
  | cons t l ih =>
    unfold insertSorted
    split
    · exact (ih.cons t).trans (List.Perm.swap s t l)
    · exact List.Perm.refl _

theorem mem_insertSorted {a s : String} {l : List String} :
    a ∈ insertSorted s l ↔ a = s ∨ a ∈ l := by
  rw [(insertSorted_perm s l).mem_iff, List.mem_cons]

end MountTable

namespace Executor

/-- Making sure of `p` keeps every other package. -/
theorem mem_packages_ensurePackage {a p : String} (x : Executor) :
    a ∈ (x.ensurePackage p).packages ↔ a = p ∨ (a ∈ x.packages ∧ a ≠ p) := by
  simp [ensurePackage, record, MountTable.mem_insertSorted]

theorem foldl_ensurePackage (ps : List String) (x : Executor) :
    ps.foldl ensurePackage x =
      { x with
        packages := ps.foldl (fun acc p => MountTable.insertSorted p (acc.filter (· != p)))
          x.packages
        calls := x.calls ++ ps.map .ensurePackage } := by
  induction ps generalizing x with
  | nil => simp
  | cons p ps ih =>
    rw [List.foldl_cons, ih]
    simp [ensurePackage, record]

/-- Installing in closed form: the packages, the files and the calls change, nothing else. -/
theorem install_eq (x : Executor) :
    x.install =
      { x with
        packages := requiredPackages.foldl
          (fun acc p => MountTable.insertSorted p (acc.filter (· != p))) x.packages
        tables := true
        calls := x.calls ++ requiredPackages.map .ensurePackage ++ [.initTables] } := by
  rw [install, foldl_ensurePackage]
  rfl

/-- Every install leaves the machine ready to mount. -/
theorem installed_install (x : Executor) : x.install.installed = true := by
  -- each later package is made sure of without dropping the earlier ones
  simp [installed, install, initTables, record, requiredPackages, mem_packages_ensurePackage]

theorem supported_install (x : Executor) : x.install.supported = x.supported := by
  rw [install_eq]
  rfl

theorem table_install (x : Executor) : x.install.table = x.table := by
  rw [install_eq]

theorem calls_install (x : Executor) :
    x.install.calls = x.calls ++ requiredPackages.map .ensurePackage ++ [.initTables] := by
  rw [install_eq]

/-! ## What reconciling keeps -/

section Reconcile

variable (x : Executor) (t : MountTable) (force : Bool)

theorem supported_reconcile : (x.reconcile t force).2.supported = x.supported := by
  rw [reconcile_eq]
  split_ifs <;> rfl

theorem installed_reconcile : (x.reconcile t force).2.installed = x.installed := by
  rw [reconcile_eq]
  split_ifs <;> rfl

end Reconcile

/-- After an unforced pass that succeeds, the map written is the table's: either it already
was, or the pass wrote it. -/
theorem table_reconcile_of_ok {x : Executor} {t : MountTable} {b : Bool}
    (h : (x.reconcile t false).1 = .ok b) : (x.reconcile t false).2.table = t.render := by
  rw [reconcile_eq] at h ⊢
  -- a failed reload is not a success, so the pass either skipped or wrote the table
  split_ifs at h ⊢ with hskip
  · exact hskip.2.symm
  · rfl

/-! ## The machine a pass works on -/

/-- The machine made ready: as it is when installed, installed first otherwise. -/
def prepared (x : Executor) : Executor := if x.installed then x else x.install

theorem installed_prepared (x : Executor) : x.prepared.installed = true := by
  unfold prepared
  split
  · assumption
  · exact installed_install x

theorem supported_prepared (x : Executor) : x.prepared.supported = x.supported := by
  unfold prepared
  split
  · rfl
  · exact supported_install x

theorem table_prepared (x : Executor) : x.prepared.table = x.table := by
  unfold prepared
  split
  · rfl
  · exact table_install x

/-- Preparing adds no call, or the calls of an install. -/
theorem calls_prepared (x : Executor) :
    x.prepared.calls = x.calls ∨
      x.prepared.calls = x.calls ++ requiredPackages.map .ensurePackage ++ [.initTables] := by
  unfold prepared
  split
  · exact .inl rfl
  · exact .inr (calls_install x)

/-- A ready machine is its own preparation. -/
theorem prepared_of_installed {x : Executor} (h : x.installed = true) : x.prepared = x := by
  rw [prepared, if_pos h]

end Executor

end ShareBroker
