import ShareBroker.Mount.Table

/-! # Applying the mount table

The machine side of mounting is an `Executor`: what the platform reports about
virtualization, the installed packages, whether the autofs files exist, the map last written,
and whether reloading autofs fails. Every action is appended to `calls`, so a run can be
checked afterwards.

* `Executor.supported`: mounting works unless the platform reports an LXC container; a
  platform that cannot tell is assumed to work.
* `Executor.installed`: the three packages are present and the autofs files exist.
* `Executor.install`: makes sure of each package, in order, then creates the files.
* `Executor.reconcile`: applies a table. Unless forced, a table equal to the current map is
  left alone (`false`). Otherwise it creates every mountpoint, in order, writes the map and
  reloads autofs (`true`); when the reload fails the previous map is written back and the
  failure is reported as a mount error, so the map is applied wholly or not at all.
-/

namespace ShareBroker

/-- One action asked of the machine. -/
inductive Call where
  | ensurePackage (name : String)
  | initTables
  | createMountpoint (path : String)
  | writeTable
  | reload
  deriving DecidableEq

/-- The packages mounting needs. -/
def requiredPackages : List String := ["ceph-common", "nfs-common", "autofs"]

/-- The machine side of mounting. -/
structure Executor where
  /-- What the platform reports about virtualization; `none` when it cannot tell. -/
  virtualization : Option String := none
  /-- The installed packages, sorted, each once (`Executor.packageSet`). -/
  packages : List String := []
  /-- Whether the autofs files exist. -/
  tables : Bool := false
  /-- The map last written. -/
  table : String := ""
  /-- Whether reloading autofs fails. -/
  failReload : Bool := false
  /-- Every action asked, in order. -/
  calls : List Call := []
  deriving DecidableEq, Inhabited

namespace Executor

/-- Whether `needle` occurs in `hay`. -/
def hasInfix (needle : List Char) : List Char → Bool
  | [] => needle.isEmpty
  | c :: rest => needle.isPrefixOf (c :: rest) || hasInfix needle rest

/-- Whether mounting works on this platform. -/
def supported (x : Executor) : Bool :=
  match x.virtualization with
  | some v => !hasInfix "lxc".toList v.toList
  | none => true

/-- Whether everything mounting needs is in place. -/
def installed (x : Executor) : Bool :=
  requiredPackages.all (x.packages.contains ·) && x.tables

/-- Packages as a set: sorted, each once. -/
def packageSet (ps : List String) : List String :=
  ps.foldl (fun acc p => if acc.contains p then acc else MountTable.insertSorted p acc) []

/-- Records an action. -/
def record (x : Executor) (c : Call) : Executor := { x with calls := x.calls ++ [c] }

/-- Makes sure a package is installed. -/
def ensurePackage (x : Executor) (name : String) : Executor :=
  { x.record (.ensurePackage name) with packages := MountTable.insertSorted name (x.packages.filter (· != name)) }

/-- Creates the autofs files. -/
def initTables (x : Executor) : Executor := { x.record .initTables with tables := true }

/-- Installs the packages, then creates the autofs files. -/
def install (x : Executor) : Executor :=
  (requiredPackages.foldl ensurePackage x).initTables

/-- Writes the map. -/
def writeTable (x : Executor) (t : String) : Executor := { x.record .writeTable with table := t }

/-- The error a failed reload reports. -/
def reloadError : Error := .hookTool "systemctl restart autofs" "Job for autofs.service failed"

/-- Applies a table; see the module comment. -/
def reconcile (x : Executor) (t : MountTable) (force : Bool) : Outcome Bool × Executor :=
  let text := t.render
  let previous := x.table
  if !force ∧ text = previous then (.ok false, x)
  else
    let created := t.mountpoints.foldl (fun y mp => y.record (.createMountpoint mp)) x
    let written := (created.writeTable text).record .reload
    if written.failReload then
      (.error (.mount reloadError.message), written.writeTable previous)
    else (.ok true, written)

end Executor

end ShareBroker
