import Mathlib
import ShareBroker.Proofs.Host.Invariant
import ShareBroker.Charm.Kind

/-!
# Interfaces and charms keep the invariants of the host

The relation interfaces and the five charms act on the host only through the primitives of
`HostM`, and every invariant of the host (`Host.Invariant`) is kept by each primitive. This
file carries an invariant through every action built from them, by `mvcgen` over the
primitives' `spec` lemmas: whatever the action and whether it succeeds or fails, it ends on a
host where the invariant still holds.

A charm acts on the host and the machine together (`CharmM`); `CharmM.Preserves I m` speaks of
the host half of the state, and the lifts of host actions and of machine actions are specified
once.

## Key results

- `FilesystemProvides.setInfo_preserves`, `ShareProvides.setShare_preserves`,
  `MountRequires.setMountInfo_preserves`, `ShareRequires.requestShare_preserves`,
  `MountProvides.setMountStatus_preserves`: the writes the interfaces offer.
- `FilesystemProvides.handle_preserves` and the other `handle_preserves`: every interface
  side's reaction to an event.
- `dispatch_preserves`: a dispatch keeps an invariant when the charm's handler does, deferred
  events and the failure path included; `CharmKind.run_preserves` for each of the five charms.
-/

open Std.Do

set_option mvcgen.warning false

namespace ShareBroker

/-- Every run of the charm action `m` from a state whose host satisfies `I` ends, by success
or by failure, in a state whose host satisfies `I`; the machine is free. -/
abbrev CharmM.Preserves {α : Type} (I : Host.Invariant) (m : CharmM α) : Prop :=
  ⦃fun s => ⌜I.holds s.1⌝⦄ m ⦃post⟨fun _ s => ⌜I.holds s.1⌝, fun _ s => ⌜I.holds s.1⌝⟩⦄

theorem CharmM.Preserves.run {α : Type} {I : Host.Invariant} {m : CharmM α}
    (hm : CharmM.Preserves I m) {s : Host × Executor} (hs : I.holds s.1) :
    I.holds (m.run.run s).2.1 :=
  run_of_triple hm s hs

variable {I : Host.Invariant}

/-! ## Publishing a filesystem -/

namespace FilesystemProvides

@[spec] theorem stored_preserves (side : FilesystemProvides) : HostM.Preserves I side.stored := by
  mvcgen [stored]

@[spec] theorem publish_preserves (t : LeadershipToken) (r : Relation) (uri : String)
    (secret : Option String) : HostM.Preserves I (publish t r uri secret) := by
  mvcgen [publish]

/-- Publishing a record: the validation, the sealing of the credentials, the copy in the peer
relation and the loop over the relations, each built from the primitives. -/
@[spec] theorem setInfo_preserves (side : FilesystemProvides) (t : LeadershipToken) (i : FsInfo) :
    HostM.Preserves I (side.setInfo t i) := by
  mvcgen [setInfo]

@[spec] theorem handle_preserves (side : FilesystemProvides) (e : HostEvent) :
    HostM.Preserves I (side.handle e) := by
  mvcgen [handle]

end FilesystemProvides

namespace FilesystemRequires

@[spec] theorem handle_preserves (side : FilesystemRequires) (e : HostEvent) :
    HostM.Preserves I (side.handle e) := by
  mvcgen [handle]

@[spec] theorem endpoints_preserves (side : FilesystemRequires) :
    HostM.Preserves I side.endpoints := by
  mvcgen [endpoints]

@[spec] theorem endpointsByType_preserves (side : FilesystemRequires) :
    HostM.Preserves I side.endpointsByType := by
  mvcgen [endpointsByType]

end FilesystemRequires

/-! ## Mount requests -/

namespace MountRequires

@[spec] theorem providerChanged_preserves (r : Relation) (unit : String) :
    HostM.Preserves I (providerChanged r unit) := by
  mvcgen [providerChanged]

@[spec] theorem handle_preserves (side : MountRequires) (e : HostEvent) :
    HostM.Preserves I (side.handle e) := by
  mvcgen [handle]

@[spec] theorem setMountInfo_preserves (side : MountRequires) (t : LeadershipToken) (r : Relation)
    (info : MountInfo) : HostM.Preserves I (side.setMountInfo t r info) := by
  mvcgen [setMountInfo]

end MountRequires

namespace MountProvides

@[spec] theorem mountInfo_preserves (side : MountProvides) (r : Relation) :
    HostM.Preserves I (side.mountInfo r) := by
  mvcgen [mountInfo]

@[spec] theorem handle_preserves (side : MountProvides) (e : HostEvent) :
    HostM.Preserves I (side.handle e) := by
  mvcgen [handle]

@[spec] theorem setMountStatus_preserves (side : MountProvides) (mounted : Bool) :
    HostM.Preserves I (side.setMountStatus mounted) := by
  mvcgen [setMountStatus]

end MountProvides

/-! ## Shares -/

namespace ShareProvides

@[spec] theorem handle_preserves (side : ShareProvides) (e : HostEvent) :
    HostM.Preserves I (side.handle e) := by
  mvcgen [handle]

@[spec] theorem setShare_preserves (side : ShareProvides) (t : LeadershipToken) (r : Relation)
    (share : ShareInfo) (auth : AuthInfo) : HostM.Preserves I (side.setShare t r share auth) := by
  mvcgen [setShare]

end ShareProvides

namespace ShareRequires

@[spec] theorem handle_preserves (side : ShareRequires) (e : HostEvent) :
    HostM.Preserves I (side.handle e) := by
  mvcgen [handle]

@[spec] theorem requestShare_preserves (side : ShareRequires) (t : LeadershipToken)
    (r : Relation) (name : String) : HostM.Preserves I (side.requestShare t r name) := by
  mvcgen [requestShare]

@[spec] theorem serverData_preserves (r : Relation) : HostM.Preserves I (serverData r) := by
  mvcgen [serverData]

@[spec] theorem shareInfo_preserves (side : ShareRequires) (r : Relation) :
    HostM.Preserves I (side.shareInfo r) := by
  mvcgen [shareInfo]

@[spec] theorem authInfo_preserves (side : ShareRequires) (r : Relation) :
    HostM.Preserves I (side.authInfo r) := by
  mvcgen [authInfo]

end ShareRequires

/-! ## The charms' host actions -/

/-- Attempting an action keeps what the action keeps: it runs the same way and only catches
the failure. -/
@[spec] theorem HostM.attempt_preserves {α : Type} {m : HostM α} (hm : HostM.Preserves I m) :
    HostM.Preserves I (HostM.attempt m) :=
  triple_of_run fun _ hh => hm.run hh

@[spec] theorem publishConfigured_preserves (info : Except Status FsInfo) :
    HostM.Preserves I (publishConfigured info) := by
  mvcgen [publishConfigured]

@[spec] theorem NfsProxy.handle_preserves (e : HostEvent) :
    HostM.Preserves I (NfsProxy.handle e) := by
  mvcgen [NfsProxy.handle]

@[spec] theorem LustreProxy.handle_preserves (e : HostEvent) :
    HostM.Preserves I (LustreProxy.handle e) := by
  mvcgen [LustreProxy.handle]

namespace CephfsProxy

@[spec] theorem configure_preserves : HostM.Preserves I configure := by
  mvcgen [configure]

@[spec] theorem serveShare_preserves (ev : ShareProvidesEvent) :
    HostM.Preserves I (serveShare ev) := by
  mvcgen [serveShare]

@[spec] theorem handle_preserves (e : HostEvent) : HostM.Preserves I (handle e) := by
  mvcgen [handle]

end CephfsProxy

namespace MountClient

/-- Publishing a mount request on each relation in turn, by recursion on the relations. -/
@[spec] theorem publishAll_preserves (t : LeadershipToken) (info : MountInfo)
    (rs : List Relation) : HostM.Preserves I (publishAll t info rs) := by
  induction rs with
  | nil => mvcgen [publishAll]
  | cons r rs ih => mvcgen [publishAll, ih]

@[spec] theorem requestMount_preserves : HostM.Preserves I requestMount := by
  mvcgen [requestMount]

@[spec] theorem handle_preserves (e : HostEvent) : HostM.Preserves I (handle e) := by
  mvcgen [handle]

end MountClient

namespace FilesystemClient

@[spec] theorem endpoint_preserves : HostM.Preserves I endpoint := by
  mvcgen [endpoint]

@[spec] theorem mountInfo_preserves : HostM.Preserves I mountInfo := by
  mvcgen [mountInfo]

/-- Stopping tells the workloads nothing is mounted, shows why and attempts the application's
status. -/
@[spec] theorem stop_preserves (s : FilesystemClient.Stop) : HostM.Preserves I (stop s) := by
  mvcgen [stop]

end FilesystemClient

/-! ## Charm actions

A charm's actions keep an invariant of the host half of its state; the machine half is free. -/

namespace CharmM

/-- A host action run by a charm keeps on the host what it keeps there. -/
@[spec] theorem host_preserves {α : Type} {m : HostM α} (hm : HostM.Preserves I m) :
    CharmM.Preserves I (host m) :=
  triple_of_run (P := fun s : Host × Executor => I.holds s.1) fun _ hs => hm.run hs

/-- The same for a host action lifted into a charm's `do` block. -/
@[spec] theorem monadLift_preserves {α : Type} {m : HostM α} (hm : HostM.Preserves I m) :
    CharmM.Preserves I (MonadLift.monadLift m : CharmM α) :=
  host_preserves hm

/-- A machine action leaves the host alone. -/
@[spec] theorem machine_preserves {α : Type} (f : Executor → Outcome α × Executor) :
    CharmM.Preserves I (machine f) :=
  triple_of_run (P := fun s : Host × Executor => I.holds s.1) fun _ hs => hs

/-- A loop of the charm whose body preserves an invariant preserves it. -/
@[spec high] theorem forIn_preserves {β γ : Type} (xs : List γ) (b : β)
    {f : γ → β → CharmM (ForInStep β)} (hf : ∀ a b, CharmM.Preserves I (f a b)) :
    CharmM.Preserves I (forIn xs b f) :=
  forIn_keeps (P := fun s : Host × Executor => I.holds s.1) xs b hf

end CharmM

/-- Converging recomputes the wanted mounts: the machine is read and changed freely, and the
host is reached through its primitives. -/
@[spec] theorem FilesystemClient.converge_preserves :
    CharmM.Preserves I FilesystemClient.converge := by
  mvcgen [FilesystemClient.converge, CharmM.observe, CharmM.change]

@[spec] theorem FilesystemClient.handle_preserves (e : HostEvent) :
    CharmM.Preserves I (FilesystemClient.handle e) := by
  mvcgen [FilesystemClient.handle]

/-- Each of the five charms reacts to an event keeping every invariant of the host. -/
@[spec] theorem CharmKind.handle_preserves (k : CharmKind) (e : HostEvent) :
    CharmM.Preserves I (k.handle e) := by
  cases k <;> mvcgen [CharmKind.handle]

/-! ## Dispatch

A dispatch hands the charm's handler the deferred events and then the new one, and on a failed
redelivery queues events again; the queue is the host's, written through its primitives, so
every step keeps an invariant when the handler does. -/

section Dispatch

variable {handle : HostEvent → CharmM Handled} (hh : ∀ e, CharmM.Preserves I (handle e))
include hh

/-- Redelivery, by recursion on the queue; a failure queues the rest again and rethrows. -/
theorem redeliverAll_preserves (ds : List HostEvent) :
    CharmM.Preserves I (redeliverAll handle ds) := by
  induction ds with
  | nil => mvcgen [redeliverAll]
  | cons d ds ih =>
    simp only [redeliverAll, seqRight_eq_bind]
    mvcgen [redeliver, deliver, hh, ih]

theorem dispatch_preserves (e : HostEvent) : CharmM.Preserves I (dispatch handle e) := by
  have hall := redeliverAll_preserves hh
  mvcgen [dispatch, deliver, hh, hall]

end Dispatch

/-- One dispatch to any of the five charms keeps every invariant of the host. -/
theorem CharmKind.run_preserves (k : CharmKind) (e : HostEvent) :
    CharmM.Preserves I (k.run e) :=
  dispatch_preserves (CharmKind.handle_preserves k) e

end ShareBroker
