import ShareBroker.Host.Basic
import ShareBroker.Mount.Executor

/-! # Running a charm

A charm reacts to one host event at a time by acting on the host's model and, for the charm
that mounts filesystems, on the machine (`Executor`). `CharmM` is that action; it keeps what it
did before failing, on both.

A charm may ask for an event to be delivered again later (`Handled.defer`). `dispatch` first
delivers the events deferred before, oldest first, then the new event:

* a deferred event whose relation is no longer live is dropped;
* when a deferred event fails, it is queued again together with every event after it, and the
  dispatch fails with its error.
-/

namespace ShareBroker

/-- Acting on the host and the machine: an action may fail, and keeps what it did before
failing. -/
abbrev CharmM := ExceptT Error (StateM (Host × Executor))

namespace CharmM

/-- Runs a host action, leaving the machine alone. -/
def host {α : Type} (m : HostM α) : CharmM α :=
  ExceptT.mk fun (hx : Host × Executor) =>
    let (r, h) := m.run.run hx.1
    (r, (h, hx.2))

/-- Runs a machine action, leaving the host alone. -/
def machine {α : Type} (f : Executor → Outcome α × Executor) : CharmM α :=
  ExceptT.mk fun (hx : Host × Executor) =>
    let (r, x) := f hx.2
    (r, (hx.1, x))

/-- Reads the machine. -/
def observe {α : Type} (f : Executor → α) : CharmM α := machine fun x => (.ok (f x), x)

/-- Changes the machine. -/
def change (f : Executor → Executor) : CharmM Unit := machine fun x => (.ok (), f x)

instance : MonadLift HostM CharmM := ⟨host⟩

end CharmM

/-- Runs an action and returns its outcome, keeping what it did either way. -/
def HostM.attempt {α : Type} (m : HostM α) : HostM (Outcome α) := ExceptT.mk (Except.ok <$> m.run)

/-- What a charm did with an event. -/
inductive Handled where
  | done
  /-- Deliver the event again on a later dispatch. -/
  | defer
  deriving DecidableEq

/-- Delivers an event, deferring it when the charm asks. -/
def deliver (handle : HostEvent → CharmM Handled) (e : HostEvent) : CharmM Unit := do
  match ← handle e with
  | .done => pure ()
  | .defer => HostM.defer e

/-- Delivers a deferred event again, unless its relation is gone. -/
def redeliver (handle : HostEvent → CharmM Handled) (e : HostEvent) : CharmM Unit := do
  match e.relation? with
  | some r =>
    if (← HostM.relationsOn r.endpoint).contains r then deliver handle e else pure ()
  | none => deliver handle e

/-- Delivers deferred events in order; on a failure, queues the failed event and the rest
again and fails. -/
def redeliverAll (handle : HostEvent → CharmM Handled) : List HostEvent → CharmM Unit
  | [] => pure ()
  | e :: rest =>
    tryCatch (redeliver handle e) (fun err => do
      for d in e :: rest do
        HostM.defer d
      throw err) *> redeliverAll handle rest

/-- One dispatch: the events deferred before, oldest first, then `e`. -/
def dispatch (handle : HostEvent → CharmM Handled) (e : HostEvent) : CharmM Unit := do
  redeliverAll handle (← HostM.takeDeferred)
  deliver handle e

end ShareBroker
