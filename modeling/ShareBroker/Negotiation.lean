/-! # Request negotiation

Both sides of a relation follow a small state machine.

The provider waits for a request, serves it, and forgets it when the relation breaks:

* `Broken` always returns to `idle`;
* `Joined` moves `idle` to `awaitingRequest`, and is ignored elsewhere;
* a request added or changed always leads to `requested` and asks for service;
* a withdrawn request ends service (`awaitingRequest`, signal `unrequested`) when one was
  requested or served, and is ignored otherwise;
* `Retry` asks again only while `requested`;
* `Published` marks a request as `served`, and is ignored without a request.

The requirer tracks whether the provider's data is ready:

* `Broken` always disconnects;
* `Created` connects a disconnected side, and is ignored otherwise;
* `Ready` always mounts;
* `NotReady` unmounts, except where nothing is mounted (`unmounted`, `disconnected`).

Each step returns the next state and, when the charm has to act, a signal.
-/

namespace ShareBroker

namespace Negotiation

/-- Where a provider stands with one relation. -/
inductive ProviderState where
  | idle
  | awaitingRequest
  | requested
  | served
  deriving DecidableEq, Inhabited

/-- What happened on the provider's relation. -/
inductive ProviderInput where
  | joined
  | requestAdded
  | requestChanged
  | requestWithdrawn
  | retry
  | published
  | broken
  deriving DecidableEq

/-- What the provider has to do. -/
inductive ProviderSignal where
  | requested
  | unrequested
  deriving DecidableEq

namespace ProviderState

/-- The state recovered from what the scopes show: whether a request is present, and
whether it has been served. -/
def observe (requested served : Bool) : ProviderState :=
  match requested, served with
  | true, true => .served
  | true, false => .requested
  | false, _ => .awaitingRequest

/-- One step of the provider. -/
def step (s : ProviderState) (i : ProviderInput) : ProviderState × Option ProviderSignal :=
  match s, i with
  | _, .broken => (.idle, none)
  | .idle, .joined => (.awaitingRequest, none)
  | s, .joined => (s, none)
  | _, .requestAdded => (.requested, some .requested)
  | _, .requestChanged => (.requested, some .requested)
  | .requested, .requestWithdrawn => (.awaitingRequest, some .unrequested)
  | .served, .requestWithdrawn => (.awaitingRequest, some .unrequested)
  | s, .requestWithdrawn => (s, none)
  | .requested, .retry => (.requested, some .requested)
  | s, .retry => (s, none)
  | .requested, .published => (.served, none)
  | .served, .published => (.served, none)
  | s, .published => (s, none)

end ProviderState

/-- Where a requirer stands with one relation. -/
inductive RequirerState where
  | disconnected
  | connected
  | mounted
  | unmounted
  deriving DecidableEq, Inhabited

/-- What happened on the requirer's relation. -/
inductive RequirerInput where
  | created
  | ready
  | notReady
  | broken
  deriving DecidableEq

/-- What the requirer has to do. -/
inductive RequirerSignal where
  | connected
  | mounted
  | unmounted
  | disconnected
  deriving DecidableEq

namespace RequirerState

/-- The state recovered from whether the provider's data was last seen ready, if seen. -/
def observe : Option Bool → RequirerState
  | none => .connected
  | some true => .mounted
  | some false => .unmounted

/-- One step of the requirer. -/
def step (s : RequirerState) (i : RequirerInput) : RequirerState × Option RequirerSignal :=
  match s, i with
  | _, .broken => (.disconnected, some .disconnected)
  | .disconnected, .created => (.connected, some .connected)
  | s, .created => (s, none)
  | _, .ready => (.mounted, some .mounted)
  | .unmounted, .notReady => (.unmounted, none)
  | .disconnected, .notReady => (.disconnected, none)
  | _, .notReady => (.unmounted, some .unmounted)

end RequirerState

end Negotiation

end ShareBroker
