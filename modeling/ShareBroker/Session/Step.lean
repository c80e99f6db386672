import ShareBroker.Charm.Kind
import ShareBroker.Interface.Share

/-! # Steps of a session

A session drives simulated units step by step: setting up what the host holds, delivering
events to a charm, calling the relation interfaces and the host's primitives directly. `Step`
is one such step and `Reply` what it answers.
-/

namespace ShareBroker

/-- A side of a relation interface. -/
inductive InterfaceSide where
  | mountRequires
  | mountProvides
  | filesystemRequires
  | filesystemProvides
  | shareRequires
  | shareProvides
  deriving DecidableEq

/-- What an interface side reports for an event. -/
inductive Notice where
  | mountRequires (e : MountRequiresEvent)
  | mountProvides (e : MountProvidesEvent)
  | filesystemRequires (e : FilesystemRequiresEvent)
  | shareProvides (e : ShareProvidesEvent)
  | shareRequires (e : ShareRequiresEvent)
  deriving DecidableEq

/-- One step of a session. -/
inductive Step where
  | setLeader (leader : Bool)
  /-- Keeps a leadership token, if the unit is the leader now. -/
  | grabToken
  | dropToken
  | setConfig (yaml : String)
  | setSecretsAvailable (available : Bool)
  | addRelation (endpoint remoteApp : String)
  | addRelationUnit (r : Relation) (unit : String)
  | removeRelationUnit (r : Relation) (unit : String)
  | remoteUpdate (r : Relation) (scope : Scope) (data : Databag)
  | breakRelation (r : Relation)
  /-- Creates the unit `name` on the other side of `r`. -/
  | mirror (name app unit : String) (r : Relation) (charm : Option CharmKind) (machine : Executor)
  /-- Dispatches an event to the unit's charm. -/
  | run (e : HostEvent)
  /-- Asks an interface side what an event means. -/
  | handle (side : InterfaceSide) (endpoint peers : String) (e : HostEvent)
  | setMountInfo (endpoint : String) (r : Relation) (info : MountInfo)
  | mountInfo (endpoint : String) (r : Relation)
  | setMountStatus (endpoint : String) (mounted : Bool)
  | setInfo (endpoint peers : String) (info : FsInfo)
  | endpoints (endpoint : String)
  | endpointsByKind (endpoint : String)
  | requestShare (endpoint : String) (r : Relation) (name : String)
  | setShare (endpoint : String) (r : Relation) (share : ShareInfo) (auth : AuthInfo)
  | shareInfo (endpoint : String) (r : Relation)
  | authInfo (endpoint : String) (r : Relation)
  | diff (r : Relation) (own observed : Scope)
  | cached (r : Relation) (own observed : Scope)
  | read (r : Relation) (scope : Scope)
  | updateUnit (r : Relation) (data : Databag)
  | updateApp (r : Relation) (data : Databag)
  | relations (endpoint : String)
  | remoteUnits (r : Relation)
  | ensureSecret (label : String) (content : Databag)
  | lookupSecret (label : String)
  | grantSecret (id : String) (r : Relation)
  | revokeSecret (id : String) (r : Relation)
  | secretContent (id : String)
  | conceal (label : String) (content : Databag)
  | resolve (pointer : String)
  | fromUriWith (uri : String)
  | defer (e : HostEvent)
  | takeDeferred
  | setStatus (status : Status) (app : Bool)

namespace Step

/-- The relation a step names, if it names one. -/
def relation? : Step → Option Relation
  | .addRelationUnit r _ | .removeRelationUnit r _ | .remoteUpdate r _ _ | .breakRelation r
  | .mirror _ _ _ r _ _ | .setMountInfo _ r _ | .mountInfo _ r | .requestShare _ r _
  | .setShare _ r _ _ | .shareInfo _ r | .authInfo _ r | .diff r _ _ | .cached r _ _
  | .read r _ | .updateUnit r _ | .updateApp r _ | .remoteUnits r | .grantSecret _ r
  | .revokeSecret _ r => some r
  | _ => none

/-- The secret label a step names, if any. -/
def label? : Step → Option String
  | .ensureSecret label _ | .lookupSecret label | .conceal label _ => some label
  | _ => none

end Step

/-- What a step answers. -/
inductive Reply where
  /-- Nothing to report. -/
  | done
  | failed (e : Error)
  /-- The step needs a leadership token and the unit has none. -/
  | noToken
  /-- The unit runs no charm. -/
  | noCharm
  | relation (r : Relation)
  | token (held : Bool)
  | notices (ns : List Notice)
  | mountInfo (info : Option MountInfo)
  | endpoints (es : List Endpoint)
  | endpointsByKind (es : List (FsKind × Endpoint))
  | shareInfo (info : Option ShareInfo)
  | authInfo (info : Option AuthInfo)
  | transaction (t : Transaction)
  | databag (d : Databag)
  | relations (rs : List Relation)
  | units (us : List String)
  | secretId (id : String)
  | lookup (id : Option String)
  | sealed (p : SecretRef)
  | info (i : FsInfo)
  | events (es : List HostEvent)

end ShareBroker
