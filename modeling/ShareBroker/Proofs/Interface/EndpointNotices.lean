import ShareBroker.Proofs.Interface.MountNotices
import ShareBroker.Interface.Filesystem

/-!
# What a filesystem requirer is told

A filesystem requirer (`FilesystemRequires.handle`) learns of the endpoint its provider
publishes from the changes of the provider application's scope. It remembers nothing between
deliveries: the state of `Negotiation.RequirerState` is rebuilt each time from the snapshot
of that scope (an endpoint there is `mounted`, none is `connected`) and stepped with `ready`
when the endpoint appeared or changed, with `notReady` when it went away. `ready` always
mounts, and `notReady` only comes where the snapshot had an endpoint, so it always unmounts.

So a delivery is told `endpointNotice` of the endpoint at the last observation and now: a
mount when it appeared or changed, an unmount when it went away, and nothing when it stayed;
and since the delivery moves the snapshot on, a redelivery is told nothing until the endpoint
is written again. A departing unit or a broken relation unmounts, and an event of another
endpoint tells the requirer nothing.

## Key results

- `FilesystemRequires.run_handle_changed`: one delivery, from any last observation
- `FilesystemRequires.endpoint_notices`: all of it (`EndpointNotices`), from a reachable host
-/

namespace ShareBroker

open Negotiation

/-- What a filesystem requirer is told of the provider's endpoint, from its value at the last
observation and now: a mount when it appeared or changed, an unmount when it went away, and
nothing when it stayed. -/
def endpointNotice (r : Relation) (previous current : Option String) :
    List FilesystemRequiresEvent :=
  if previous = current then []
  else if current.isSome then [.mountFilesystem r]
  else [.umountFilesystem r]

/-- What a filesystem requirer is told on its relation `r` with the provider application
`app`, whose scope showed `old` at the last observation. -/
structure EndpointNotices (side : FilesystemRequires) (h : Host) (r : Relation) (app : String)
    (old : Databag) : Prop where
  /-- A change of `app`'s scope is told by `endpointNotice`, and the delivery writes what the
  diff writes, the new snapshot; after it, writes into `app`'s scope that leave the endpoint
  alone are told nothing. -/
  changed : ∃ h', (HostM.diff r h.ownUnit (.app app)).run.run h =
      (.ok (Transaction.between old (dataOnly (h.bag r (.app app)))), h') ∧
    (∀ unit, (side.handle (.relationChanged r app unit)).run.run h =
      (.ok (endpointNotice r (old.get? endpointKey) ((h.bag r (.app app)).get? endpointKey)),
        h')) ∧
    ∀ writes : List Databag, (∀ u ∈ writes, u.get? endpointKey = none) → ∀ unit,
      ∃ h'', (side.handle (.relationChanged r app unit)).run.run
        (writes.foldl (fun g u => g.remoteUpdate r (.app app) u) h') = (.ok [], h'')
  /-- A departing unit unmounts, and changes nothing. -/
  departed : ∀ a unit,
    (side.handle (.relationDeparted r a unit)).run.run h = (.ok [.umountFilesystem r], h)
  /-- The relation breaking unmounts, and changes nothing. -/
  broken : ∀ a, (side.handle (.relationBroken r a)).run.run h = (.ok [.umountFilesystem r], h)
  /-- An event of another endpoint, or no relation event, is told nothing and changes nothing. -/
  other : ∀ e : HostEvent, e.relationOn side.endpoint = none →
    (side.handle e).run.run h = (.ok [], h)

/-- A relation event is on the endpoint of the relation it concerns. -/
theorem HostEvent.relationOn_eq_some (e : HostEvent) {r : Relation} {endpoint : String}
    (he : e.relation? = some r) (hr : r.endpoint = endpoint) : e.relationOn endpoint = some r := by
  simp [HostEvent.relationOn, he, hr]

theorem get?_endpoint_dataOnly (d : Databag) :
    (dataOnly d).get? endpointKey = d.get? endpointKey := by
  simp [endpointKey, isReserved]

namespace FilesystemRequires

variable {side : FilesystemRequires} {h : Host} {r : Relation} {app : String} {old : Databag}

/-- A delivery of a change of the provider application's scope is told `endpointNotice` of the
endpoint at the last observation and now, and leaves what the diff leaves. -/
theorem run_handle_changed (ho : Observing h r (.app app) old)
    (hside : r.endpoint = side.endpoint) {h' : Host}
    (hdiff : (HostM.diff r h.ownUnit (.app app)).run.run h =
      (.ok (Transaction.between old (dataOnly (h.bag r (.app app)))), h'))
    (unit : Option String) :
    (side.handle (.relationChanged r app unit)).run.run h =
      (.ok (endpointNotice r (old.get? endpointKey) ((h.bag r (.app app)).get? endpointKey)),
        h') := by
  simp only [handle, HostEvent.relationOn_eq_some (.relationChanged r app unit) rfl hside]
  rw [run_bind_ok (HostM.run_ownUnit h), run_bind_ok ho.snapshot, run_bind_ok hdiff]
  -- the transaction speaks of the endpoint only through its value before and now
  have hdel := Transaction.deleted_contains_iff old (dataOnly (h.bag r (.app app))) endpointKey
  have htouch := Transaction.touched_iff old (dataOnly (h.bag r (.app app))) endpointKey
  rw [get?_endpoint_dataOnly] at hdel htouch
  generalize old.get? endpointKey = p at hdel htouch ⊢
  generalize (h.bag r (.app app)).get? endpointKey = c at hdel htouch ⊢
  split
  · -- added or changed: `ready` mounts from any state
    rename_i ht
    obtain ⟨hc, hne⟩ := htouch.1 ht
    simp [endpointNotice, hne, hc, RequirerState.step]
  · split
    · -- deleted: the snapshot had an endpoint, so the machine was `mounted`
      rename_i ht hd
      obtain ⟨hp, rfl⟩ := hdel.1 hd
      obtain ⟨x, rfl⟩ := Option.isSome_iff_exists.1 hp
      simp [endpointNotice, RequirerState.observe, RequirerState.step]
    · -- neither: the endpoint stayed
      rename_i ht hd
      have hpc : p = c := by
        cases c with
        | none => cases p <;> simp_all
        | some x => exact Classical.byContradiction fun hne => ht (htouch.2 ⟨rfl, hne⟩)
      simp [endpointNotice, hpc]

/-- A departing unit or a broken relation unmounts, on any host. -/
theorem run_handle_gone (side : FilesystemRequires) (h : Host) (hside : r.endpoint = side.endpoint) :
    (∀ a unit,
      (side.handle (.relationDeparted r a unit)).run.run h = (.ok [.umountFilesystem r], h)) ∧
    ∀ a, (side.handle (.relationBroken r a)).run.run h = (.ok [.umountFilesystem r], h) := by
  refine ⟨fun a unit => ?_, fun a => ?_⟩
  · simp only [handle, HostEvent.relationOn_eq_some (.relationDeparted r a unit) rfl hside]; rfl
  · simp only [handle, HostEvent.relationOn_eq_some (.relationBroken r a) rfl hside]; rfl

theorem run_handle_other (side : FilesystemRequires) (h : Host) {e : HostEvent}
    (he : e.relationOn side.endpoint = none) : (side.handle e).run.run h = (.ok [], h) := by
  simp [handle, he]

end FilesystemRequires

/-- What a filesystem requirer is told. On a reachable host, with a live relation `r` of the
requirer's endpoint and a last observation `old` of the provider application `app`'s scope:

* a change of `app`'s scope is told as a mount when the published endpoint appeared or changed
  since `old`, an unmount when it went away, and nothing otherwise; the delivery writes only the
  new snapshot, and a redelivery, after any writes that leave the endpoint alone, is told
  nothing;
* a departing unit or the relation breaking is told as an unmount;
* an event of another endpoint is told nothing, and changes nothing. -/
theorem FilesystemRequires.endpoint_notices (side : FilesystemRequires) {h : Host}
    (hh : h.Reachable) {r : Relation} (hr : h.isLive r = true)
    (hside : r.endpoint = side.endpoint) {app : String} {old : Databag}
    (hold : (HostM.cached r h.ownUnit (.app app)).run.run h = (.ok old, h)) :
    EndpointNotices side h r app old := by
  have ho : Observing h r (.app app) old := ⟨hh.wellFormed, hr, hold⟩
  obtain ⟨h', hdiff, ho', hframe⟩ := ho.diff
  obtain ⟨hdeparted, hbroken⟩ := run_handle_gone side h hside
  refine ⟨⟨h', hdiff, run_handle_changed ho hside hdiff, fun writes hw unit => ?_⟩, hdeparted,
    hbroken, fun e he => run_handle_other side h he⟩
  -- the redelivery compares the endpoint with the value the delivery saw, which stayed
  have happ : Scope.app app ≠ h'.ownUnit := by simp [Host.ownUnit]
  have hog := ho'.foldl_remoteUpdate happ writes
  obtain ⟨h'', hdiff'', -, -⟩ := hog.diff
  refine ⟨h'', ?_⟩
  rw [run_handle_changed hog hside hdiff'' unit, get?_endpoint_dataOnly,
    Host.get?_foldl_remoteUpdate ho'.live _ writes hw,
    hframe.bag_app (Host.isSome_state?_of_isLive hr),
    endpointNotice, if_pos rfl]

/-- A filesystem client whose NFS provider has just published its endpoint on a fresh relation. -/
theorem FilesystemRequires.endpoint_notices_published :
    let r : Relation := ⟨"filesystem", 0⟩
    let h := (HostOp.remoteUpdate r (.app "nfs-server")
      (Databag.ofList [(endpointKey, "nfs://?v=1&hostname=10.0.0.1&path=%2Fsrv")])).apply
      ((HostOp.addRelation "filesystem" "nfs-server").apply (Host.new "fs-client" "fs-client/0"))
    h.Reachable ∧ h.isLive r = true ∧ r.endpoint = (⟨"filesystem"⟩ : FilesystemRequires).endpoint ∧
      (HostM.cached r h.ownUnit (.app "nfs-server")).run.run h = (.ok .empty, h) ∧
      EndpointNotices ⟨"filesystem"⟩ h r "nfs-server" .empty := by
  intro r h
  have hh : h.Reachable := .step _ (.step _ (.new "fs-client" "fs-client/0"))
  have hr : h.isLive r = true := by decide
  have hold : (HostM.cached r h.ownUnit (.app "nfs-server")).run.run h = (.ok .empty, h) :=
    run_cached_of_baseline hr (.inl ⟨by decide, rfl⟩)
  exact ⟨hh, hr, rfl, hold, FilesystemRequires.endpoint_notices ⟨"filesystem"⟩ hh hr rfl hold⟩

end ShareBroker
