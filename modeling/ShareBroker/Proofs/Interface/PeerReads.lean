import ShareBroker.Proofs.Interface.ShareRoundTrip
import ShareBroker.Proofs.Interface.ProviderRequests

/-!
# Reading what the other side wrote

A requirer reads the remote application's scope of a relation through four accessors, each
with its own decoder: `FilesystemRequires.endpoints` decodes URIs, `ShareRequires.shareInfo`
reads JSON, `ShareRequires.authInfo` parses a secret pointer and resolves it, and
`MountProvides.mountInfo` runs the record codec over the whole scope. The remote application
may write any text under any key. This file says, for every host and every live relation, when
each accessor fails:

* the endpoints and the share record are always read, undecodable ones skipped;
* the credentials fail only on a well-formed pointer to a secret the host does not hold;
* the mount request fails exactly when a mountpoint is given and the codec refuses the scope,
  with the codec's error, so a scope that is not a mount request is not read as an absent one.

No accessor changes the host.

## Key results

- `Succeeds.forIn_unchanged`: a loop whose passes all succeed without a change succeeds
  likewise.
- `Host.ReadsRemoteScope`: what the four accessors do over one relation.
- `remote_scope_reads`: it holds of every live relation of every host that knows each relation
  once.
-/

namespace ShareBroker

/-! ## Loops that only read -/

/-- A loop whose every pass succeeds and leaves the state as it was succeeds and leaves it
too. -/
theorem Succeeds.forIn_unchanged {σ β γ : Type} {xs : List γ}
    {f : γ → β → ExceptT Error (StateM σ) (ForInStep β)} {s : σ}
    (hf : ∀ x ∈ xs, ∀ b, Succeeds (f x b) s fun _ s' => s' = s) (b : β) :
    Succeeds (ForIn.forIn xs b f) s fun _ s' => s' = s := by
  induction xs generalizing b with
  | nil => exact Succeeds.pure rfl
  | cons x xs ih =>
    rw [List.forIn_cons]
    refine (hf x List.mem_cons_self b).bind fun step s' hs' => ?_
    subst hs'
    cases step with
    | done b' => exact Succeeds.pure rfl
    | yield b' => exact ih (fun y hy => hf y (List.mem_cons_of_mem _ hy)) b'

/-! ## The remote application's scope -/

namespace Host

/-- The remote application's scope of a relation, as a requirer reads it; empty for a relation
the host does not know. -/
def remoteData (g : Host) (r : Relation) : Databag :=
  match (g.state? r).map (·.remoteApp) with
  | some app => g.bag r (.app app)
  | none => .empty

/-- What reading the remote application's scope of `r` gives. The endpoints and the share
record are always read; the credentials fail exactly on a well-formed pointer to a secret the
host does not hold, and the mount request exactly when a non-empty mountpoint is given and the
record codec refuses the scope, each with the error of the step that refused. No read changes
the host. -/
structure ReadsRemoteScope (g : Host) (r : Relation) : Prop where
  endpoints : ∀ side : FilesystemRequires, ∃ es, side.endpoints.run.run g = (.ok es, g)
  shareInfo : ∀ side : ShareRequires, ∃ s, (side.shareInfo r).run.run g = (.ok s, g)
  authInfo : ∀ side : ShareRequires, ∃ o, (side.authInfo r).run.run g = (o, g) ∧
    ∀ e, o = .error e ↔ ∃ raw id, (g.remoteData r).get? authKey = some raw ∧
      SecretRef.parseLenient raw = some (.secret id) ∧ g.vault.get? id = none ∧
      e = Vault.missing id
  mountInfo : ∀ side : MountProvides, ∃ o, (side.mountInfo r).run.run g = (o, g) ∧
    ∀ e, o = .error e ↔ (∃ mp, (g.remoteData r).get? mountpointKey = some mp ∧ mp ≠ "") ∧
      Record.load MountInfo.ofJson (g.remoteData r) = .error e

variable {g : Host} {r : Relation}

theorem remoteData_of_state? {st : RelationState} (hst : g.state? r = some st) :
    g.remoteData r = g.bag r (.app st.remoteApp) := by
  simp [remoteData, hst]

end Host

variable {g : Host} {r : Relation}

/-! ## Each accessor -/

/-- The endpoint loop reads the scope of every live relation on the endpoint, and a URI that
does not decode is skipped, so the loop never fails. -/
theorem FilesystemRequires.endpoints_succeeds (hs : g.Sorted) (side : FilesystemRequires) :
    Succeeds side.endpoints g fun _ g' => g' = g := by
  unfold FilesystemRequires.endpoints
  refine Succeeds.bind_of_run (HostM.run_relationsOn _ _) ?_
  refine (Succeeds.forIn_unchanged (fun r hr found => ?_) []).bind fun _ _ h => Succeeds.pure h
  -- on a host that knows each relation once, every relation listed is live
  obtain ⟨hlive, -⟩ := (hs.mem_liveOn _ r).1 hr
  obtain ⟨st, hst, -⟩ := HostM.run_live_of_isLive hlive
  refine Succeeds.bind_of_run (HostM.run_remoteApp r g) ?_
  rw [hst, Option.map_some]
  refine Succeeds.bind_of_run (HostM.run_read_of_isLive hlive _) ?_
  split
  · split
    · refine Succeeds.bind_of_run (show (get : HostM Host).run.run g = (.ok g, g) from rfl) ?_
      split <;> exact Succeeds.pure rfl
    · exact Succeeds.pure rfl
  · exact Succeeds.pure rfl

namespace ShareRequires

/-- The server's scope of a live relation is its remote application's scope. -/
theorem run_serverData_remoteData (hr : g.isLive r = true) :
    (serverData r).run.run g = (.ok (g.remoteData r), g) := by
  obtain ⟨st, hst, -⟩ := HostM.run_live_of_isLive hr
  rw [Host.remoteData_of_state? hst]
  exact run_serverData hr (by rw [hst, Option.map_some])

/-- A share record that does not read is no record, so reading the share never fails. -/
theorem shareInfo_succeeds (hr : g.isLive r = true) (side : ShareRequires) :
    ∃ s, (side.shareInfo r).run.run g = (.ok s, g) := by
  unfold shareInfo
  rw [run_bind_ok (run_serverData_remoteData hr)]
  split
  · split
    · exact ⟨none, rfl⟩
    · split
      · exact ⟨_, rfl⟩
      · exact ⟨none, rfl⟩
  · exact ⟨none, rfl⟩

/-- Reading the credentials fails exactly on a well-formed pointer to a secret the host does
not hold, with the vault's error; a pointer that does not parse is no pointer. -/
theorem run_authInfo_cases (hr : g.isLive r = true) (side : ShareRequires) :
    ∃ o, (side.authInfo r).run.run g = (o, g) ∧
      ∀ e, o = .error e ↔ ∃ raw id, (g.remoteData r).get? authKey = some raw ∧
        SecretRef.parseLenient raw = some (.secret id) ∧ g.vault.get? id = none ∧
        e = Vault.missing id := by
  unfold authInfo
  rw [run_bind_ok (run_serverData_remoteData hr)]
  cases hraw : (g.remoteData r).get? authKey with
  | none => exact ⟨.ok none, rfl, by simp⟩
  | some raw =>
    simp only []
    cases hp : SecretRef.parseLenient raw with
    | none =>
      refine ⟨.ok none, ?_, by simp [hp]⟩
      split <;> rfl
    | some p =>
      -- the empty text does not parse, so a pointer that parses is not empty
      have hne : raw.isEmpty = false := by
        cases h : raw.isEmpty
        · rfl
        · rw [String.isEmpty_iff.1 h] at hp
          cases hp
      simp only [hne, Bool.false_eq_true, ↓reduceIte]
      -- an inline pointer is read as it stands; a host secret only fails when it is missing
      cases p with
      | plain c => exact ⟨.ok (AuthInfo.ofDatabag c), rfl, by simp [hp]⟩
      | secret id =>
        cases hv : g.vault.get? id with
        | none =>
          have hres : (HostM.resolve (.secret id)).run.run g = (.error (Vault.missing id), g) := by
            simp only [HostM.resolve, HostM.run_get_bind, SecretRef.resolve, Vault.content, hv]
            rfl
          refine ⟨.error (Vault.missing id), run_bind_error hres _, fun e => ?_⟩
          simp [hp, hv, eq_comm]
        | some sec =>
          have hres : (HostM.resolve (.secret id)).run.run g = (.ok sec.content, g) := by
            simp only [HostM.resolve, HostM.run_get_bind, SecretRef.resolve, Vault.content, hv]
            rfl
          exact ⟨.ok (AuthInfo.ofDatabag sec.content), run_bind_ok hres _, by simp [hp, hv]⟩

end ShareRequires

/-- Reading the mount request fails exactly when a non-empty mountpoint is given and the record
codec refuses the scope, with the codec's error. -/
theorem MountProvides.run_mountInfo_cases (hr : g.isLive r = true) (side : MountProvides) :
    ∃ o, (side.mountInfo r).run.run g = (o, g) ∧
      ∀ e, o = .error e ↔ (∃ mp, (g.remoteData r).get? mountpointKey = some mp ∧ mp ≠ "") ∧
        Record.load MountInfo.ofJson (g.remoteData r) = .error e := by
  obtain ⟨st, hst, -⟩ := HostM.run_live_of_isLive hr
  unfold mountInfo
  rw [run_bind_ok (HostM.run_remoteApp r g), hst]
  simp only [Option.map_some]
  rw [run_bind_ok (HostM.run_read_of_isLive hr _), ← Host.remoteData_of_state? hst]
  cases hm : (g.remoteData r).get? mountpointKey with
  | none => exact ⟨.ok none, rfl, by simp⟩
  | some mp =>
    simp only []
    by_cases hempty : mp = ""
    · subst hempty
      exact ⟨.ok none, rfl, by simp⟩
    · have hne : mp.isEmpty = false := by simpa [String.isEmpty_iff] using hempty
      simp only [hne, Bool.false_eq_true, ↓reduceIte]
      cases hload : Record.load MountInfo.ofJson (g.remoteData r) with
      | error e' => exact ⟨.error e', rfl, by simp [hempty]⟩
      | ok m => exact ⟨.ok (some m), rfl, by simp⟩

/-! ## Every live relation -/

/-- Over every live relation of a host that knows each relation once, the accessors read
whatever the remote application wrote: the endpoints and the share record always, the
credentials unless they point at a secret the host does not hold, and the mount request unless
the scope gives a mountpoint and the record codec refuses the scope. -/
theorem remote_scope_reads (hs : g.Sorted) (hr : g.isLive r = true) : g.ReadsRemoteScope r where
  endpoints side := by
    obtain ⟨es, _, hrun, rfl⟩ := FilesystemRequires.endpoints_succeeds hs side
    exact ⟨es, hrun⟩
  shareInfo := ShareRequires.shareInfo_succeeds hr
  authInfo := ShareRequires.run_authInfo_cases hr
  mountInfo := MountProvides.run_mountInfo_cases hr

/-- A relation whose remote application wrote its mountpoint as bare text. -/
theorem remote_scope_reads_bare_mountpoint :
    let r : Relation := ⟨"mount", 0⟩
    let g := HostOp.apply
      (.remoteUpdate r (.app "workload") (Databag.ofList [("mountpoint", "/data")])) <|
      HostOp.apply (.addRelation "mount" "workload") <| Host.new "fs-client" "fs-client/0"
    g.ReadsRemoteScope r := by
  intro r g
  exact remote_scope_reads (Host.Reachable.sorted (.step _ (.step _ (.new _ _)))) (by decide)

/-- A mountpoint written as bare text, not as the JSON text of a string, is no usable mount
request, yet reading the request fails with the codec's error instead of finding none. -/
theorem bare_mountpoint_fails_mount_read :
    let r : Relation := ⟨"mount", 0⟩
    let g := HostOp.apply
      (.remoteUpdate r (.app "workload") (Databag.ofList [("mountpoint", "/data")])) <|
      HostOp.apply (.addRelation "mount" "workload") <| Host.new "fs-client" "fs-client/0"
    g.Reachable ∧ ((MountProvides.mountInfo ⟨"mount"⟩ r).run.run g).1.mapError Error.message =
      .error "Invalid record: field `mountpoint`: expected value at line 1 column 1" := by
  intro r g
  exact ⟨.step _ (.step _ (.new _ _)), by decide +kernel⟩

end ShareBroker
