import ShareBroker.Proofs.Host.Follower
import ShareBroker.Proofs.Session.Invariant

/-!
# Leadership gates the application's data

A unit that is not the leader cannot change its application's scope of any relation, nor the
application's status, by anything it does: not by the writers of the interfaces, which are
handed a token that may have been taken while it was still the leader, not by the handlers of
the interfaces, and not by any of the five charms. Only the remote side's own writes can.

`Step.byFollower` picks out the steps of a session that keep a unit a follower: any step but
taking leadership or writing from the remote side. `Site.perform_follower` is the step lemma:
each such step keeps `Host.Follower v n`, except adding a relation, which counts one more. A
step that does not set the unit up keeps it because a follower is an invariant of the host
(`Host.Invariant.follower`); the steps that set it up are taken one by one.
Relation ids are 32 bits wide, so the run lemmas assume the count of relations still fits at
the end of the run; while it does, each relation added is new and leaves every scope alone.

## Key results

- `Site.perform_follower`: one step by a follower keeps it a follower showing the same data
- `Site.performAll_follows`: a run of such steps keeps the unit a follower, and the count grows
- `Site.performAll_follower`: a run of such steps shows the application data it started with
- `Site.follower_keeps_app_data`: from any reachable host that is not the leader, with any
  token, the application's scopes and status stay as they were, and each write of them is
  refused with `NotLeader`
-/

namespace ShareBroker

variable {v : AppView} {n : Nat}

namespace Host

variable {h : Host}

/-- A follower is one for the view it shows and the count it has. -/
theorem Follower.self (hf : h.Follower v n) : h.Follower h.appView h.nextId :=
  ⟨hf.leader, rfl, rfl, hf.idsBelow⟩

/-- Adding a relation keeps a follower, with one more relation counted. -/
theorem Follower.addRelation_follows (hf : h.Follower v n) (endpoint app : String) :
    (h.addRelation endpoint app).2.Follower (h.addRelation endpoint app).2.appView (n + 1) :=
  ⟨hf.leader, rfl, congrArg (· + 1) hf.count, hf.idsBelow.addRelation endpoint app⟩

/-- While the count fits in an id, adding a relation also keeps what the follower shows: the
new relation is one it did not know, and its scopes are empty. -/
theorem Follower.addRelation (hf : h.Follower v n) (endpoint app : String) (hlt : n < 2 ^ 32) :
    (h.addRelation endpoint app).2.Follower v (n + 1) := by
  refine ⟨hf.leader, ?_, congrArg (· + 1) hf.count, hf.idsBelow.addRelation endpoint app⟩
  have hnew : h.state? ⟨endpoint, h.counter⟩ = none :=
    state?_addRelation_new hf.idsBelow (hf.count ▸ hlt) endpoint
  rw [← hf.view]
  simp only [appView, AppView.mk.injEq]
  refine ⟨rfl, rfl, ?_⟩
  funext r
  rw [bag_eq, bag_eq, state?_addRelation]
  split
  · rename_i heq
    subst heq
    rw [hnew]
    rfl
  · rfl

end Host

namespace Site

variable {s : Site}

/-- A follower holding a stale token runs a write with it; a write that the host refuses
answers the refusal and leaves the site as it was. -/
theorem withToken_refused {t : LeadershipToken} {e : Error} (hl : s.host.leader = false)
    (ht : s.token = some t) {m : LeadershipToken → HostM Unit}
    (hm : (m t).run.run s.host = (.error e, s.host)) : s.withToken m = (.failed e, s) := by
  simp only [withToken, usableToken, hl, Bool.false_eq_true, ↓reduceIte, ht]
  simp only [ask, onHost, hm, answer]

end Site

/-- The steps a unit takes while it stays a follower: any step but taking leadership, and
none of the remote side's writes. -/
def Step.byFollower : Step → Bool
  | .setLeader leader => !leader
  | .remoteUpdate .. => false
  | _ => true

namespace Site

variable {s : Site}

/-- Performs steps one after another on one site. -/
def performAll (s : Site) (steps : List Step) : Site :=
  steps.foldl (fun s st => (s.perform st).2) s

theorem performAll_cons (st : Step) (rest : List Step) :
    s.performAll (st :: rest) = (s.perform st).2.performAll rest := rfl

theorem perform_addRelation_host (endpoint app : String) :
    (s.perform (.addRelation endpoint app)).2.host = (s.host.addRelation endpoint app).2 := rfl

/-- One step by a follower keeps it a follower showing the same data, unless it adds a
relation. -/
theorem perform_follower {st : Step} (hb : st.byFollower = true) (hf : s.host.Follower v n) :
    (s.perform st).2.host.Follower v n ∨ ∃ endpoint app, st = .addRelation endpoint app := by
  cases hst : st.setsUp
  · exact .inl (perform_preserves (I := Host.Invariant.follower v n) hst hf)
  -- the steps that set the unit up, one by one
  cases st
  case addRelation endpoint app => exact .inr ⟨endpoint, app, rfl⟩
  case remoteUpdate => simp [Step.byFollower] at hb
  case setLeader b =>
    simp only [Step.byFollower, Bool.not_eq_eq_eq_not, Bool.not_true] at hb
    subst hb
    exact .inl (hf.congr hf.leader.symm rfl rfl rfl rfl)
  case setSecretsAvailable b => exact .inl (hf.congr rfl rfl rfl rfl rfl)
  case setConfig yaml =>
    unfold Site.perform
    dsimp only
    split <;> exact .inl (hf.congr rfl rfl rfl rfl rfl)
  case addRelationUnit r u | breakRelation r => exact .inl (hf.modifyRelation r fun _ => rfl)
  case removeRelationUnit r u =>
    -- the unit leaving takes its own scope along, never the application's
    refine .inl (hf.modifyRelation r fun st => ?_)
    show (st.dropBag (.unit u)).bag _ = _
    rw [RelationState.bag_dropBag, if_neg (by simp [Host.ownApp])]
  all_goals simp [Step.setsUp] at hst

/-- A run of steps by a follower keeps it a follower, and never lowers its count of
relations. -/
theorem performAll_follows (steps : List Step) (hb : ∀ st ∈ steps, st.byFollower = true)
    (hf : s.host.Follower v n) :
    (s.performAll steps).host.Follower (s.performAll steps).host.appView
      (s.performAll steps).host.nextId ∧ n ≤ (s.performAll steps).host.nextId := by
  induction steps generalizing s v n with
  | nil => exact ⟨hf.self, hf.count.ge⟩
  | cons st rest ih =>
    have hrest : ∀ st ∈ rest, st.byFollower = true := fun st h => hb st (.tail _ h)
    rw [performAll_cons]
    rcases perform_follower (hb st (.head _)) hf with hf' | ⟨endpoint, app, rfl⟩
    · exact ih hrest hf'
    · have hf' := hf.addRelation_follows endpoint app
      rw [← perform_addRelation_host] at hf'
      have ⟨hfin, hle⟩ := ih hrest hf'
      exact ⟨hfin, by omega⟩

/-- A run of steps by a follower, at whose end the count of relations still fits in an id,
keeps the unit a follower showing the data it started with. -/
theorem performAll_follower (steps : List Step) (hb : ∀ st ∈ steps, st.byFollower = true)
    (hf : s.host.Follower v n) (hlt : (s.performAll steps).host.nextId < 2 ^ 32) :
    ∃ n', (s.performAll steps).host.Follower v n' := by
  induction steps generalizing s n with
  | nil => exact ⟨n, hf⟩
  | cons st rest ih =>
    have hrest : ∀ st ∈ rest, st.byFollower = true := fun st h => hb st (.tail _ h)
    rw [performAll_cons] at hlt ⊢
    rcases perform_follower (hb st (.head _)) hf with hf' | ⟨endpoint, app, rfl⟩
    · exact ih hrest hf' hlt
    · -- the count only grows, so it fitted when this relation was added
      have hgrow := (performAll_follows rest hrest
        (perform_addRelation_host (s := s) endpoint app ▸ hf.addRelation_follows endpoint app)).2
      have hfit : n < 2 ^ 32 := by omega
      have hf' := hf.addRelation endpoint app hfit
      rw [← perform_addRelation_host] at hf'
      exact ih hrest hf' hlt

/-- Leadership gates the application's data. A unit that is not the leader, whatever token it
kept, keeps its application's scope of every relation and the application's status through
any run of steps that does not make it the leader or write from the remote side, as long as
its relations' ids still fit in 32 bits; and once there, each write of either with the kept
token is refused with `NotLeader` and changes nothing. -/
theorem follower_keeps_app_data (s : Site) (steps : List Step) (hr : s.host.Reachable)
    (hl : s.host.leader = false) (hb : ∀ st ∈ steps, st.byFollower = true)
    (hlt : (s.performAll steps).host.nextId < 2 ^ 32) :
    (s.performAll steps).host.leader = false ∧
      (s.performAll steps).host.appView = s.host.appView ∧
      ∀ t, (s.performAll steps).token = some t →
        (∀ r data, (s.performAll steps).perform (.updateApp r data) =
          (.failed (.notLeader (s.performAll steps).host.unit), s.performAll steps)) ∧
        ∀ status, (s.performAll steps).perform (.setStatus status true) =
          (.failed (.notLeader (s.performAll steps).host.unit), s.performAll steps) := by
  have hf : s.host.Follower s.host.appView s.host.nextId := ⟨hl, rfl, rfl, hr.idsBelow⟩
  obtain ⟨n', hfin⟩ := performAll_follower steps hb hf hlt
  refine ⟨hfin.leader, hfin.view, fun t ht => ⟨fun r data => ?_, fun status => ?_⟩⟩
  · exact withToken_refused hfin.leader ht (HostM.run_updateApp_of_follower hfin.leader r data t)
  · exact withToken_refused hfin.leader ht (HostM.run_setAppStatus_of_follower hfin.leader status t)

/-- A unit that is not the leader but kept a token adds a relation, tries to write the
application's scope of it and runs the NFS proxy's charm. -/
theorem follower_keeps_app_data_stale_token :
    let s : Site :=
      { host := Host.new "nfs-proxy" "nfs-proxy/0", charm := some .nfsServerProxy
        token := some ⟨⟩ }
    let steps : List Step := [.addRelation "filesystem" "client",
      .updateApp ⟨"filesystem", 0⟩ .empty, .run .configChanged]
    (s.performAll steps).host.leader = false ∧
      (s.performAll steps).host.appView = s.host.appView ∧
      ∀ t, (s.performAll steps).token = some t →
        (∀ r data, (s.performAll steps).perform (.updateApp r data) =
          (.failed (.notLeader (s.performAll steps).host.unit), s.performAll steps)) ∧
        ∀ status, (s.performAll steps).perform (.setStatus status true) =
          (.failed (.notLeader (s.performAll steps).host.unit), s.performAll steps) :=
  follower_keeps_app_data _ _ (.new _ _) rfl (by decide) (by decide)

end Site

end ShareBroker
