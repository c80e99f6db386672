import Mathlib
import ShareBroker.Proofs.Charm.Invariant
import ShareBroker.Session.Run

/-!
# What a step of a session keeps

A site performs a step either by setting its unit up from outside, as the harness does when it
hands the unit leadership, configuration, secrets or relations, or by running something the
unit itself runs: a charm, an interface's handler or writer, or a primitive of the host. The
second kind reaches the host only through the primitives of `HostM`, so it keeps every
invariant of the host (`Site.perform_preserves`). An invariant that every operation of the host
keeps, the setting-up ones too, is kept by every step (`Site.perform_of_apply`).

## Key results

- `Step.setsUp`: the steps that set a unit up from outside.
- `Site.perform_preserves`: every other step keeps every invariant of the host.
- `Site.perform_of_apply`: every step keeps an invariant closed under the host's operations.
-/

open Std.Do

set_option mvcgen.warning false

namespace ShareBroker

/-- The steps that set a unit up from outside rather than act as it: leadership, the
configuration, the availability of secrets, and the relations, their units and the remote
side's data. -/
def Step.setsUp : Step → Bool
  | .setLeader _ | .setConfig _ | .setSecretsAvailable _ | .addRelation .. | .addRelationUnit ..
  | .removeRelationUnit .. | .remoteUpdate .. | .breakRelation _ => true
  | _ => false

namespace Site

variable {I : Host.Invariant} {s : Site}

@[spec] theorem notices_preserves (side : InterfaceSide) (endpoint peers : String)
    (e : HostEvent) : HostM.Preserves I (notices side endpoint peers e) := by
  cases side <;> mvcgen [notices]

theorem ask_preserves {α : Type} (hs : I.holds s.host) {m : HostM α} (f : α → Reply)
    (hm : HostM.Preserves I m) : I.holds (s.ask m f).2.host :=
  hm.run hs

theorem withToken_preserves (hs : I.holds s.host) {m : LeadershipToken → HostM Unit}
    (hm : ∀ t, HostM.Preserves I (m t)) : I.holds (s.withToken m).2.host := by
  unfold Site.withToken
  split
  · exact (hm _).run hs
  · exact hs

/-- A step that does not set the unit up keeps every invariant of the host: it runs a charm, an
interface or a primitive of the host, all built from the primitives, or it only changes the
site around the host. -/
theorem perform_preserves {st : Step} (hst : st.setsUp = false) (hs : I.holds s.host) :
    I.holds (s.perform st).2.host := by
  unfold Site.perform
  cases st
  case grabToken | dropToken | mirror => exact hs
  case run e =>
    dsimp only
    split
    · exact hs
    · exact run_of_triple (CharmKind.run_preserves _ e) (_, _) hs
  case setStatus status app =>
    dsimp only
    split
    · exact withToken_preserves hs fun _ => by mvcgen
    · exact ask_preserves hs _ (by mvcgen)
  case setMountInfo | setInfo | requestShare | setShare | updateApp =>
    dsimp only
    exact withToken_preserves hs fun _ => by mvcgen
  case handle | mountInfo | setMountStatus | endpoints | endpointsByKind | shareInfo | authInfo
    | diff | cached | read | updateUnit | relations | remoteUnits | ensureSecret
    | lookupSecret | grantSecret | revokeSecret | secretContent | conceal | resolve
    | fromUriWith | defer | takeDeferred =>
    dsimp only
    exact ask_preserves hs _ (by mvcgen)
  all_goals simp [Step.setsUp] at hst

/-- A step that sets the unit up is one operation of the host, or leaves the host alone when
the configuration it is handed does not read. -/
theorem perform_setsUp {st : Step} (hst : st.setsUp = true) :
    (∃ op : HostOp, (s.perform st).2.host = op.apply s.host) ∨ (s.perform st).2.host = s.host := by
  unfold Site.perform
  cases st
  case setLeader b => exact .inl ⟨.setLeader b, rfl⟩
  case setConfig yaml =>
    dsimp only
    split
    · exact .inl ⟨.setConfig _, rfl⟩
    · exact .inr rfl
  case setSecretsAvailable b => exact .inl ⟨.setSecretsAvailable b, rfl⟩
  case addRelation endpoint app => exact .inl ⟨.addRelation endpoint app, rfl⟩
  case addRelationUnit r u => exact .inl ⟨.addRelationUnit r u, rfl⟩
  case removeRelationUnit r u => exact .inl ⟨.removeRelationUnit r u, rfl⟩
  case remoteUpdate r scope data => exact .inl ⟨.remoteUpdate r scope data, rfl⟩
  case breakRelation r => exact .inl ⟨.breakRelation r, rfl⟩
  all_goals simp [Step.setsUp] at hst

/-- An invariant that every operation of the host keeps is kept by every step. -/
theorem perform_of_apply (hI : ∀ (op : HostOp) {h : Host}, I.holds h → I.holds (op.apply h))
    (st : Step) (hs : I.holds s.host) : I.holds (s.perform st).2.host := by
  cases hst : st.setsUp
  · exact perform_preserves hst hs
  · rcases perform_setsUp (s := s) hst with ⟨op, hop⟩ | hsame
    · exact hop ▸ hI op hs
    · exact hsame ▸ hs

end Site

end ShareBroker
