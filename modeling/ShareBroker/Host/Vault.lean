import ShareBroker.Databag
import ShareBroker.Error

/-! # The secrets of an application

The host keeps the application's secrets in a `Vault`, keyed by id and held in id order (the
order of the texts). Each secret has a label, its content and the relations it is granted to.

* `Vault.ensure` stores content under a label: the secret with that label gets the new
  content and keeps its id, otherwise a new secret is made with id `secret:harness-<n>`, where
  `n` is the number of secrets before it;
* `Vault.lookup` finds the id of a label, the first in id order;
* `Vault.grant`, `Vault.revoke` and `Vault.content` act on one id and fail with
  ``no secret `<id>` `` when there is none.
-/

namespace ShareBroker

/-- A secret: its label, content and the relations it is granted to, in order. -/
structure Secret where
  label : String
  content : Databag
  grants : List Relation
  deriving DecidableEq, Inhabited

/-- The secrets of an application, by id in id order. -/
structure Vault where
  entries : List (String × Secret)
  deriving Inhabited

namespace Vault

/-- No secrets. -/
def empty : Vault := ⟨[]⟩

/-- The secret with id `id`, if any. -/
def get? (v : Vault) (id : String) : Option Secret :=
  (v.entries.find? (fun e => e.1 == id)).map (·.2)

/-- Puts a secret under `id` into an id-ordered list, replacing one with an equal id. -/
def putEntry (id : String) (s : Secret) : List (String × Secret) → List (String × Secret)
  | [] => [(id, s)]
  | (id', s') :: rest =>
    if id < id' then (id, s) :: (id', s') :: rest
    else if id = id' then (id, s) :: rest
    else (id', s') :: putEntry id s rest

/-- Stores `s` under `id`. -/
def put (v : Vault) (id : String) (s : Secret) : Vault := ⟨putEntry id s v.entries⟩

/-- The id of the first secret, in id order, with the given label. -/
def lookup (v : Vault) (label : String) : Option String :=
  (v.entries.find? (fun e => e.2.label == label)).map (·.1)

/-- The error for an id with no secret. -/
def missing (id : String) : Error := .secret ("no secret `" ++ id ++ "`")

/-- Stores `content` under `label`, returning the id and the new vault. -/
def ensure (v : Vault) (content : Databag) (label : String) : String × Vault :=
  match v.lookup label with
  | some id =>
    match v.get? id with
    | some s => (id, v.put id { s with content := content })
    | none => (id, v)
  | none =>
    let id := "secret:harness-" ++ toString v.entries.length
    (id, v.put id ⟨label, content, []⟩)

/-- Inserts a relation into an ordered list of relations, once. -/
def insertRelation (r : Relation) : List Relation → List Relation
  | [] => [r]
  | r' :: rest =>
    if Relation.lt r r' then r :: r' :: rest
    else if r = r' then r' :: rest
    else r' :: insertRelation r rest

/-- Grants the secret `id` to a relation. -/
def grant (v : Vault) (id : String) (r : Relation) : Outcome Vault :=
  match v.get? id with
  | some s => .ok (v.put id { s with grants := insertRelation r s.grants })
  | none => .error (missing id)

/-- Revokes the secret `id` from a relation. -/
def revoke (v : Vault) (id : String) (r : Relation) : Outcome Vault :=
  match v.get? id with
  | some s => .ok (v.put id { s with grants := s.grants.filter (· != r) })
  | none => .error (missing id)

/-- The content of the secret `id`. -/
def content (v : Vault) (id : String) : Outcome Databag :=
  match v.get? id with
  | some s => .ok s.content
  | none => .error (missing id)

end Vault

end ShareBroker
