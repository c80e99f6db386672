import ShareBroker.Host.Basic
import ShareBroker.Transaction
import ShareBroker.SecretRef

/-! # Noticing what changed, and sealing secrets

The host only says that a scope changed. A unit keeps the last contents it saw of a scope in
its own scope of the same relation, under `cacheKey` of the scope, as the compact JSON text of
the databag, and compares:

* `HostM.cached` is that snapshot: empty when absent or empty, and a JSON error when the
  text is not an object of strings;
* `HostM.diff` compares the scope's data (reserved keys left out) with the snapshot and, when
  anything differs, stores the new snapshot, so that a second call without writes in between
  finds nothing.

`HostM.conceal` keeps secret material behind a pointer: in a host secret when the host supports
them, otherwise inline. `HostM.resolve` fetches the material back.
-/

namespace ShareBroker

namespace HostM

/-- The last snapshot of `observed` kept in the scope `own`. -/
def cached (r : Relation) (own observed : Scope) : HostM Databag := do
  let mine ← read r own
  match mine.get? (cacheKey observed) with
  | some text =>
    if text.isEmpty then pure .empty
    else match Json.readStringMap text with
      | .ok kvs => pure (Databag.ofList kvs)
      | .error e => throw (.json e)
  | none => pure .empty

/-- Compares the data of `observed` with its snapshot, and moves the snapshot on. -/
def diff (r : Relation) (own observed : Scope) : HostM Transaction := do
  let new := dataOnly (← read r observed)
  let old ← cached r own observed
  let t := Transaction.between old new
  if !t.isEmpty then updateUnit r (Databag.ofList [(cacheKey observed, new.toText)])
  pure t

/-- Keeps `content` behind a pointer, in a host secret labelled `label` when the host
supports secrets. -/
def conceal (content : Databag) (label : String) : HostM SecretRef := do
  if (← secretsAvailable) then pure (.secret (← ensureSecret content label))
  else pure (.plain content)

/-- The material behind a pointer. -/
def resolve (p : SecretRef) : HostM Databag := do
  let v := (← get).vault
  ofOutcome (p.resolve v.content)

end HostM

end ShareBroker
