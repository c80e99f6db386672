import ShareBroker.Databag

/-! # Scope transactions

The host only says that a scope changed, not what changed. To recover the change, a unit keeps
the last contents it saw of a scope in its own scope of the same relation, under a reserved
key, and compares.

`Transaction.between old new` is that comparison, key by key: `added` holds the keys of `new`
absent from `old`, `deleted` the keys of `old` absent from `new`, and `changed` the keys of
both whose values differ. Each list is in key order.

Reserved keys are `cache` and every key starting with `cache/`; data never uses them.
`cacheKey` names where the snapshot of a scope is kept: `cache` for an application's scope,
`cache/<unit>` for a unit's.
-/

namespace ShareBroker

/-- The keys that differ between two snapshots of one scope, each list in key order. -/
structure Transaction where
  added : List String
  changed : List String
  deleted : List String
  deriving DecidableEq, Inhabited

namespace Transaction

/-- Compares two snapshots of a scope. -/
def between (old new : Databag) : Transaction where
  added := new.keys.filter (fun k => !old.contains k)
  changed := (new.entries.filter (fun kv => match old.get? kv.1 with
    | some o => o != kv.2
    | none => false)).map (·.1)
  deleted := old.keys.filter (fun k => !new.contains k)

/-- Whether nothing differs. -/
def isEmpty (t : Transaction) : Bool := t.added.isEmpty ∧ t.changed.isEmpty ∧ t.deleted.isEmpty

/-- Whether `k` was added or had its value changed. -/
def touched (t : Transaction) (k : String) : Bool := t.added.contains k ∨ t.changed.contains k

end Transaction

/-- Whether a key is reserved for cached snapshots. -/
def isReserved (k : String) : Bool := k = "cache" ∨ k.startsWith "cache/"

/-- A scope's contents without its reserved keys. -/
def dataOnly (d : Databag) : Databag := d.filterKeys (fun k => !isReserved k)

/-- The key under which the snapshot of a scope is kept. -/
def cacheKey : Scope → String
  | .app _ => "cache"
  | .unit name => "cache/" ++ name

end ShareBroker
