import ShareBroker.Json.Write

/-! # Databags and scopes

A relation carries one databag per scope: one for each unit and one for each application on
either side. A databag maps string keys to string values and is held in key order, with no key
twice, so that two databags with the same content are equal. The order is part of the
structure (`Databag.sorted`): each operation that builds a databag proves it
(`Databag.sorted_insertEntry`), so no databag out of order can be made.

* `Databag.get?`, `Databag.insert`, `Databag.erase` — the map operations;
* `Databag.merge` — applies an update in which an empty value deletes its key, which is how
  writes reach a scope;
* `Databag.ofList` — the databag of a list of pairs, the later of two equal keys winning;
* `Databag.toJson` — the JSON object of a databag, keys in order.
-/

namespace ShareBroker

/-- Who may write a scope: a unit, or the leader of an application. -/
inductive Scope where
  | unit (name : String)
  | app (name : String)
  deriving DecidableEq, Inhabited

namespace Scope

/-- The name of the unit or application. -/
def name : Scope → String
  | .unit n => n
  | .app n => n

/-- Scopes in order: units before applications, then by name. -/
def lt : Scope → Scope → Bool
  | .unit a, .unit b => a < b
  | .unit _, .app _ => true
  | .app _, .unit _ => false
  | .app a, .app b => a < b

end Scope

namespace Databag

/-- Puts `k ↦ v` into an ordered list of pairs, replacing the value of an equal key. -/
def insertEntry (k v : String) : List (String × String) → List (String × String)
  | [] => [(k, v)]
  | (k', v') :: rest =>
    if k < k' then (k, v) :: (k', v') :: rest
    else if k = k' then (k, v) :: rest
    else (k', v') :: insertEntry k v rest

/-- Every pair of `insertEntry k v l` is `(k, v)` or a pair of `l`. -/
theorem mem_insertEntry {k v : String} {l : List (String × String)} {kv : String × String}
    (h : kv ∈ insertEntry k v l) : kv = (k, v) ∨ kv ∈ l := by
  induction l with
  | nil => simpa [insertEntry] using h
  | cons kv' l ih =>
    obtain ⟨k', v'⟩ := kv'
    simp only [insertEntry] at h
    split at h
    · simpa using h
    · split at h
      · rcases List.mem_cons.1 h with h | h
        · exact .inl h
        · exact .inr (List.mem_cons_of_mem _ h)
      · rcases List.mem_cons.1 h with h | h
        · exact .inr (h ▸ List.mem_cons_self)
        · rcases ih h with h | h
          · exact .inl h
          · exact .inr (List.mem_cons_of_mem _ h)

/-- Inserting into a list whose keys ascend strictly keeps them ascending. -/
theorem sorted_insertEntry {k v : String} {l : List (String × String)}
    (hl : l.Pairwise (fun a b => a.1 < b.1)) :
    (insertEntry k v l).Pairwise (fun a b => a.1 < b.1) := by
  induction l with
  | nil => simp [insertEntry]
  | cons kv l ih =>
    obtain ⟨k', v'⟩ := kv
    rw [List.pairwise_cons] at hl
    simp only [insertEntry]
    split
    · -- `k` goes in front of a list whose keys are all above `k'`, hence above `k`
      rename_i hlt
      refine List.Pairwise.cons (fun kv hkv => ?_) (List.Pairwise.cons hl.1 hl.2)
      rcases List.mem_cons.1 hkv with rfl | hkv
      · exact hlt
      · exact String.lt_trans hlt (hl.1 kv hkv)
    · split
      · rename_i heq
        subst heq
        exact List.Pairwise.cons hl.1 hl.2
      · -- `k` goes after `k'`, among keys all above `k'`
        rename_i hlt heq
        have hgt : k' < k := Std.lt_of_le_of_ne (String.not_lt.1 hlt) (Ne.symm heq)
        refine List.Pairwise.cons (fun kv hkv => ?_) (ih hl.2)
        rcases mem_insertEntry hkv with rfl | hkv
        · exact hgt
        · exact hl.1 kv hkv

end Databag

/-- String keys to string values, in key order with no key twice. -/
structure Databag where
  entries : List (String × String)
  /-- The keys ascend strictly, as the keys of an ordered map do, so no key is held twice. -/
  sorted : entries.Pairwise (fun a b => a.1 < b.1)
  deriving DecidableEq

namespace Databag

/-- The databag with no keys. -/
def empty : Databag := ⟨[], List.Pairwise.nil⟩

instance : Inhabited Databag := ⟨empty⟩

/-- The value under `k`, if any. -/
def get? (d : Databag) (k : String) : Option String :=
  (d.entries.find? (fun kv => kv.1 == k)).map (·.2)

/-- Whether `k` has a value. -/
def contains (d : Databag) (k : String) : Bool := (d.get? k).isSome

/-- Sets `k ↦ v`. -/
def insert (d : Databag) (k v : String) : Databag :=
  ⟨insertEntry k v d.entries, sorted_insertEntry d.sorted⟩

/-- Removes `k`. -/
def erase (d : Databag) (k : String) : Databag :=
  ⟨d.entries.filter (fun kv => kv.1 != k), d.sorted.filter _⟩

/-- The keys, in order. -/
def keys (d : Databag) : List String := d.entries.map (·.1)

/-- Whether there are no keys. -/
def isEmpty (d : Databag) : Bool := d.entries.isEmpty

/-- The databag of a list of pairs, the later of two equal keys winning. -/
def ofList (kvs : List (String × String)) : Databag :=
  kvs.foldl (fun d kv => d.insert kv.1 kv.2) empty

/-- Sets `k ↦ v`, or removes `k` when `v` is empty. -/
def write (d : Databag) (k v : String) : Databag :=
  if v.isEmpty then d.erase k else d.insert k v

/-- Applies an update in which an empty value deletes its key. -/
def merge (d update : Databag) : Databag :=
  update.entries.foldl (fun acc kv => acc.write kv.1 kv.2) d

/-- Keeps the pairs whose key satisfies `p`. -/
def filterKeys (d : Databag) (p : String → Bool) : Databag :=
  ⟨d.entries.filter (fun kv => p kv.1), d.sorted.filter _⟩

/-- The JSON object of a databag, keys in order. -/
def toJson (d : Databag) : Json := .obj (d.entries.map fun kv => (kv.1, .str kv.2))

/-- The compact JSON text of a databag. -/
def toText (d : Databag) : String := d.toJson.write

end Databag

end ShareBroker
