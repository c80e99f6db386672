import ShareBroker.Databag
import ShareBroker.Error

/-! # Secret pointers

Secret material never travels through a databag as it is. A provider stores it in a secret of
the host, grants that secret to the relation and publishes a pointer `secret:<id>`; where the
host has no secrets, it publishes the material inline as `plain:<json>`, the JSON of the
databag.

* `SecretRef.parse` reads a pointer: the text before the first `:` is its kind, `secret` with
  something after the colon or `plain` with a JSON object of strings;
* `SecretRef.toString` writes it; a secret id that already starts with `secret:` is written as
  it is, any other id gets that prefix;
* `SecretRef.resolve` fetches the material, through a store for a host secret.
-/

namespace ShareBroker

/-- A pointer to secret material. -/
inductive SecretRef where
  /-- Material held by the host under this id. -/
  | secret (id : String)
  /-- Material carried inline. -/
  | plain (content : Databag)
  deriving DecidableEq

namespace SecretRef

/-- Splits a text at its first `:`, if it has one. -/
def splitKind (s : String) : Option (String × String) :=
  let cs := s.toList
  match cs.dropWhile (· ≠ ':') with
  | ':' :: data => some (String.ofList (cs.takeWhile (· ≠ ':')), String.ofList data)
  | _ => none

/-- Reads a pointer. -/
def parse (s : String) : Outcome SecretRef :=
  match splitKind s with
  | none => .error (.secret ("no kind in `" ++ s ++ "`"))
  | some (kind, data) =>
    if kind = "secret" ∧ !data.isEmpty then .ok (.secret s)
    else if kind = "plain" then
      match Json.readStringMap data with
      | .ok kvs => .ok (.plain (Databag.ofList kvs))
      | .error e => .error (.secret ("invalid inline secret: " ++ e.message))
    else .error (.secret ("unknown kind `" ++ kind ++ "` for secret reference"))

/-- Reads a pointer, or gives `none` when it is malformed. -/
def parseLenient (s : String) : Option SecretRef :=
  match parse s with
  | .ok r => some r
  | .error _ => none

/-- The written form of a pointer. -/
protected def toString : SecretRef → String
  | .secret id => if id.startsWith "secret:" then id else "secret:" ++ id
  | .plain content => "plain:" ++ content.toText

instance : ToString SecretRef := ⟨SecretRef.toString⟩

/-- The material, fetching a host secret with `lookup`. -/
def resolve (lookup : String → Outcome Databag) : SecretRef → Outcome Databag
  | .secret id => lookup id
  | .plain content => .ok content

/-- The material of an inline pointer; a host secret cannot be fetched without a store. -/
def resolveInline : SecretRef → Outcome Databag
  | .secret id => .error (.secret ("`" ++ id ++ "` needs a secret store to resolve"))
  | .plain content => .ok content

end SecretRef

end ShareBroker
