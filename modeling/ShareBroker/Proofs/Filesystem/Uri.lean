import ShareBroker.Filesystem.Uri
import ShareBroker.Proofs.Text.FormCoding
import ShareBroker.Proofs.Json.StringMap

/-!
# Reading back an endpoint URI

A filesystem record is published as `<kind>://?<query>` and read back by `FsInfo.decode`,
which nests three codecs: the form-encoded query pairs, the secret pointer in `auth`, and
for an inline pointer the JSON of the credentials. This file shows that each layer gives
back what was written, and that the decoder then returns the record exactly when it passes
`FsInfo.validate`.

## Key results

- `FsInfo.readHeader_encode`: the scheme, the kind, the query and the version of a written
  URI are read back, the query as the very pairs written.
- `FsInfo.readFields_nfs`, `FsInfo.readFields_cephfs`, `FsInfo.readFields_lustre`: the fields
  of a record are read back as they are, and reading fails only on an empty required field.
- `FsInfo.decode_encode_eq_ok`: a written record is read back exactly when it is valid.
- `FsInfo.fromUri_toUri_round_trip`: the inline form round-trips on every valid record and
  fails on every other; the sealed form round-trips through any store that holds the
  record's credentials, and records without credentials never consult the store.
-/

namespace ShareBroker

namespace Outcome

@[simp] theorem ok_bind {α β : Type} (a : α) (f : α → Outcome β) :
    (Except.ok a >>= f : Outcome β) = f a := rfl

@[simp] theorem error_bind {α β : Type} (e : Error) (f : α → Outcome β) :
    (Except.error e >>= f : Outcome β) = .error e := rfl

/-- A chain of two steps succeeds exactly when the first does and the second succeeds on its
result. -/
theorem bind_eq_ok {α β : Type} {x : Outcome α} {f : α → Outcome β} {b : β} :
    x >>= f = .ok b ↔ ∃ a, x = .ok a ∧ f a = .ok b := by
  cases x with
  | error e => simp
  | ok a => simp

end Outcome

/-! ## Ports -/

namespace Decimal

theorem readDigits_append (max acc : Nat) (xs ys : List Char) :
    readDigits max acc (xs ++ ys) = (readDigits max acc xs).bind (readDigits max · ys) := by
  induction xs generalizing acc with
  | nil => rfl
  | cons c xs ih =>
    simp only [List.cons_append, readDigits]
    split
    · split
      · rfl
      · exact ih _
    · rfl

theorem digitChar_value : ∀ d, d < 10 →
    (Nat.digitChar d).isDigit = true ∧ (Nat.digitChar d).toNat - '0'.toNat = d := by
  decide

theorem readDigits_digitChar (max acc : Nat) {d : Nat} (hd : d < 10) (h : 10 * acc + d ≤ max) :
    readDigits max acc [Nat.digitChar d] = .ok (10 * acc + d) := by
  obtain ⟨hdigit, hval⟩ := digitChar_value d hd
  simp only [readDigits, hdigit, hval, if_true, if_neg (Nat.not_lt.2 h)]

/-- The decimal digits of a number in range read back as the number. -/
theorem readDigits_toDigits {max : Nat} (n : Nat) (hn : n ≤ max) :
    readDigits max 0 (Nat.toDigits 10 n) = .ok n := by
  -- the digits of `n` are those of `n / 10` followed by the last one
  induction n using Nat.strongRecOn with
  | ind n ih =>
    rw [Nat.toDigits_eq_if (by decide)]
    split
    · simpa using readDigits_digitChar max 0 (by omega) (by omega)
    · have hlast := readDigits_digitChar max (n / 10) (d := n % 10) (by omega) (by omega)
      rw [readDigits_append, ih (n / 10) (by omega) (by omega), Except.bind, hlast,
        Nat.div_add_mod]

/-- A number in range, written in decimal, reads back as itself. -/
theorem readUnsigned_toString {max n : Nat} (hn : n ≤ max) :
    readUnsigned max (toString n) = .ok n := by
  have hdigits : (toString n).toList = Nat.toDigits 10 n := by
    rw [Nat.toString_eq_repr, Nat.toList_repr]
  obtain ⟨c, cs, hc⟩ := List.exists_cons_of_ne_nil (Nat.toDigits_ne_nil (b := 10) (n := n))
  -- a written number has no sign, so the last case of the reader applies
  have hplus : c ≠ '+' := by
    intro h
    have hdigit : c.isDigit = true :=
      Nat.isDigit_of_mem_toDigits (by decide) (by decide) (hc ▸ List.mem_cons_self)
    rw [h] at hdigit
    exact absurd hdigit (by decide)
  rw [readUnsigned, hdigits, hc]
  -- the first three patterns need an empty text or a leading `+`
  split
  · simp at *
  · simp_all
  · simp_all
  · rw [← hc]
    exact readDigits_toDigits n hn

end Decimal

/-! ## Secret pointers -/

namespace SecretRef

theorem splitKind_append (kind : String) (h : ':' ∉ kind.toList) (data : String) :
    splitKind (kind ++ ":" ++ data) = some (kind, data) := by
  have hpos : ∀ c ∈ kind.toList, (decide (c ≠ ':')) = true := fun c hc => by
    simp only [ne_eq, decide_eq_true_eq]
    rintro rfl
    exact h hc
  have hcolon : ":".toList = [':'] := by decide
  simp only [splitKind, String.toList_append, hcolon, List.append_assoc, List.singleton_append]
  rw [List.dropWhile_append_of_pos hpos, List.takeWhile_append_of_pos hpos]
  simp

/-- An inline pointer reads back as itself. -/
theorem parse_plain (d : Databag) : parse (plain d).toString = .ok (.plain d) := by
  have hsplit := splitKind_append "plain" (by decide) d.toText
  rw [show "plain" ++ ":" = "plain:" by decide] at hsplit
  simp only [SecretRef.toString, parse, hsplit, Json.readStringMap_toText d,
    Databag.ofList_entries d]
  simp

/-- A pointer `secret:<t>` with a non-empty `t` is a host secret, kept with its prefix. -/
theorem parse_secret {t : String} (ht : t ≠ "") :
    parse ("secret:" ++ t) = .ok (.secret ("secret:" ++ t)) := by
  have hsplit := splitKind_append "secret" (by decide) t
  rw [show "secret" ++ ":" = "secret:" by decide] at hsplit
  simp [parse, hsplit, ht]

theorem toString_secret_prefixed (t : String) :
    (secret ("secret:" ++ t)).toString = "secret:" ++ t := by
  simp [SecretRef.toString]

end SecretRef

namespace FsInfo

/-! ## The query -/

@[simp] theorem param?_nil (key : String) : param? [] key = none := rfl

@[simp] theorem param?_cons (k v key : String) (l : List (String × String)) :
    param? ((k, v) :: l) key = if k = key then some v else param? l key := by
  by_cases h : k = key <;> simp [param?, h]

@[simp] theorem param?_append (l₁ l₂ : List (String × String)) (key : String) :
    param? (l₁ ++ l₂) key = (param? l₁ key).or (param? l₂ key) := by
  simp only [param?, List.find?_append, Option.map_or]

@[simp] theorem param?_map_pair (k key : String) (vs : List String) :
    param? (vs.map ((k, ·))) key = if k = key then vs.head? else none := by
  induction vs with
  | nil => simp
  | cons v vs ih => by_cases h : k = key <;> simp [h, ih]

@[simp] theorem paramAll_nil (key : String) : paramAll [] key = [] := rfl

@[simp] theorem paramAll_cons (k v key : String) (l : List (String × String)) :
    paramAll ((k, v) :: l) key = if k = key then v :: paramAll l key else paramAll l key := by
  by_cases h : k = key <;> simp [paramAll, h]

@[simp] theorem paramAll_append (l₁ l₂ : List (String × String)) (key : String) :
    paramAll (l₁ ++ l₂) key = paramAll l₁ key ++ paramAll l₂ key := by
  simp [paramAll]

@[simp] theorem paramAll_map_pair (k key : String) (vs : List String) :
    paramAll (vs.map ((k, ·))) key = if k = key then vs else [] := by
  by_cases h : k = key <;> simp [paramAll, List.filter_map, Function.comp_def, h]

/-- A required parameter is read as its first value, which must be non-empty. -/
theorem paramRequired_of_param? {uri : String} {params : List (String × String)} {key v : String}
    (h : param? params key = some v) :
    paramRequired uri params key =
      if v = "" then .error (.invalidUri uri ("missing `" ++ key ++ "`")) else .ok v := by
  simp [paramRequired, h, String.isEmpty_iff]

/-! ## The header -/

theorem splitScheme_append (acc cs rest : List Char) (h : ':' ∉ cs) :
    splitScheme acc (cs ++ ':' :: '/' :: '/' :: rest) = some (acc.reverse ++ cs, rest) := by
  induction cs generalizing acc with
  | nil => simp [splitScheme]
  | cons c cs ih =>
    have hc : c ≠ ':' := fun hc => h (hc ▸ List.mem_cons_self)
    rw [List.cons_append, splitScheme]
    · rw [ih (c :: acc) (fun hm => h (List.mem_cons_of_mem _ hm))]
      simp
    · simp [hc]

theorem ofScheme?_scheme (k : FsKind) : FsKind.ofScheme? k.scheme = some k := by
  cases k <;> rfl

/-- The first `://` of a written URI is the one after its scheme, whatever the query holds. -/
theorem splitScheme_encode (i : FsInfo) (auth : Option SecretRef) :
    splitScheme [] (i.encode auth).toList =
      some (i.kind.scheme.toList, '?' :: (FormCoding.encodePairs (i.uriPairs auth)).toList) := by
  have hsep : "://?".toList = [':', '/', '/', '?'] := by decide
  have hcolon : ':' ∉ i.kind.scheme.toList := by cases i.kind <;> decide
  rw [encode, String.toList_append, String.toList_append, hsep, List.append_assoc]
  exact splitScheme_append [] _ _ hcolon

theorem param?_uriPairs_v (i : FsInfo) (auth : Option SecretRef) :
    param? (i.uriPairs auth) "v" = some uriVersion := by
  simp [uriPairs]

/-- The header of a written URI reads back as its kind and the pairs written. -/
theorem readHeader_encode (i : FsInfo) (auth : Option SecretRef) :
    readHeader (i.encode auth) = .ok (i.kind, i.uriPairs auth) := by
  simp only [readHeader, splitScheme_encode, pure_bind, String.ofList_toList, ofScheme?_scheme,
    FormCoding.decodePairs_encodePairs, param?_uriPairs_v, ↓reduceIte]
  rfl

/-! ## The fields -/

/-- The single-valued fields that reading requires to be non-empty are non-empty. -/
def Filled : FsInfo → Prop
  | nfs hostname _ path => hostname ≠ "" ∧ path ≠ ""
  | cephfs fsid name path _ _ _ => fsid ≠ "" ∧ name ≠ "" ∧ path ≠ ""
  | lustre _ fsName => fsName ≠ ""

theorem requireField_eq_ok {k : FsKind} {key value : String} :
    requireField k key value = .ok () ↔ value ≠ "" := by
  by_cases h : value = "" <;> simp [requireField, h, String.isEmpty_iff]

/-- Validation checks every field that reading requires. -/
theorem filled_of_validate {i : FsInfo} (h : i.validate = .ok ()) : i.Filled := by
  cases i with
  | nfs hostname port path =>
    obtain ⟨_, h₁, h⟩ := Outcome.bind_eq_ok.1 h
    obtain ⟨_, h₂, -⟩ := Outcome.bind_eq_ok.1 h
    exact ⟨requireField_eq_ok.1 h₁, requireField_eq_ok.1 h₂⟩
  | cephfs fsid name path monitors user key =>
    obtain ⟨_, h₁, h⟩ := Outcome.bind_eq_ok.1 h
    obtain ⟨_, h₂, h⟩ := Outcome.bind_eq_ok.1 h
    obtain ⟨_, h₃, -⟩ := Outcome.bind_eq_ok.1 h
    exact ⟨requireField_eq_ok.1 h₁, requireField_eq_ok.1 h₂, requireField_eq_ok.1 h₃⟩
  | lustre mgs fsName =>
    obtain ⟨_, -, h⟩ := Outcome.bind_eq_ok.1 h
    exact requireField_eq_ok.1 h

theorem param?_nfs (h : String) (p : Option UInt16) (path : String) (auth : Option SecretRef) :
    param? ((nfs h p path).uriPairs auth) "hostname" = some h ∧
    param? ((nfs h p path).uriPairs auth) "port" = p.map (fun q => toString q.toNat) ∧
    param? ((nfs h p path).uriPairs auth) "path" = some path := by
  cases p <;> cases auth <;> simp [uriPairs, queryPairs]

theorem param?_cephfs (fsid name path : String) (ms : List String) (user key : String)
    (ref : SecretRef) :
    param? ((cephfs fsid name path ms user key).uriPairs (some ref)) "auth" = some ref.toString ∧
    param? ((cephfs fsid name path ms user key).uriPairs (some ref)) "fsid" = some fsid ∧
    param? ((cephfs fsid name path ms user key).uriPairs (some ref)) "name" = some name ∧
    param? ((cephfs fsid name path ms user key).uriPairs (some ref)) "path" = some path ∧
    paramAll ((cephfs fsid name path ms user key).uriPairs (some ref)) "monitor" = ms := by
  simp [uriPairs, queryPairs]

theorem param?_lustre (mgs : List String) (fsName : String) (auth : Option SecretRef) :
    paramAll ((lustre mgs fsName).uriPairs auth) "mgs" = mgs ∧
    param? ((lustre mgs fsName).uriPairs auth) "fs_name" = some fsName := by
  cases auth <;> simp [uriPairs, queryPairs]

/-- The fields of a written NFS record read back as they are, port included. -/
theorem readFields_nfs (uri : String) (resolve : SecretRef → Outcome Databag) (h : String)
    (p : Option UInt16) (path : String) (auth : Option SecretRef) (j : FsInfo) :
    readFields uri resolve ((nfs h p path).uriPairs auth) .nfs = .ok j ↔
      j = nfs h p path ∧ h ≠ "" ∧ path ≠ "" := by
  obtain ⟨hh, hp, hpath⟩ := param?_nfs h p path auth
  -- a port is written in decimal and is at most 65535, so it reads back as itself
  have hport (q : UInt16) : Decimal.readUnsigned 65535 q.toNat.repr = .ok q.toNat := by
    rw [← Nat.toString_eq_repr]
    exact Decimal.readUnsigned_toString (by have := q.toNat_lt; omega)
  simp only [readFields, paramRequired_of_param? hh, paramRequired_of_param? hpath, hp]
  cases p <;> by_cases hhe : h = "" <;> by_cases hpe : path = "" <;>
    simp [hhe, hpe, hport, eq_comm (b := j)]

/-- The fields of a written CephFS record read back as they are, given a pointer that reads
back and resolves to the record's credentials. -/
theorem readFields_cephfs (uri : String) {resolve : SecretRef → Outcome Databag}
    (fsid name path : String) (ms : List String) (user key : String) {ref ref' : SecretRef}
    {c : Databag} (hparse : SecretRef.parse ref.toString = .ok ref') (hres : resolve ref' = .ok c)
    (huser : c.get? "user" = some user) (hkey : c.get? "key" = some key) (j : FsInfo) :
    readFields uri resolve ((cephfs fsid name path ms user key).uriPairs (some ref)) .cephfs =
        .ok j ↔
      j = cephfs fsid name path ms user key ∧ fsid ≠ "" ∧ name ≠ "" ∧ path ≠ "" := by
  obtain ⟨hauth, hfsid, hname, hpath, hms⟩ := param?_cephfs fsid name path ms user key ref
  -- the empty text has no kind, so a pointer that reads back is never empty
  have href : ref.toString ≠ "" := by
    intro h
    rw [h] at hparse
    simp [SecretRef.parse, SecretRef.splitKind] at hparse
  simp only [readFields, paramRequired_of_param? hauth, paramRequired_of_param? hfsid,
    paramRequired_of_param? hname, paramRequired_of_param? hpath, hms, href, if_false,
    Outcome.ok_bind, hparse, hres, huser, hkey]
  by_cases h₁ : fsid = "" <;> by_cases h₂ : name = "" <;> by_cases h₃ : path = "" <;>
    simp [h₁, h₂, h₃, eq_comm (b := j)]

/-- The fields of a written Lustre record read back as they are. -/
theorem readFields_lustre (uri : String) (resolve : SecretRef → Outcome Databag)
    (mgs : List String) (fsName : String) (auth : Option SecretRef) (j : FsInfo) :
    readFields uri resolve ((lustre mgs fsName).uriPairs auth) .lustre = .ok j ↔
      j = lustre mgs fsName ∧ fsName ≠ "" := by
  obtain ⟨hmgs, hname⟩ := param?_lustre mgs fsName auth
  simp only [readFields, paramRequired_of_param? hname, hmgs]
  by_cases he : fsName = "" <;> simp [he, eq_comm (b := j)]

/-! ## Whole records -/

/-- A written record is read back exactly when it is valid, as long as its fields are. -/
theorem decode_encode_eq_ok {i : FsInfo} {auth : Option SecretRef}
    {resolve : SecretRef → Outcome Databag}
    (hread : ∀ j, readFields (i.encode auth) resolve (i.uriPairs auth) i.kind = .ok j ↔
      j = i ∧ i.Filled)
    (j : FsInfo) : decode (i.encode auth) resolve = .ok j ↔ j = i ∧ i.validate = .ok () := by
  simp only [decode, readHeader_encode, Outcome.ok_bind]
  by_cases hv : i.validate = .ok ()
  · -- a valid record has every required field, so it is read back as it is
    have hi := (hread i).2 ⟨rfl, filled_of_validate hv⟩
    simp [hi, hv, eq_comm (b := j)]
  · -- any other record is either not read back, or read back as itself and then refused
    simp only [hv, and_false, iff_false]
    cases hr : readFields (i.encode auth) resolve (i.uriPairs auth) i.kind with
    | error e => simp
    | ok info =>
      obtain ⟨rfl, -⟩ := (hread info).1 hr
      cases hvi : info.validate <;> simp_all

theorem secretContent_get? (user key : String) :
    (Databag.ofList [("user", user), ("key", key)]).get? "user" = some user ∧
    (Databag.ofList [("user", user), ("key", key)]).get? "key" = some key := by
  rw [Databag.get?_ofList_of_nodup (by simp), Databag.get?_ofList_of_nodup (by simp)]
  simp [Databag.lookupIn_cons]

/-- The inline URI of a record reads back exactly when the record is valid. -/
theorem fromUri_toUri_eq_ok (i j : FsInfo) :
    fromUri i.toUri = .ok j ↔ j = i ∧ i.validate = .ok () := by
  cases i with
  | nfs h p path => exact decode_encode_eq_ok (readFields_nfs _ _ h p path none) j
  | cephfs fsid name path ms user key =>
    obtain ⟨huser, hkey⟩ := secretContent_get? user key
    exact decode_encode_eq_ok (readFields_cephfs _ fsid name path ms user key
      (SecretRef.parse_plain _) rfl huser hkey) j
  | lustre mgs fsName => exact decode_encode_eq_ok (readFields_lustre _ _ mgs fsName none) j

/-- The sealed URI of a valid record reads back through any store that holds its
credentials under the pointer. -/
theorem fromUriWith_toUriSealed {i : FsInfo} (hv : i.validate = .ok ()) {t : String}
    (ht : t ≠ "") {lookup : String → Outcome Databag}
    (hlookup : ∀ c, i.secretContent = some c → lookup ("secret:" ++ t) = .ok c) :
    fromUriWith (i.toUriSealed ("secret:" ++ t)) lookup = .ok i := by
  cases i with
  | nfs h p path => exact (decode_encode_eq_ok (readFields_nfs _ _ h p path none) _).2 ⟨rfl, hv⟩
  | cephfs fsid name path ms user key =>
    obtain ⟨huser, hkey⟩ := secretContent_get? user key
    -- the pointer is written as the id itself, which already carries its prefix
    have hparse : SecretRef.parse (SecretRef.secret ("secret:" ++ t)).toString =
        .ok (.secret ("secret:" ++ t)) := by
      rw [SecretRef.toString_secret_prefixed]
      exact SecretRef.parse_secret ht
    exact (decode_encode_eq_ok (readFields_cephfs _ fsid name path ms user key hparse
      (hlookup _ rfl) huser hkey) _).2 ⟨rfl, hv⟩
  | lustre mgs fsName =>
    exact (decode_encode_eq_ok (readFields_lustre _ _ mgs fsName none) _).2 ⟨rfl, hv⟩

/-- A record without credentials has one URI, and reading it never consults the store. -/
theorem fromUriWith_toUriSealed_of_secretContent_none {i : FsInfo} (h : i.secretContent = none)
    (s : String) (lookup : String → Outcome Databag) :
    i.toUriSealed s = i.toUri ∧ fromUriWith (i.toUriSealed s) lookup = fromUri i.toUri := by
  cases i with
  | cephfs => simp [secretContent] at h
  | nfs =>
    refine ⟨rfl, ?_⟩
    simp only [fromUriWith, fromUri, toUriSealed, toUri, secretContent, Option.map_none, decode,
      readHeader_encode, Outcome.ok_bind]
    rfl
  | lustre =>
    refine ⟨rfl, ?_⟩
    simp only [fromUriWith, fromUri, toUriSealed, toUri, secretContent, Option.map_none, decode,
      readHeader_encode, Outcome.ok_bind]
    rfl

/-- Endpoint URIs round-trip exactly on valid records: the inline form reads back as the
record when it is valid and fails otherwise; the sealed form with a pointer `secret:<t>`
reads back through any store that holds the credentials under it; and a record without
credentials is written the same both ways and read without the store. -/
theorem fromUri_toUri_round_trip (i : FsInfo) :
    (i.validate = .ok () → fromUri i.toUri = .ok i) ∧
    (i.validate ≠ .ok () → ∃ e, fromUri i.toUri = .error e) ∧
    (∀ t : String, t ≠ "" → ∀ lookup : String → Outcome Databag, i.validate = .ok () →
      (∀ c, i.secretContent = some c → lookup ("secret:" ++ t) = .ok c) →
      fromUriWith (i.toUriSealed ("secret:" ++ t)) lookup = .ok i) ∧
    (i.secretContent = none → ∀ (s : String) (lookup : String → Outcome Databag),
      i.toUriSealed s = i.toUri ∧ fromUriWith (i.toUriSealed s) lookup = fromUri i.toUri) := by
  refine ⟨fun hv => (fromUri_toUri_eq_ok i i).2 ⟨rfl, hv⟩, fun hv => ?_,
    fun t ht lookup hv hlookup => fromUriWith_toUriSealed hv ht hlookup,
    fun h s lookup => fromUriWith_toUriSealed_of_secretContent_none h s lookup⟩
  -- an outcome that is no record at all is an error
  cases hr : fromUri i.toUri with
  | error e => exact ⟨e, rfl⟩
  | ok j => exact absurd ((fromUri_toUri_eq_ok i j).1 hr).2 hv

/-- A CephFS record round-trips both inline and through a store holding its credentials. -/
theorem fromUri_toUri_round_trip_cephfs :
    let i := FsInfo.cephfs "7d4c" "share" "/" ["10.0.0.1"] "admin" "AQB=="
    let lookup : String → Outcome Databag :=
      fun _ => .ok (Databag.ofList [("user", "admin"), ("key", "AQB==")])
    i.validate = .ok () ∧ fromUri i.toUri = .ok i ∧
      fromUriWith (i.toUriSealed ("secret:" ++ "vault-1")) lookup = .ok i := by
  intro i lookup
  have hv : i.validate = .ok () := by rfl
  have hlookup : ∀ c, i.secretContent = some c → lookup ("secret:" ++ "vault-1") = .ok c := by
    intro c hc
    cases hc
    rfl
  exact ⟨hv, (fromUri_toUri_round_trip i).1 hv,
    (fromUri_toUri_round_trip i).2.2.1 "vault-1" (by decide) lookup hv hlookup⟩

end FsInfo

end ShareBroker
