import ShareBroker.Filesystem.Info
import ShareBroker.SecretRef
import ShareBroker.Text.FormCoding
import ShareBroker.Decimal.Unsigned

/-! # Endpoint URIs

A filesystem record travels between applications as one text,
`<kind>://?v=1&<field>=<value>&…`, the query written with `FormCoding`:

* NFS: `hostname`, then `port` when there is one, then `path`;
* CephFS: `fsid`, `name`, `path`, one `monitor` per monitor, in order;
* Lustre: one `mgs` per server, in order, then `fs_name`;
* then `auth`, a secret pointer to the CephFS user and key, when the record has them.

`FsInfo.toUri` carries the secret material inline (`plain:…`), `FsInfo.toUriSealed id` points
at the host secret `id`.

Reading (`FsInfo.decode`) checks, in order: the `://` separator, the kind, the `?` that opens
the query, and the version (`v` absent or `1`). A single-valued field is its first occurrence
and must be non-empty; list fields gather every occurrence. For CephFS the pointer is read and
resolved before the other fields. The record read must pass `FsInfo.validate`.
-/

namespace ShareBroker

/-- The layout version written into every URI. -/
def uriVersion : String := "1"

namespace FsInfo

/-- The query pairs of a record, before any `auth` pointer. -/
def queryPairs : FsInfo → List (String × String)
  | .nfs hostname port path =>
    [("hostname", hostname)] ++ (port.map (fun p => [("port", toString p.toNat)])).getD [] ++
      [("path", path)]
  | .cephfs fsid name path monitors _ _ =>
    [("fsid", fsid), ("name", name), ("path", path)] ++ monitors.map (("monitor", ·))
  | .lustre mgs fsName => mgs.map (("mgs", ·)) ++ [("fs_name", fsName)]

/-- The query pairs of a record with an optional `auth` pointer: the version first, the
pointer last. -/
def uriPairs (i : FsInfo) (auth : Option SecretRef) : List (String × String) :=
  [("v", uriVersion)] ++ i.queryPairs ++ (auth.map (fun p => [("auth", p.toString)])).getD []

/-- The URI of a record with an optional `auth` pointer. -/
def encode (i : FsInfo) (auth : Option SecretRef) : String :=
  i.kind.scheme ++ "://?" ++ FormCoding.encodePairs (i.uriPairs auth)

/-- The URI of a record, secret material inline. -/
def toUri (i : FsInfo) : String := i.encode (i.secretContent.map .plain)

/-- The URI of a record, secret material behind the host secret `id`. -/
def toUriSealed (i : FsInfo) (id : String) : String :=
  match i.secretContent with
  | some _ => i.encode (some (.secret id))
  | none => i.encode none

/-- The first value of `key` in a query. -/
def param? (params : List (String × String)) (key : String) : Option String :=
  (params.find? (fun kv => kv.1 == key)).map (·.2)

/-- Every value of `key` in a query, in order. -/
def paramAll (params : List (String × String)) (key : String) : List String :=
  (params.filter (fun kv => kv.1 == key)).map (·.2)

/-- The first value of `key`, which must be non-empty. -/
def paramRequired (uri : String) (params : List (String × String)) (key : String) :
    Outcome String :=
  match param? params key with
  | some v => if v.isEmpty then .error (.invalidUri uri ("missing `" ++ key ++ "`")) else .ok v
  | none => .error (.invalidUri uri ("missing `" ++ key ++ "`"))

/-- Splits a text at the first occurrence of `://`. -/
def splitScheme : List Char → List Char → Option (List Char × List Char)
  | acc, ':' :: '/' :: '/' :: rest => some (acc.reverse, rest)
  | acc, c :: rest => splitScheme (c :: acc) rest
  | _, [] => none

/-- Reads what a URI holds before the fields of its record: the `://` separator, the kind, the
`?` that opens the query and the version. Returns the kind and the query pairs. -/
def readHeader (uri : String) : Outcome (FsKind × List (String × String)) := do
  let invalid (reason : String) : Error := .invalidUri uri reason
  let (schemeChars, rest) ← match splitScheme [] uri.toList with
    | some p => pure p
    | none => throw (invalid "missing scheme")
  let scheme := String.ofList schemeChars
  let kind ← match FsKind.ofScheme? scheme with
    | some k => pure k
    | none => throw (invalid ("unknown filesystem type `" ++ scheme ++ "`"))
  let query ← match rest with
    | '?' :: q => pure (String.ofList q)
    | _ => throw (invalid "missing query")
  let params := FormCoding.decodePairs query
  match param? params "v" with
  | none => pure ()
  | some v => if v = uriVersion then pure () else throw (invalid ("unsupported version `" ++ v ++ "`"))
  pure (kind, params)

/-- Reads the fields of a record of one kind from the query pairs of `uri`, resolving the
secret pointer with `resolve`. For CephFS the pointer is read and resolved first. -/
def readFields (uri : String) (resolve : SecretRef → Outcome Databag)
    (params : List (String × String)) : FsKind → Outcome FsInfo
  | .nfs => do
    let hostname ← paramRequired uri params "hostname"
    let port ← match param? params "port" with
      | none => pure none
      | some p => match Decimal.readUnsigned 65535 p with
        | .ok n => pure (some n.toUInt16)
        | .error e => throw (.invalidUri uri ("invalid port: " ++ e.message))
    let path ← paramRequired uri params "path"
    pure (FsInfo.nfs hostname port path)
  | .cephfs => do
    let pointer ← SecretRef.parse (← paramRequired uri params "auth")
    let auth ← resolve pointer
    let field (key : String) : Outcome String := match auth.get? key with
      | some v => .ok v
      | none => .error (.secret ("auth info is missing `" ++ key ++ "`"))
    let fsid ← paramRequired uri params "fsid"
    let name ← paramRequired uri params "name"
    let path ← paramRequired uri params "path"
    let monitors := paramAll params "monitor"
    let user ← field "user"
    let key ← field "key"
    pure (FsInfo.cephfs fsid name path monitors user key)
  | .lustre => do
    let mgs := paramAll params "mgs"
    let fsName ← paramRequired uri params "fs_name"
    pure (FsInfo.lustre mgs fsName)

/-- Reads a record from its URI, resolving the secret pointer with `resolve`; the record read
must pass `FsInfo.validate`. -/
def decode (uri : String) (resolve : SecretRef → Outcome Databag) : Outcome FsInfo := do
  let (kind, params) ← readHeader uri
  let info ← readFields uri resolve params kind
  info.validate
  pure info

/-- Reads a record whose secret material, if any, is inline. -/
def fromUri (uri : String) : Outcome FsInfo := decode uri SecretRef.resolveInline

/-- Reads a record, fetching a host secret with `lookup`. -/
def fromUriWith (uri : String) (lookup : String → Outcome Databag) : Outcome FsInfo :=
  decode uri (SecretRef.resolve lookup)

end FsInfo

end ShareBroker
