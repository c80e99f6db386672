import ShareBroker.Databag
import ShareBroker.Error

/-! # Filesystem records

A `FsInfo` holds everything a client needs to mount a remote filesystem of one of three kinds:

* NFS: a host name (no port on it), an optional port and an exported path;
* CephFS: the cluster id, the filesystem name, the path, the monitor addresses, and the user
  and key to authenticate with;
* Lustre: the management server ids and the filesystem name.

`FsInfo.validate` checks that a record can be published and read back: every text field is
non-empty, every list has at least one entry and no empty one, and every host reads as a
network address. The first failing check, in the order listed for each kind, is reported.
-/

namespace ShareBroker

/-- The kind of a remote filesystem. -/
inductive FsKind where
  | nfs
  | cephfs
  | lustre
  deriving DecidableEq, Inhabited

namespace FsKind

/-- The URI scheme, which is also the kind's name in messages. -/
def scheme : FsKind → String
  | .nfs => "nfs"
  | .cephfs => "cephfs"
  | .lustre => "lustre"

/-- The kind of a URI scheme. -/
def ofScheme? : String → Option FsKind
  | "nfs" => some .nfs
  | "cephfs" => some .cephfs
  | "lustre" => some .lustre
  | _ => none

/-- The rank of a kind: NFS before CephFS before Lustre. -/
def rank : FsKind → Nat
  | .nfs => 0
  | .cephfs => 1
  | .lustre => 2

end FsKind

/-- Everything needed to mount a remote filesystem. -/
inductive FsInfo where
  | nfs (hostname : String) (port : Option UInt16) (path : String)
  | cephfs (fsid name path : String) (monitors : List String) (user key : String)
  | lustre (mgs : List String) (fsName : String)
  deriving DecidableEq, Inhabited

namespace FsInfo

/-- The kind of a record. -/
def kind : FsInfo → FsKind
  | .nfs .. => .nfs
  | .cephfs .. => .cephfs
  | .lustre .. => .lustre

/-- Fails unless the field `key` is non-empty. -/
def requireField (k : FsKind) (key value : String) : Outcome Unit :=
  if value.isEmpty then
    .error (.invalidRecord (k.scheme ++ " record has an empty `" ++ key ++ "`"))
  else .ok ()

/-- Fails unless the list `key` has entries and none of them is empty. -/
def requireEntries (k : FsKind) (key : String) : List String → Outcome Unit
  | [] => requireField k key ""
  | vs => vs.forM (requireField k key)

/-- Fails unless `host` reads as a network address; returns its port. -/
def checkHost (host : String) : Outcome (Option UInt16) :=
  match Address.parse host with
  | .ok a => .ok a.port
  | .error e => .error (.invalidHost host e)

/-- Checks that a record can be published and read back. -/
def validate : FsInfo → Outcome Unit
  | .nfs hostname _ path => do
    requireField .nfs "hostname" hostname
    requireField .nfs "path" path
    match ← checkHost hostname with
    | some _ => .error (.invalidHost hostname .portInHost)
    | none => .ok ()
  | .cephfs fsid name path monitors user key => do
    requireField .cephfs "fsid" fsid
    requireField .cephfs "name" name
    requireField .cephfs "path" path
    requireField .cephfs "user" user
    requireField .cephfs "key" key
    requireEntries .cephfs "monitor" monitors
    monitors.forM fun h => do let _ ← checkHost h
  | .lustre mgs fsName => do
    requireEntries .lustre "mgs" mgs
    requireField .lustre "fs_name" fsName

/-- The secret material of a record, which must not be published in the clear: the CephFS
user and key. -/
def secretContent : FsInfo → Option Databag
  | .cephfs _ _ _ _ user key => some (Databag.ofList [("user", user), ("key", key)])
  | _ => none

end FsInfo

end ShareBroker
