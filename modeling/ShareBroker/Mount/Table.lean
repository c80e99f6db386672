import ShareBroker.Filesystem.Info
import ShareBroker.Net.Ipv6
import ShareBroker.Text.Blank
import ShareBroker.Record.Types

/-! # The mount table

The desired mounts of a unit form an autofs direct map: one line per mountpoint, in
mountpoint order, `<mountpoint> -<option>,<option>… <endpoint>`.

* `MountOptions.toOptions` spells the four flags: `exec`/`noexec`, `suid`/`nosuid`,
  `dev`/`nodev`, `rw`/`ro`.
* `FsInfo.mountSource` gives the endpoint of a record and the options its kind needs: an NFS
  host is bracketed when it is a bare IPv6 address, CephFS names user, cluster and filesystem
  and carries the monitors and the key, Lustre joins its servers with `:`.
* `MountTable.add` sets the entry of a mountpoint, replacing any earlier one. The mountpoint
  must start with `/`, and no field of the line may hold a blank, since blanks separate the
  fields; a refused entry leaves the table as it was.
* `MountTable.render` is the text of the map, lines joined by line feeds.

`mapPaths` names the two files of the map for an application.
-/

namespace ShareBroker

/-- The mount flags a workload may ask for. -/
structure MountOptions where
  noexec : Bool := false
  nosuid : Bool := false
  nodev : Bool := false
  readOnly : Bool := false
  deriving DecidableEq, Inhabited

namespace MountOptions

/-- The options spelled for the map. -/
def toOptions (o : MountOptions) : List String :=
  [if o.noexec then "noexec" else "exec", if o.nosuid then "nosuid" else "suid",
   if o.nodev then "nodev" else "dev", if o.readOnly then "ro" else "rw"]

/-- The flags of a mount request. -/
def ofMountInfo (m : MountInfo) : MountOptions := ⟨m.noexec, m.nosuid, m.nodev, m.readOnly⟩

end MountOptions

/-- The endpoint of a record and the options its kind needs. -/
def FsInfo.mountSource : FsInfo → String × List String
  | .nfs hostname port path =>
    let host := if Ipv6.isAddress hostname then "[" ++ hostname ++ "]" else hostname
    (host ++ ":" ++ path,
      ["fstype=nfs", "nfsvers=4", "minorversion=2"] ++
        (port.map fun p => ["port=" ++ toString p.toNat]).getD [])
  | .cephfs fsid name path monitors user key =>
    (user ++ "@" ++ fsid ++ "." ++ name ++ "=" ++ path,
      ["fstype=ceph", "mon_addr=" ++ "/".intercalate monitors, "secret=" ++ key])
  | .lustre mgs fsName => (":".intercalate mgs ++ ":/" ++ fsName, ["fstype=lustre"])

/-- One line of the map without its mountpoint. -/
structure MountEntry where
  endpoint : String
  options : List String
  deriving DecidableEq, Inhabited

/-- The desired mounts, by mountpoint in order. -/
structure MountTable where
  entries : List (String × MountEntry)
  deriving DecidableEq, Inhabited

namespace MountTable

/-- No mounts. -/
def empty : MountTable := ⟨[]⟩

/-- Puts an entry under a mountpoint into an ordered list, replacing an equal mountpoint. -/
def putEntry (mp : String) (e : MountEntry) : List (String × MountEntry) → List (String × MountEntry)
  | [] => [(mp, e)]
  | (mp', e') :: rest =>
    if mp < mp' then (mp, e) :: (mp', e') :: rest
    else if mp = mp' then (mp, e) :: rest
    else (mp', e') :: putEntry mp e rest

/-- Inserts a text into an ordered list, keeping equal texts. -/
def insertSorted (s : String) : List String → List String
  | [] => [s]
  | t :: rest => if t ≤ s then t :: insertSorted s rest else s :: t :: rest

/-- A list of texts in order. -/
def sortStrings (xs : List String) : List String := xs.foldr insertSorted []

/-- Sets the entry of a mountpoint. -/
def add (t : MountTable) (info : FsInfo) (mountpoint : String) (opts : MountOptions) :
    Outcome MountTable :=
  if !mountpoint.startsWith "/" then
    .error (.invalidRecord ("mountpoint `" ++ mountpoint ++ "` is not an absolute path"))
  else
    let (endpoint, extra) := info.mountSource
    let options := sortStrings (opts.toOptions ++ extra)
    match ([mountpoint, endpoint] ++ options).find? Text.hasBlank with
    | some field =>
      .error (.invalidRecord ("`" ++ field ++ "` contains whitespace and can't be written to the mount map"))
    | none => .ok ⟨putEntry mountpoint ⟨endpoint, options⟩ t.entries⟩

/-- The mountpoints, in order. -/
def mountpoints (t : MountTable) : List String := t.entries.map (·.1)

/-- Whether there are no mounts. -/
def isEmpty (t : MountTable) : Bool := t.entries.isEmpty

/-- The text of the map. -/
def render (t : MountTable) : String :=
  "\n".intercalate (t.entries.map fun e =>
    e.1 ++ " -" ++ ",".intercalate e.2.options ++ " " ++ e.2.endpoint)

end MountTable

/-- The master file and the map file of an application's autofs map. -/
def mapPaths (app : String) : String × String :=
  ("/etc/auto.master.d/" ++ app ++ ".autofs", "/etc/auto." ++ app)

end ShareBroker
