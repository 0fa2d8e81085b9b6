import LayerCache.Disk.Walk
import LayerCache.Sources.Catalog
import LayerCache.Zip.Directory

/-! Archives of further units, in the order they were registered. An archive is opened when a
lookup first reaches it and stays as it was then. -/
namespace LayerCache

/-- A unit in an archive. -/
structure EntryRef where
  archive : Path
  entry : String
  deriving DecidableEq

instance : ToString EntryRef := ⟨fun r => r.archive.text ++ "!" ++ r.entry⟩

inductive ArchiveError where
  | missing (path : Path)
  | unopenable (path : Path)
  | unreadable (path : Path) (entry : String) (fault : Zip.ReadFault)
  | unregistered (path : Path)
  deriving DecidableEq

def ArchiveError.message : ArchiveError → String
  | missing path => "archive " ++ path.text ++ " does not exist"
  | unopenable path => "failed to open archive " ++ path.text ++ ": invalid Zip archive"
  | unreadable path entry fault =>
    "failed to read '" ++ entry ++ "' from " ++ path.text ++ ": " ++ fault.message
  | unregistered path => "archive " ++ path.text ++ " is not registered"

/-- What an opened archive holds. -/
structure Index where
  /-- Tells the opened file from a later one of the same name. -/
  serial : Nat
  content : ByteArray
  directory : Zip.Directory
  catalog : Catalog

namespace Index

def entries (i : Index) : List String := i.catalog.entries

def entryOf (i : Index) (u : UnitId) : Option String := i.catalog.entryOf u

/-- A file that was removed keeps its content for those who have it open. -/
def read (i : Index) (d : Disk) (entry : String) : Except Zip.ReadFault ByteArray × Index :=
  let (result, directory) := i.directory.read ((d.contentOf i.serial).getD i.content) entry
  (result, { i with directory })

end Index

inductive ArchiveState where
  | unopened
  | unavailable
  | indexed (index : Index)

structure Archive where
  path : Path
  state : ArchiveState

namespace Archive

/-- Archives are told apart by this text. -/
def key (p : Path) : String :=
  let cs := (Text.slashes p.text).toList
  Text.lower (String.ofList (cs.reverse.dropWhile (· == '/')).reverse)

def index (d : Disk) (p : Path) (ending reserved : String) : Except ArchiveError Index :=
  match d.stat p with
  | .ok (_, .file serial content) => match Zip.Directory.ofArchive? content with
    | some directory =>
      .ok ⟨serial, content, directory, .ofNames ending reserved directory.names⟩
    | none => .error (.unopenable p)
  | .ok (_, .program _) => .error (.unopenable p)
  | _ => .error (.missing p)

/-- Only the first opening looks at the disk. -/
def opened (a : Archive) (d : Disk) (ending reserved : String) :
    Except ArchiveError Index × Archive :=
  match a.state with
  | .indexed i => (.ok i, a)
  | .unavailable => (.error (.missing a.path), a)
  | .unopened => match index d a.path ending reserved with
    | .ok i => (.ok i, { a with state := .indexed i })
    | .error e => (.error e, { a with state := .unavailable })

end Archive

structure Archives where
  archives : List Archive
  ending : String
  reserved : String

namespace Archives

def new (ending reserved : String) : Archives := ⟨[], ending, EntryName.dropSlashes reserved⟩

def isRegistered (as : Archives) (p : Path) : Bool :=
  as.archives.any fun a => Archive.key a.path == Archive.key p

/-- Adds an archive unless it is there already; tells which. -/
def register (as : Archives) (p : Path) : Bool × Archives :=
  if as.isRegistered p then (false, as)
  else (true, { as with archives := as.archives ++ [⟨p, .unopened⟩] })

def ofPaths (paths : List Path) (ending reserved : String) : Archives :=
  paths.foldl (fun as p => (as.register p).2) (new ending reserved)

def paths (as : Archives) : List Path := as.archives.map (·.path)

/-- Opens the archive registered under a path. -/
def openIn (d : Disk) (ending reserved : String) (p : Path) :
    List Archive → Except ArchiveError Index × List Archive
  | [] => (.error (.unregistered p), [])
  | a :: rest =>
    if Archive.key a.path = Archive.key p then
      let (result, a) := a.opened d ending reserved
      (result, a :: rest)
    else
      let (result, rest) := openIn d ending reserved p rest
      (result, a :: rest)

def openAt (as : Archives) (d : Disk) (p : Path) : Except ArchiveError Index × Archives :=
  let (result, archives) := openIn d as.ending as.reserved p as.archives
  (result, { as with archives })

/-- The unit in the first archive that has it; the archives behind that one stay closed. -/
def findIn (d : Disk) (ending reserved : String) (u : UnitId) :
    List Archive → Option EntryRef × List Archive
  | [] => (none, [])
  | a :: rest =>
    let (result, a) := a.opened d ending reserved
    match result.toOption.bind (·.entryOf u) with
    | some entry => (some ⟨a.path, entry⟩, a :: rest)
    | none =>
      let (found, rest) := findIn d ending reserved u rest
      (found, a :: rest)

def find (as : Archives) (d : Disk) (u : UnitId) : Option EntryRef × Archives :=
  let (found, archives) := findIn d as.ending as.reserved u as.archives
  (found, { as with archives })

/-- The entries of one archive that are units, in order; none if it cannot be opened. -/
def entries (as : Archives) (d : Disk) (p : Path) : List String × Archives :=
  let (result, as) := as.openAt d p
  match result with
  | .ok i => (i.entries, as)
  | .error _ => ([], as)

/-- Keeps what is known of an opened archive. -/
def setIndex (as : Archives) (p : Path) (i : Index) : Archives :=
  { as with archives := as.archives.map fun a =>
      if Archive.key a.path = Archive.key p then { a with state := .indexed i } else a }

def read (as : Archives) (d : Disk) (r : EntryRef) : Except ArchiveError ByteArray × Archives :=
  let (result, as) := as.openAt d r.archive
  match result with
  | .error e => (.error e, as)
  | .ok i =>
    let (result, i) := i.read d r.entry
    (result.mapError (.unreadable r.archive r.entry), as.setIndex r.archive i)

end Archives
end LayerCache
