import LayerCache.Cache.Manifest
import LayerCache.Disk.Edit
import LayerCache.Disk.Walk
import LayerCache.Path
import LayerCache.Text.Ascii
import LayerCache.Text.Lines
import LayerCache.UnitId

/-! The list of sources a build is about to compile again, one to a line. It is written before any
unit is compiled, so that it survives a build that breaks off. -/
namespace LayerCache

structure IgnoreList where
  entries : List String
  deriving DecidableEq

namespace IgnoreList

def empty : IgnoreList := ⟨[]⟩

def fileName : String := ".cacheignore"

def push (l : IgnoreList) (relative : Path) : IgnoreList :=
  ⟨l.entries ++ [Text.slashes relative.text]⟩

def size (l : IgnoreList) : Nat := l.entries.length

/-- The written form: no line feed after the last entry. -/
def render (l : IgnoreList) : String := Text.join "\n" l.entries

/-- Blanks around an entry and blank lines carry nothing. -/
def parse (text : String) : IgnoreList :=
  ⟨((Text.lines text).map Text.trim).filter (· ≠ "")⟩

end IgnoreList
end LayerCache

/-! The cache: a folder of artifacts by logical name, in the case the name was spelled in, beside
the ignore list and the manifest. -/
namespace LayerCache

structure ArtifactCache where
  folder : Path
  ending : String

namespace ArtifactCache

def pathOf (c : ArtifactCache) (u : UnitId) : Path := u.pathIn c.folder c.ending

def ignoreListPath (c : ArtifactCache) : Path := c.folder.joinName IgnoreList.fileName

def makeFolder (d : Disk) (folder : Path) : Except CacheError Unit × Disk :=
  match d.makeFolders folder with
  | (.ok (), d) => (.ok (), d)
  | (.error fault, d) => (.error (.disk folder fault), d)

def writeFile (d : Disk) (p : Path) (content : ByteArray) : Except CacheError Unit × Disk :=
  match d.write p content with
  | .ok d => (.ok (), d)
  | .error fault => (.error (.disk p fault), d)

/-- Writes an artifact anywhere, with the folders above it. -/
def writeArtifact (d : Disk) (p : Path) (content : ByteArray) : Except CacheError Unit × Disk :=
  match p.parent with
  | none => writeFile d p content
  | some folder => match makeFolder d folder with
    | (.ok (), d) => writeFile d p content
    | (.error e, d) => (.error e, d)

def ensureFolder (c : ArtifactCache) (d : Disk) : Except CacheError Unit × Disk :=
  makeFolder d c.folder

def store (c : ArtifactCache) (d : Disk) (u : UnitId) (content : ByteArray) :
    Except CacheError Path × Disk :=
  match writeArtifact d (c.pathOf u) content with
  | (.ok (), d) => (.ok (c.pathOf u), d)
  | (.error e, d) => (.error e, d)

/-- Removes a file that may be missing; tells whether it was there. -/
def removeIfThere (d : Disk) (p : Path) : Except CacheError Bool × Disk :=
  match d.remove p with
  | .ok d => (.ok true, d)
  | .error .notFound => (.ok false, d)
  | .error fault => (.error (.disk p fault), d)

def invalidate (c : ArtifactCache) (d : Disk) (u : UnitId) : Except CacheError Bool × Disk :=
  removeIfThere d (c.pathOf u)

def contains (c : ArtifactCache) (d : Disk) (u : UnitId) : Bool := d.isFile (c.pathOf u)

def read (c : ArtifactCache) (d : Disk) (u : UnitId) : Option ByteArray :=
  (d.read (c.pathOf u)).toOption

def writeIgnoreList (c : ArtifactCache) (d : Disk) (l : IgnoreList) :
    Except CacheError Path × Disk :=
  match c.ensureFolder d with
  | (.error e, d) => (.error e, d)
  | (.ok (), d) => match writeFile d c.ignoreListPath l.render.toUTF8 with
    | (.ok (), d) => (.ok c.ignoreListPath, d)
    | (.error e, d) => (.error e, d)

def readIgnoreList (c : ArtifactCache) (d : Disk) : Option IgnoreList :=
  (d.readText c.ignoreListPath).toOption.map IgnoreList.parse

def files (c : ArtifactCache) (d : Disk) : List Disk.Listed :=
  d.filesWithExtension c.folder c.ending

/-- The names of all artifacts, in increasing order. -/
def list (c : ArtifactCache) (d : Disk) : List String :=
  ((c.files d).map fun file => Text.slashes (file.relative.withExtension "").text).mergeSort
    fun a b => a ≤ b

/-- Removes files in order, up to the first that cannot be removed. -/
def removeEach (d : Disk) : List Path → Except CacheError Unit × Disk
  | [] => (.ok (), d)
  | p :: rest => match d.remove p with
    | .ok d => removeEach d rest
    | .error fault => (.error (.disk p fault), d)

def removeEachIfThere (d : Disk) : List Path → Except CacheError Unit × Disk
  | [] => (.ok (), d)
  | p :: rest => match removeIfThere d p with
    | (.ok _, d) => removeEachIfThere d rest
    | (.error e, d) => (.error e, d)

/-- Removes every artifact, then the files beside them; says how many artifacts there were. -/
def clear (c : ArtifactCache) (d : Disk) : Except CacheError Nat × Disk :=
  let artifacts := c.files d
  match removeEach d (artifacts.map (·.path)) with
  | (.error e, d) => (.error e, d)
  | (.ok (), d) => match removeEachIfThere d [c.ignoreListPath, Manifest.pathIn c.folder] with
    | (.ok (), d) => (.ok artifacts.length, d)
    | (.error e, d) => (.error e, d)

end ArtifactCache
end LayerCache
