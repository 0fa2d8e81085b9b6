import LayerCache.Disk.Walk
import LayerCache.Text.Ascii
import LayerCache.UnitId

/-! Sources in layers: an ordered list of root folders. A unit that several of them hold is the
one of the first. -/
namespace LayerCache

structure SourceRoot where
  path : Path
  /-- Its place in the order; the lower wins. -/
  rank : Nat
  generated : Bool
  deriving DecidableEq

/-- A source file and the unit it holds. -/
structure SourceFile where
  rank : Nat
  path : Path
  /-- Its path from the root, in the case it has on disk. -/
  relative : Path
  unit : UnitId

structure Roots where
  roots : List SourceRoot
  ending : String

namespace Roots

/-- The folder of generated sources, if there is one, comes before all others. -/
def ofPaths (generated : Option Path) (others : List Path) (ending : String) : Roots :=
  let paths := (generated.map (·, true)).toList ++ others.map (·, false)
  ⟨paths.zipIdx.map fun ((path, generated), rank) => ⟨path, rank, generated⟩, ending⟩

/-- Goes down by names in any case, at each step to the least of the names that match. -/
def descend (d : Disk) (folder : Path) : List String → Option (List String)
  | [] => if d.isFile folder then some [] else none
  | wanted :: rest =>
    match d.list folder with
    | .error _ => none
    | .ok names => match names.find? fun name => Text.sameIgnoringCase name wanted with
      | none => none
      | some name => (descend d (folder.joinName name) rest).map (name :: ·)

/-- The names of the unit's file from a root: as spelled, or else in any case. -/
def namesIn (r : Roots) (d : Disk) (u : UnitId) (root : SourceRoot) : Option (List String) :=
  if d.isFile (u.pathIn root.path r.ending) then some (UnitId.fileNames r.ending u.segments)
  else descend d root.path (UnitId.fileNames r.ending u.segments)

def fileAt (r : Roots) (root : SourceRoot) (file : Disk.Listed) : SourceFile :=
  ⟨root.rank, file.path, file.relative, .ofRelative file.relative r.ending⟩

/-- The file of a unit in the first root that has one. -/
def resolve (r : Roots) (d : Disk) (u : UnitId) : Option SourceFile :=
  if u.isEmpty then none
  else r.roots.findSome? fun root =>
    (r.namesIn d u root).map fun names =>
      r.fileAt root ⟨names.foldl Path.joinName root.path, Disk.relativePath names⟩

/-- Every source file under a root, in walk order. -/
def sweep (r : Roots) (d : Disk) (root : SourceRoot) : List SourceFile :=
  (d.filesWithExtension root.path r.ending).map (r.fileAt root)

end Roots
end LayerCache
