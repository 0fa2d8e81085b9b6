import LayerCache.Disk.Edit
import LayerCache.Disk.Fault
import LayerCache.Json.Basic
import LayerCache.Json.Reader
import LayerCache.Path

/-! Why an operation on the cache failed. -/
namespace LayerCache

inductive CacheError where
  | disk (path : Path) (fault : Fault)
  | badManifest
  deriving DecidableEq

def CacheError.message : CacheError → String
  | disk path fault => "cache I/O error at " ++ path.text ++ ": " ++ fault.message
  | badManifest => "failed to parse build manifest"

end LayerCache

/-! The record of what lies in the cache after a build, by logical name. It is kept for other
tools; no build reads it to skip work. -/
namespace LayerCache

inductive OriginKind where
  | root
  | archive
  deriving DecidableEq, Repr

namespace OriginKind

def name : OriginKind → String
  | root => "root"
  | archive => "archive"

def ofName? : String → Option OriginKind
  | "root" => some root
  | "archive" => some archive
  | _ => none

theorem ofName?_name (k : OriginKind) : ofName? k.name = some k := by cases k <;> rfl

end OriginKind

structure ArtifactRecord where
  origin : OriginKind
  source : String
  checksum : Digest
  deriving DecidableEq

structure Manifest where
  version : String
  env : Environment
  units : Dict String ArtifactRecord
  deriving DecidableEq

namespace Manifest

def fileName : String := ".strata-manifest.json"

def new (version : String) (env : Environment) : Manifest := ⟨version, env, .empty⟩

def record (m : Manifest) (logical : String) (r : ArtifactRecord) : Manifest :=
  { m with units := m.units.insert logical r }

/-- Takes over a record that is missing here and that `keep` accepts. -/
def carry (keep : String → ArtifactRecord → Bool) (m : Manifest) :
    String × ArtifactRecord → Manifest
  | (logical, r) => if m.units.contains logical || !keep logical r then m else m.record logical r

/-- Records of artifacts that were left in place stay; also says how many. -/
def carryOver (m previous : Manifest) (keep : String → ArtifactRecord → Bool) : Nat × Manifest :=
  let kept := previous.units.pairs.foldl (carry keep) m
  (kept.units.size - m.units.size, kept)

/-! The written form. -/

def renderText (s : String) : List Char := Json.quote s

def renderDigest (depth : Nat) (d : Digest) : List Char :=
  Json.writeArray depth (d.toList.map fun b => (toString b.toNat).toList)

def renderRecord (depth : Nat) (r : ArtifactRecord) : List Char :=
  Json.writeObject depth [
    Json.field "origin" (renderText r.origin.name),
    Json.field "source" (renderText r.source),
    Json.field "checksum" (renderDigest (depth + 1) r.checksum)]

def render (m : Manifest) : String :=
  String.ofList (Json.writeObject 0 [
    Json.field "strata_version" (renderText m.version),
    Json.field "env" (renderText m.env.name),
    Json.field "units" (Json.writeObject 1 (m.units.pairs.map fun (logical, r) =>
      Json.field logical (renderRecord 2 r)))])

/-! Reading it back. -/

def recordOfJson? (json : Json) : Option ArtifactRecord := do
  match ← json.record? ["origin", "source", "checksum"] with
  | [origin, source, checksum] =>
    return ⟨← OriginKind.ofName? (← origin.constant?), ← source.text?, ← Digest.ofJson? checksum⟩
  | _ => none

def ofJson? (json : Json) : Option Manifest := do
  match ← json.record? ["strata_version", "env", "units"] with
  | [version, env, units] =>
    return ⟨← version.text?, ← Environment.ofJson? env, ← Json.dict? recordOfJson? units⟩
  | _ => none

def parse (text : String) : Option Manifest := do ofJson? (← Json.parse text)

def pathIn (folder : Path) : Path := folder.joinName fileName

/-- Nothing if no manifest has been written. -/
def load (d : Disk) (folder : Path) : Except CacheError (Option Manifest) :=
  match d.readText (pathIn folder) with
  | .ok text => match parse text with
    | some m => .ok (some m)
    | none => .error .badManifest
  | .error .notFound => .ok none
  | .error fault => .error (.disk (pathIn folder) fault)

def save (m : Manifest) (d : Disk) (folder : Path) : Except CacheError Unit × Disk :=
  match d.makeFolders folder with
  | (.error fault, d) => (.error (.disk folder fault), d)
  | (.ok (), d) => match d.write (pathIn folder) m.render.toUTF8 with
    | .ok d => (.ok (), d)
    | .error fault => (.error (.disk (pathIn folder) fault), d)

end Manifest
end LayerCache
