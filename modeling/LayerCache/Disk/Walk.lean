import LayerCache.Disk.Basic

/-! What lies in and under a folder. The folder itself may be reached through a link; links below
it are entries like any other and are not entered. -/
namespace LayerCache.Disk

/-- Everything under a place with its names from there, in walk order. -/
def below (d : Disk) (place : Place) : List (Place × Entry) :=
  d.entries.pairs.filterMap fun (k, entry) =>
    if place.isPrefixOf k && k ≠ place then some (k.drop place.length, entry) else none

/-- The names in a folder, in order. -/
def list (d : Disk) (p : Path) : Except Fault (List String) :=
  match d.stat p with
  | .ok (place, .folder) => .ok ((d.below place).filterMap fun
    | ([name], _) => some name
    | _ => none)
  | .ok _ => .error .notFolder
  | .error fault => .error fault

/-- The regular files under a folder, by their names from it; none if there is no folder. -/
def filesUnder (d : Disk) (p : Path) : List Place :=
  match d.stat p with
  | .ok (place, .folder) => (d.below place).filterMap fun
    | (names, .file _ _) | (names, .program _) => some names
    | _ => none
  | _ => []

/-- A file below a folder: its path through the folder's own text, and its path from the folder. -/
structure Listed where
  path : Path
  relative : Path
  deriving DecidableEq

def relativePath (names : Place) : Path := ⟨Text.join "/" names⟩

def listed (folder : Path) (names : Place) : Listed :=
  ⟨folder.join (relativePath names), relativePath names⟩

/-- The files under a folder whose names carry an extension, in any case. -/
def filesWithExtension (d : Disk) (folder : Path) (ending : String) : List Listed :=
  ((d.filesUnder folder).map (listed folder)).filter fun file => file.relative.hasExtension ending

/-- The current content of the file with a serial number, if it has not been removed. -/
def contentOf (d : Disk) (serial : Nat) : Option ByteArray :=
  d.entries.pairs.findSome? fun
    | (_, .file s content) => if s = serial then some content else none
    | _ => none

theorem mem_below {d : Disk} {place names : Place} {entry : Entry} :
    (names, entry) ∈ d.below place ↔ names ≠ [] ∧ (place ++ names, entry) ∈ d.entries.pairs := by
  simp only [below, List.mem_filterMap, Option.ite_none_right_eq_some, Bool.and_eq_true,
    List.isPrefixOf_iff_prefix, decide_eq_true_eq, ne_eq, Option.some.injEq, Prod.mk.injEq]
  constructor
  · rintro ⟨⟨k, e⟩, hk, ⟨⟨t, rfl⟩, hne⟩, h, rfl⟩
    simp only [List.drop_left] at h
    subst h
    exact ⟨by simpa using hne, hk⟩
  · rintro ⟨hne, h⟩
    exact ⟨_, h, ⟨⟨names, rfl⟩, by simpa using hne⟩, by simp, rfl⟩

end LayerCache.Disk
