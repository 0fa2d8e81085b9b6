import LayerCache.Disk.Attributes
import LayerCache.Proofs.Contents

/-! The cache in use. Whatever is asked of it, one request after the other, it answers as a finite
map from logical names to contents would. Only `clear` ends in an error, after it has emptied the
map, where the files beside the artifacts cannot be reached. -/
namespace LayerCache

open Disk

namespace ArtifactCache

variable {c : ArtifactCache} {d d' : Disk} {m : Dict String ByteArray} {u : UnitId}

/-- The files that the cache keeps beside its artifacts. -/
def notes : List String := [IgnoreList.fileName, Manifest.fileName]

theorem isName_notes {name : String} (note : name ∈ notes) : IsName name := by
  rcases List.mem_pair.mp note with rfl | rfl
  · exact isName_ignoreList
  · exact isName_manifest

theorem short_notes : ∀ name ∈ notes, name.utf8ByteSize ≤ longestName := by decide

theorem map_notes (c : ArtifactCache) :
    notes.map c.folder.joinName = [c.ignoreListPath, Manifest.pathIn c.folder] := rfl

/-- Where a file beside the artifacts may lie. -/
def IsNote (c : ArtifactCache) (d : Disk) (place : Place) : Prop :=
  ∃ name ∈ notes, place = d.placeOf c.folder ++ [name]

/-- The folder of the cache is open, or it is not there. -/
def Stands (c : ArtifactCache) (d : Disk) : Prop :=
  d.isFolder c.folder = true ∨ d.stat c.folder = .error .notFound

/-- The other files of the cache can be reached if they are there. -/
structure Accessible (c : ArtifactCache) (d : Disk) : Prop where
  stands : c.Stands d
  short : ∀ name ∈ notes, checkText (c.folder.joinName name) = .ok ()

/-- The first of the other files that cannot be removed, and what its removal meets. -/
def Withstands (c : ArtifactCache) (d : Disk) (name : String) (fault : Fault) : Prop :=
  ∃ front back, notes = front ++ name :: back ∧
    (∀ other ∈ front, ∃ there, (removeIfThere d (c.folder.joinName other)).1 = .ok there) ∧
    d.remove (c.folder.joinName name) = .error fault ∧ fault ≠ .notFound

/-- The cache holds a map, and no folder stands where it keeps its other files or is made there on
the way to its own folder. -/
structure Serves (c : ArtifactCache) (d : Disk) (m : Dict String ByteArray) : Prop where
  holds : c.Holds d m
  filled : c.folder.text ≠ ""
  flat : ∀ place, c.IsNote d place → d.entryAt place ≠ some .folder
  apart : ∀ place, c.IsNote d place → place ∉ way (d.startOf c.folder) c.folder.names

/-- Where no file carries the extension the map is empty. -/
theorem holds_empty (sound : d.Sound) (plain : d.Plain c.folder)
    (none : ∀ names, Carries c.ending names → d.leafAt (d.placeOf c.folder ++ names) = none) :
    c.Holds d .empty where
  sound := sound
  plain := plain
  sorted := .empty
  stands _ _ kept := by cases kept
  only names carries stands := absurd (none names carries) stands

theorem Holds.leafAt_eq_none (holds : c.Holds d .empty) {names : List String}
    (carries : Carries c.ending names) : d.leafAt (d.placeOf c.folder ++ names) = none := by
  by_contra stands
  obtain ⟨logical, member, _⟩ := holds.only names carries stands
  cases member

theorem keeps_congr {within : Place → Prop} (change : Changes within d d') :
    c.Keeps d' = c.Keeps d := by
  funext place
  rw [Keeps, Keeps, change.placeOf]

theorem isNote_congr {within : Place → Prop} (change : Changes within d d') :
    c.IsNote d' = c.IsNote d := by
  funext place
  rw [IsNote, IsNote, change.placeOf]

theorem folder_of_removeIfThere {p : Path} {place : Place}
    (folder : (removeIfThere d p).2.entryAt place = some .folder) :
    d.entryAt place = some .folder := by
  simp only [removeIfThere] at folder
  split at folder
  · rename_i removed
    exact folder_of_remove removed folder
  · exact folder
  · exact folder

theorem removeIfThere_error {p : Path} {fault : Fault} (failed : d.remove p = .error fault)
    (other : fault ≠ .notFound) : removeIfThere d p = (.error (.disk p fault), d) := by
  cases fault with
  | notFound => exact absurd rfl other
  | _ => simp only [removeIfThere, failed]

/-- Removal fails with what the disk meets at the path itself, other than that nothing is there. -/
theorem remove_of_removeIfThere_error {p : Path} {e : CacheError}
    (failed : (removeIfThere d p).1 = .error e) :
    ∃ fault, d.remove p = .error fault ∧ fault ≠ .notFound ∧ e = .disk p fault := by
  simp only [removeIfThere] at failed
  split at failed
  · cases failed
  · cases failed
  · rename_i fault other removed
    cases failed
    exact ⟨fault, removed, other, rfl⟩

/-- An artifact cannot be stored for want of its folder or of the file itself. -/
theorem path_of_store_error {content : ByteArray} {e : CacheError}
    (failed : (c.store d u content).1 = .error e) :
    ∃ path fault, e = .disk path fault ∧
      (path = c.pathOf u ∨ (c.pathOf u).parent = some path) := by
  have written : ∀ {d : Disk} {p : Path} {e : CacheError},
      (writeFile d p content).1 = .error e → ∃ fault, e = .disk p fault := by
    intro d p e failed
    simp only [writeFile] at failed
    split at failed
    · cases failed
    · cases failed
      exact ⟨_, rfl⟩
  have artifact : (writeArtifact d (c.pathOf u) content).1 = .error e := by
    simp only [store] at failed
    split at failed
    · cases failed
    · rename_i ends
      rw [ends]
      cases failed
      rfl
  simp only [writeArtifact] at artifact
  split at artifact
  · obtain ⟨fault, rfl⟩ := written artifact
    exact ⟨_, fault, rfl, .inl rfl⟩
  · rename_i folder above
    split at artifact
    · obtain ⟨fault, rfl⟩ := written artifact
      exact ⟨_, fault, rfl, .inl rfl⟩
    · rename_i ends
      simp only [makeFolder] at ends
      split at ends
      · cases ends
      · cases ends
        cases artifact
        exact ⟨folder, _, rfl, .inr above⟩

theorem folder_of_store (bare : IsBare c.ending) (clean : u.Clean) (sound : d.Sound)
    (plain : d.Plain c.folder) {content : ByteArray} {place : Place}
    (folder : (c.store d u content).2.entryAt place = some .folder) :
    d.entryAt place = some .folder ∨ place ∈ way (d.startOf c.folder) c.folder.names ∨
      ∃ front, front ≠ [] ∧ front <+: u.segments.dropLast ∧
        place = d.placeOf c.folder ++ front := by
  have stored : (c.store d u content).2 = (writeArtifact d (c.pathOf u) content).2 := by
    rw [store]
    split
    · rename_i ends
      rw [ends]
    · rename_i ends
      rw [ends]
  have proper := clean.tidy.proper bare
  have whole : c.pathOf u = c.folder.join (relativePath (UnitId.fileNames c.ending u.segments)) :=
    clean.tidy.pathIn_eq bare c.folder
  rw [stored] at folder
  have clear := (plain_pathOf bare clean.tidy plain).way
  rcases folder_of_writeArtifact sound (fun place member =>
    clear place ((way_front (List.dropLast_prefix _) _).subset member)) folder with old | passed
  · exact .inl old
  · obtain ⟨front, last, cut, names⟩ := u.fileNames_eq c.ending
    have start : d.startOf (c.pathOf u) = d.startOf c.folder := by
      rw [whole, startOf, startOf, Path.isAbsolute_join (Path.relative_of_names proper)]
    rw [start, whole, Path.names_joinRelative proper, names, ← List.append_assoc,
      List.dropLast_concat, way_append, List.mem_append] at passed
    rcases passed with above | below
    · exact .inr (.inl above)
    · obtain ⟨before, filled, shorter, here⟩ := mem_way_proper
        (fun name member => proper name (by rw [names]; exact List.mem_append_left _ member)) below
      exact .inr (.inr ⟨before, filled, by rwa [cut, List.dropLast_concat], here⟩)

namespace Serves

/-- A change that leaves the map right and makes no folder in the place of the other files. -/
theorem of_change {m' : Dict String ByteArray} {within : Place → Prop} (serves : c.Serves d m)
    (change : Changes within d d') (holds : c.Holds d' m')
    (folders : ∀ place, c.IsNote d place → d'.entryAt place = some .folder →
      d.entryAt place = some .folder) : c.Serves d' m' where
  holds := holds
  filled := serves.filled
  flat place note there := by
    rw [isNote_congr change] at note
    exact serves.flat place note (folders place note there)
  apart place note := by
    rw [isNote_congr change] at note
    rw [change.startOf]
    exact serves.apart place note

/-- Where nothing is kept, removing files leaves it so. -/
theorem of_removals {within : Place → Prop} (serves : c.Serves d .empty)
    (change : Changes within d d') (removed : Removals d d')
    (folders : ∀ place, d'.entryAt place = some .folder → d.entryAt place = some .folder) :
    c.Serves d' .empty := by
  refine serves.of_change change (holds_empty removed.sound (change.plain serves.holds.plain) ?_)
    fun place _ => folders place
  intro names carries
  rw [change.placeOf]
  exact removed.absent (serves.holds.leafAt_eq_none carries)

theorem stored (bare : IsBare c.ending) (clean : u.Clean)
    (apart : ∀ name ∈ notes, u.segments.head? ≠ some name) (serves : c.Serves d m)
    {content : ByteArray} {m' : Dict String ByteArray} {within : Place → Prop}
    {result : Except CacheError Path} (stored : c.store d u content = (result, d'))
    (change : Changes within d d') (holds : c.Holds d' m') : c.Serves d' m' := by
  refine serves.of_change change holds fun place note folder => ?_
  have made : (c.store d u content).2.entryAt place = some .folder := by rwa [stored]
  rcases folder_of_store bare clean serves.holds.sound serves.holds.plain made with old | above | ⟨front, filled, ⟨rest, shorter⟩, here⟩
  · exact old
  · exact absurd above (serves.apart place note)
  · obtain ⟨name, known, same⟩ := note
    rw [same] at here
    have single := List.append_cancel_left here
    obtain ⟨before, last, cut, _⟩ := u.fileNames_eq c.ending
    refine absurd ?_ (apart name known)
    rw [cut, List.dropLast_concat] at shorter
    rw [cut, ← shorter, ← single]
    rfl

theorem invalidated (serves : c.Serves d m) {m' : Dict String ByteArray} {within : Place → Prop}
    {result : Except CacheError Bool} (done : c.invalidate d u = (result, d'))
    (change : Changes within d d') (holds : c.Holds d' m') : c.Serves d' m' := by
  refine serves.of_change change holds fun place _ folder => ?_
  have removed : (removeIfThere d (c.pathOf u)).2 = d' := congrArg Prod.snd done
  rw [← removed] at folder
  exact folder_of_removeIfThere folder

/-- The artifacts of units in the map are removed one after the other. -/
theorem removeEach_ok (bare : IsBare c.ending) {names : List String} (serves : c.Serves d m)
    (distinct : names.Nodup) (known : ∀ name ∈ names, name ∈ m.keys) :
    ∃ d', removeEach d (names.map fun name => c.pathOf (.ofLogical name)) = (.ok (), d') ∧
      c.Serves d' (names.foldl Dict.erase m) ∧ Changes (c.Keeps d) d d' := by
  induction names generalizing d m with
  | nil => exact ⟨d, rfl, serves, .refl serves.holds.sound⟩
  | cons name rest ih =>
    obtain ⟨content, kept⟩ := serves.holds.sorted.mem_keys.mp (known name (by simp))
    obtain ⟨clean, _⟩ := serves.holds.stands _ _ kept
    obtain ⟨after, removed, holds, change⟩ := serves.holds.removed bare clean kept
    have next := serves.of_change change holds fun place _ => folder_of_remove removed
    have others : ∀ other ∈ rest, other ∈ (m.erase name).keys := by
      intro other member
      obtain ⟨artifact, found⟩ := serves.holds.sorted.mem_keys.mp (known other (by simp [member]))
      refine (serves.holds.sorted.erase name).mem_keys.mpr ⟨artifact, ?_⟩
      rw [Dict.find?_erase_of_ne m, found]
      rintro rfl
      exact (List.nodup_cons.mp distinct).1 member
    obtain ⟨last, done, ends, later⟩ := ih next (List.nodup_cons.mp distinct).2 others
    rw [keeps_congr change] at later
    refine ⟨last, ?_, ends, change.trans later⟩
    simp only [List.map_cons, removeEach, removed, done]

/-- A file beside the artifacts that can be reached is removed if it is there. -/
theorem removeIfThere_ok (serves : c.Serves d m) {name : String} (note : name ∈ notes)
    (stands : c.Stands d) (short : checkText (c.folder.joinName name) = .ok ()) :
    ∃ there, (removeIfThere d (c.folder.joinName name)).1 = .ok there := by
  have proper := isName_notes note
  rcases stands with opened | missing
  · rcases remove_opened serves.holds.sound serves.holds.plain proper (short_notes name note) opened
      short (serves.flat _ ⟨name, note, rfl⟩) with removed | ⟨after, removed⟩
    · simp [removeIfThere, removed]
    · simp [removeIfThere, removed]
  · have removed : d.remove (c.folder.joinName name) = .error .notFound :=
      remove_missing serves.holds.plain proper serves.filled missing short
    simp [removeIfThere, removed]

/-- What can be removed is where it can be reached. -/
theorem reached_of_removeIfThere (serves : c.Serves d m) {name : String} (note : name ∈ notes)
    {there : Bool} (done : (removeIfThere d (c.folder.joinName name)).1 = .ok there) :
    c.Stands d ∧ checkText (c.folder.joinName name) = .ok () := by
  refine stands_of_remove serves.holds.plain (isName_notes note) serves.filled ?_
  simp only [removeIfThere] at done
  split at done
  · rename_i after removed
    exact .inr ⟨after, removed⟩
  · rename_i removed
    exact .inl removed
  · cases done

/-- A file beside the artifacts is removed, and a folder that stands still stands. -/
theorem removeIfThere_note (serves : c.Serves d .empty) {name : String} (note : name ∈ notes) :
    c.Serves (removeIfThere d (c.folder.joinName name)).2 .empty ∧
      Changes (c.IsNote d) d (removeIfThere d (c.folder.joinName name)).2 ∧
      (c.Stands d → checkText (c.folder.joinName name) = .ok () →
        c.Stands (removeIfThere d (c.folder.joinName name)).2) := by
  have sound := serves.holds.sound
  have proper := isName_notes note
  have plain := serves.holds.plain.joinName proper
  have change : Changes (c.IsNote d) d (removeIfThere d (c.folder.joinName name)).2 :=
    (changes_removeIfThere sound plain).mono fun place here =>
      ⟨name, note, by rw [here, placeOf_joinName proper]⟩
  refine ⟨serves.of_removals change (removals_removeIfThere sound plain) fun _ =>
    folder_of_removeIfThere, change, ?_⟩
  rintro (opened | missing) short
  · exact .inl (change.isFolder sound serves.holds.plain opened)
  · have removed : d.remove (c.folder.joinName name) = .error .notFound :=
      remove_missing serves.holds.plain proper serves.filled missing short
    simp only [removeIfThere, removed]
    exact .inr missing

theorem removeEachIfThere_notes {names : List String} (serves : c.Serves d .empty)
    (known : ∀ name ∈ names, name ∈ notes) (stands : c.Stands d) :
    c.Serves (removeEachIfThere d (names.map c.folder.joinName)).2 .empty ∧
      Changes (c.IsNote d) d (removeEachIfThere d (names.map c.folder.joinName)).2 ∧
      ((∀ name ∈ names, checkText (c.folder.joinName name) = .ok ()) ∧
          (removeEachIfThere d (names.map c.folder.joinName)).1 = .ok () ∨
        ∃ front name back fault, names = front ++ name :: back ∧
          (∀ other ∈ front, checkText (c.folder.joinName other) = .ok ()) ∧
          checkText (c.folder.joinName name) = .error fault ∧
          (removeEachIfThere d (names.map c.folder.joinName)).1 =
            .error (.disk (c.folder.joinName name) fault)) := by
  induction names generalizing d with
  | nil => exact ⟨serves, .refl serves.holds.sound, .inl ⟨by simp, rfl⟩⟩
  | cons name rest ih =>
    have note : name ∈ notes := known name (by simp)
    obtain ⟨next, change, stays⟩ := serves.removeIfThere_note note
    rcases short : checkText (c.folder.joinName name) with fault | _
    · have other : fault ≠ .notFound := by
        rintro rfl
        exact checkText_filled (filled_joinName (isName_notes note)) short
      have removed := removeIfThere_error (d := d) (remove_unchecked short) other
      rw [removed] at next change
      simp only [List.map_cons, removeEachIfThere, removed]
      exact ⟨next, change, .inr ⟨[], name, rest, fault, rfl, by simp, short, rfl⟩⟩
    · obtain ⟨there, ok⟩ := serves.removeIfThere_ok note stands short
      rcases removed : removeIfThere d (c.folder.joinName name) with ⟨_, after⟩
      rw [removed] at ok next change stays
      cases ok
      obtain ⟨last, later, ends⟩ :=
        ih next (fun other member => known other (by simp [member])) (stays stands short)
      rw [isNote_congr change] at later
      simp only [List.map_cons, removeEachIfThere, removed, List.forall_mem_cons, short, true_and]
      refine ⟨last, change.trans later, ends.imp_right ?_⟩
      rintro ⟨front, other, back, fault, rfl, before, long, failed⟩
      exact ⟨name :: front, other, back, fault, rfl, by simpa [short] using before, long, failed⟩

/-- Where the folder of the cache does not stand, the first of its other files withstands. -/
theorem withstands_first (serves : c.Serves d m) (closed : ¬ c.Stands d) :
    ∃ fault, c.Withstands d IgnoreList.fileName fault ∧
      removeIfThere d c.ignoreListPath = (.error (.disk c.ignoreListPath fault), d) := by
  have note : IgnoreList.fileName ∈ notes := by simp [notes]
  rcases removed : (removeIfThere d (c.folder.joinName IgnoreList.fileName)).1 with e | there
  · obtain ⟨fault, failed, other, rfl⟩ := remove_of_removeIfThere_error removed
    exact ⟨fault, ⟨[], [Manifest.fileName], rfl, by simp, failed, other⟩,
      removeIfThere_error failed other⟩
  · exact absurd (serves.reached_of_removeIfThere note removed).1 closed

/-- `clear` removes all artifacts. It says how many there were, exactly if the other files of the
cache can be reached, and else which of them it cannot remove. -/
theorem clear_empties (bare : IsBare c.ending) (serves : c.Serves d m) :
    c.Serves (c.clear d).2 .empty ∧
      Changes (fun place => c.Keeps d place ∨ c.IsNote d place) d (c.clear d).2 ∧
      (c.Accessible d ∧ (c.clear d).1 = .ok m.size ∨
        ¬ c.Accessible d ∧ ∃ name fault, c.Withstands d name fault ∧
          (c.clear d).1 = .error (.disk (c.folder.joinName name) fault)) := by
  have holds := serves.holds
  let names := (c.files d).map fun f => Text.slashes (f.relative.withExtension "").text
  have perm : names.Perm m.keys :=
    (List.mergeSort_perm names fun a b : String => a ≤ b).symm.trans
      (List.Perm.of_eq (holds.list_eq_keys bare serves.filled))
  have paths : (c.files d).map (·.path) = names.map fun name => c.pathOf (.ofLogical name) := by
    rw [List.map_map]
    refine List.map_congr_left fun f member => ?_
    obtain ⟨logical, _, path, same⟩ := holds.file_eq bare member
    rw [path, Function.comp, same]
  have count : (c.files d).length = m.size := by
    rw [← List.length_map fun f : Listed => Text.slashes (f.relative.withExtension "").text]
    exact perm.length_eq.trans (List.length_map _)
  have distinct : m.keys.Nodup := holds.sorted.imp String.ne_of_lt
  obtain ⟨after, removed, left, change⟩ := serves.removeEach_ok bare (perm.nodup_iff.mpr distinct)
    fun name member => perm.subset member
  have none : names.foldl Dict.erase m = .empty := by
    refine (holds.sorted.foldl_erase names).eq_empty fun key => ?_
    rw [Dict.find?_foldl_erase]
    split
    · rfl
    · rename_i other
      by_contra found
      obtain ⟨value, kept⟩ := Option.ne_none_iff_exists'.mp found
      exact other (perm.mem_iff.mpr (holds.sorted.mem_keys.mpr ⟨value, kept⟩))
  rw [none] at left
  have cleared : c.clear d = Prod.map (Except.map fun _ => m.size) id
      (removeEachIfThere after (notes.map c.folder.joinName)) := by
    simp only [clear, paths, removed, ← map_notes, count]
    rcases removeEachIfThere after (notes.map c.folder.joinName) with ⟨_ | _, _⟩
    all_goals rfl
  have wider : Changes (fun place => c.Keeps d place ∨ c.IsNote d place) d after :=
    change.mono fun _ => .inl
  have untouched : d.stat c.folder ≠ .ok (d.placeOf c.folder, .folder) → after = d := by
    intro closed
    have empty : names = [] := List.perm_nil.mp (holds.keys_eq_nil bare serves.filled closed ▸ perm)
    simp only [empty, List.map_nil, removeEach, Prod.mk.injEq, true_and] at removed
    exact removed.symm
  rw [cleared]
  by_cases stands : c.Stands d
  · have stays : c.Stands after := by
      by_cases opened : d.stat c.folder = .ok (d.placeOf c.folder, .folder)
      · exact .inl (change.isFolder holds.sound holds.plain (isFolder_iff.mpr ⟨_, opened⟩))
      · rwa [untouched opened]
    obtain ⟨last, later, ended⟩ := left.removeEachIfThere_notes (fun _ known => known) stays
    rw [isNote_congr change] at later
    refine ⟨last, wider.trans (later.mono fun _ => .inr), ended.imp ?_ ?_⟩
    · rintro ⟨short, ends⟩
      exact ⟨⟨stands, short⟩, by rw [Prod.map_fst, ends]; rfl⟩
    · rintro ⟨front, name, back, fault, order, before, long, ends⟩
      have note : name ∈ notes := order ▸ by simp
      refine ⟨fun reached => ?_, name, fault, ⟨front, back, order, fun other member => ?_,
        remove_unchecked long, ?_⟩, by rw [Prod.map_fst, ends]; rfl⟩
      · rw [reached.short name note] at long
        cases long
      · exact serves.removeIfThere_ok (order ▸ by simp [member]) stands (before other member)
      · rintro rfl
        exact checkText_filled (filled_joinName (isName_notes note)) long
  · obtain ⟨fault, withstands, failed⟩ := serves.withstands_first stands
    rw [untouched fun opened => stands (.inl (isFolder_iff.mpr ⟨_, opened⟩))] at left wider ⊢
    have ends : removeEachIfThere d (notes.map c.folder.joinName) =
        (.error (.disk c.ignoreListPath fault), d) := by
      simp only [map_notes, removeEachIfThere, failed]
    rw [ends]
    exact ⟨left, wider, .inr ⟨fun reached => stands reached.stands, _, fault, withstands, rfl⟩⟩

end Serves

/-- What can be asked of the cache. Units are named by the symbols that refer to them. -/
inductive Request where
  | store (symbol : String) (content : ByteArray)
  | invalidate (symbol : String)
  | contains (symbol : String)
  | read (symbol : String)
  | list
  | clear

section

local instance (priority := 2000) byteArrayEq : DecidableEq ByteArray := ByteArray.instDecidableEq

inductive Answer where
  | stored (result : Except CacheError Path)
  | invalidated (result : Except CacheError Bool)
  | contained (there : Bool)
  | content (found : Option ByteArray)
  | listed (names : List String)
  | cleared (result : Except CacheError Nat)
  deriving DecidableEq

end

def Request.symbol? : Request → Option String
  | store symbol _ | invalidate symbol | contains symbol | read symbol => some symbol
  | list | clear => none

/-- A request is for a unit with a name, and not for one below a file of the cache. -/
def Request.Fits (r : Request) : Prop :=
  ∀ symbol, r.symbol? = some symbol → (UnitId.ofSymbol symbol).isEmpty = false ∧
    ∀ name ∈ notes, (UnitId.ofSymbol symbol).segments.head? ≠ some name

def perform (c : ArtifactCache) (d : Disk) : Request → Answer × Disk
  | .store symbol content => (c.store d (.ofSymbol symbol) content).map .stored id
  | .invalidate symbol => (c.invalidate d (.ofSymbol symbol)).map .invalidated id
  | .contains symbol => (.contained (c.contains d (.ofSymbol symbol)), d)
  | .read symbol => (.content (c.read d (.ofSymbol symbol)), d)
  | .list => (.listed (c.list d), d)
  | .clear => (c.clear d).map .cleared id

/-- The answers to some requests, and the disk after the last. -/
def performAll (c : ArtifactCache) (d : Disk) : List Request → List Answer × Disk
  | [] => ([], d)
  | r :: rest =>
    let (answer, d) := c.perform d r
    (c.performAll d rest).map (answer :: ·) id

theorem performAll_append (c : ArtifactCache) (d : Disk) (front back : List Request) :
    (c.performAll d (front ++ back)).1 =
      (c.performAll d front).1 ++ (c.performAll (c.performAll d front).2 back).1 := by
  induction front generalizing d with
  | nil => rfl
  | cons r rest ih =>
    simp only [List.cons_append, performAll, Prod.map_fst, Prod.map_snd, id_eq, ih]

/-- What a map of contents by logical names answers, and what becomes of it. -/
inductive Answers (c : ArtifactCache) (d : Disk) (m : Dict String ByteArray) :
    Request → Answer → Dict String ByteArray → Prop
  | stored (symbol content) : Answers c d m (.store symbol content)
      (.stored (.ok (c.pathOf (.ofSymbol symbol)))) (m.insert (UnitId.ofSymbol symbol).logical content)
  | refused (symbol content path fault) (place : path = c.pathOf (.ofSymbol symbol) ∨
        (c.pathOf (.ofSymbol symbol)).parent = some path) :
      Answers c d m (.store symbol content) (.stored (.error (.disk path fault))) m
  | invalidated (symbol) : Answers c d m (.invalidate symbol)
      (.invalidated (.ok (m.contains (UnitId.ofSymbol symbol).logical)))
      (m.erase (UnitId.ofSymbol symbol).logical)
  | missed (symbol fault) (missing : m.contains (UnitId.ofSymbol symbol).logical = false)
      (failed : d.remove (c.pathOf (.ofSymbol symbol)) = .error fault) :
      Answers c d m (.invalidate symbol)
        (.invalidated (.error (.disk (c.pathOf (.ofSymbol symbol)) fault))) m
  | contained (symbol) : Answers c d m (.contains symbol)
      (.contained (m.contains (UnitId.ofSymbol symbol).logical)) m
  | read (symbol) : Answers c d m (.read symbol)
      (.content (m.find? (UnitId.ofSymbol symbol).logical)) m
  | listed (names) (sorted : names.Pairwise (· < ·))
      (all : ∀ key, key ∈ names ↔ m.contains key = true) : Answers c d m .list (.listed names) m
  | cleared (reached : c.Accessible d) : Answers c d m .clear (.cleared (.ok m.size)) .empty
  | stuck (name fault) (closed : ¬ c.Accessible d) (first : c.Withstands d name fault) :
      Answers c d m .clear (.cleared (.error (.disk (c.folder.joinName name) fault))) .empty

/-- The answers to requests in a row, and what becomes of the map. -/
inductive AnswersAll (c : ArtifactCache) : Disk → Dict String ByteArray → List Request →
    List Answer → Dict String ByteArray → Prop
  | none (d : Disk) (m : Dict String ByteArray) : AnswersAll c d m [] [] m
  | next {d : Disk} {m m' m'' : Dict String ByteArray} {r : Request} {rest : List Request}
      {answer : Answer} {answers : List Answer} (first : Answers c d m r answer m')
      (others : AnswersAll c (c.perform d r).2 m' rest answers m'') :
      AnswersAll c d m (r :: rest) (answer :: answers) m''

/-- Where a cache leaves its traces. -/
def Touches (c : ArtifactCache) (d : Disk) (place : Place) : Prop :=
  c.Keeps d place ∨ c.IsNote d place

theorem touches_congr {within : Place → Prop} (change : Changes within d d') :
    c.Touches d' = c.Touches d := by
  funext place
  rw [Touches, Touches, keeps_congr change, isNote_congr change]

theorem clean_of_fits {r : Request} (fits : r.Fits) {symbol : String}
    (named : r.symbol? = some symbol) : (UnitId.ofSymbol symbol).Clean :=
  ⟨fun _ => UnitId.isName_of_ofSymbol (fits symbol named).1, UnitId.straight_ofLogical _ _⟩

/-- One request is answered from the map. -/
theorem Serves.perform (bare : IsBare c.ending) (serves : c.Serves d m) {r : Request}
    (fits : r.Fits) : ∃ m', Answers c d m r (c.perform d r).1 m' ∧
      c.Serves (c.perform d r).2 m' ∧ Changes (c.Touches d) d (c.perform d r).2 := by
  have holds := serves.holds
  have wider : ∀ {d'}, Changes (c.Keeps d) d d' → Changes (c.Touches d) d d' :=
    fun change => change.mono fun _ => .inl
  have same : Changes (c.Touches d) d d := .refl holds.sound
  cases r with
  | store symbol content =>
    have clean := clean_of_fits fits rfl
    have apart := (fits symbol rfl).2
    rcases stored : c.store d (.ofSymbol symbol) content with ⟨e | p, after⟩
    · obtain ⟨left, change⟩ := holds.store_error bare clean stored
      obtain ⟨path, fault, rfl, place⟩ := path_of_store_error (congrArg Prod.fst stored)
      simp only [ArtifactCache.perform, stored]
      exact ⟨m, .refused _ _ _ _ place, serves.stored bare clean apart stored change left, wider change⟩
    · obtain ⟨path, left, change⟩ := holds.store_ok bare clean stored
      simp only [ArtifactCache.perform, stored, path]
      exact ⟨_, .stored _ _, serves.stored bare clean apart stored change left, wider change⟩
  | invalidate symbol =>
    have clean := clean_of_fits fits rfl
    rcases done : c.invalidate d (.ofSymbol symbol) with ⟨e | there, after⟩
    · obtain ⟨missing, rfl⟩ := holds.invalidate_error bare clean done
      obtain ⟨fault, failed, _, rfl⟩ := remove_of_removeIfThere_error (congrArg Prod.fst done)
      simp only [ArtifactCache.perform, done]
      exact ⟨m, .missed _ _ missing failed, serves, same⟩
    · obtain ⟨rfl, left, change⟩ := holds.invalidate_ok bare clean done
      simp only [ArtifactCache.perform, done]
      refine ⟨_, .invalidated _, serves.invalidated done change left, wider change⟩
  | contains symbol =>
    have clean := clean_of_fits fits rfl
    refine ⟨m, ?_, serves, same⟩
    rw [ArtifactCache.perform, holds.contains_eq bare clean]
    exact .contained symbol
  | read symbol =>
    have clean := clean_of_fits fits rfl
    refine ⟨m, ?_, serves, same⟩
    rw [ArtifactCache.perform, holds.read_eq bare clean]
    exact .read symbol
  | list =>
    refine ⟨m, ?_, serves, same⟩
    rw [ArtifactCache.perform, holds.list_eq_keys bare serves.filled]
    exact .listed _ holds.sorted fun key => by
      rw [holds.sorted.mem_keys, Dict.contains, Option.isSome_iff_exists]
  | clear =>
    obtain ⟨left, change, ended⟩ := serves.clear_empties bare
    have after : (c.perform d .clear).2 = (c.clear d).2 := by rw [ArtifactCache.perform, Prod.map_snd, id]
    rw [after]
    refine ⟨.empty, ?_, left, change⟩
    rcases ended with ⟨reached, ok⟩ | ⟨closed, name, fault, first, failed⟩
    · simp only [ArtifactCache.perform, Prod.map, ok]
      exact .cleared reached
    · simp only [ArtifactCache.perform, Prod.map, failed]
      exact .stuck name fault closed first

/-- So are requests in a row. -/
theorem Serves.performAll (bare : IsBare c.ending) {requests : List Request}
    (serves : c.Serves d m) (fits : ∀ r ∈ requests, r.Fits) :
    ∃ m', AnswersAll c d m requests (c.performAll d requests).1 m' ∧
      c.Serves (c.performAll d requests).2 m' ∧
      Changes (c.Touches d) d (c.performAll d requests).2 := by
  induction requests generalizing d m with
  | nil => exact ⟨m, .none d m, serves, .refl serves.holds.sound⟩
  | cons r rest ih =>
    obtain ⟨m', first, next, change⟩ := serves.perform bare (fits r (by simp))
    obtain ⟨m'', others, last, later⟩ := ih next fun other member => fits other (by simp [member])
    rw [touches_congr change] at later
    exact ⟨m'', .next first others, last, change.trans later⟩

/-- From a disk without artifacts all requests are answered as by a map that is empty at first. -/
theorem performAll_answers {requests : List Request} (bare : IsBare c.ending)
    (filled : c.folder.text ≠ "") (sound : d.Sound) (plain : d.Plain c.folder)
    (none : ∀ names, Carries c.ending names → d.leafAt (d.placeOf c.folder ++ names) = none)
    (flat : ∀ place, c.IsNote d place → d.entryAt place ≠ some .folder)
    (apart : ∀ place, c.IsNote d place → place ∉ way (d.startOf c.folder) c.folder.names)
    (fits : ∀ r ∈ requests, r.Fits) :
    ∃ m, AnswersAll c d .empty requests (c.performAll d requests).1 m ∧
      c.Holds (c.performAll d requests).2 m ∧
      ∀ place, ¬ c.Touches d place → (c.performAll d requests).2.leafAt place = d.leafAt place := by
  have serves : c.Serves d .empty := ⟨holds_empty sound plain none, filled, flat, apart⟩
  obtain ⟨m, answers, last, change⟩ := serves.performAll bare fits
  exact ⟨m, answers, last.holds, fun place elsewhere => (change.leaves place).resolve_right elsewhere⟩

/-- Artifacts can be looked for among all entries. -/
theorem leafAt_none_of_entries {ending : String} (sound : d.Sound)
    (other : ∀ pair ∈ d.entries.pairs, (relativePath pair.1).hasExtension ending = false)
    (front names : List String) (carries : Carries ending names) : d.leafAt (front ++ names) = none := by
  by_contra stands
  obtain ⟨entry, leaf⟩ := Option.ne_none_iff_exists'.mp stands
  have there : d.entryAt (front ++ names) = some entry := by
    simp only [leafAt] at leaf
    split at leaf
    · cases leaf
    · exact leaf
  have proper := sound.names (there ▸ Option.some_ne_none entry)
  have member := (sound.mem_pairs (by simp [carries.filled])).mpr there
  have ends := (hasExtension_relativePath proper).mpr (carries.append proper)
  rw [other _ member] at ends
  cases ends

def shelf : ArtifactCache := ⟨⟨"/out"⟩, "phb"⟩

def shelfFiles : List (String × String) := [("/src/A.php", "a"), ("/out/.cacheignore", "A.php")]

/-- `A.phb` is no artifact but a unit of its own, and `A/B` is below the file of none. -/
def shelfRequests : List Request := [.store "A" "a".toUTF8, .store "A.phb" "b".toUTF8,
  .store "A.phb/B" "c".toUTF8, .invalidate "a", .list, .clear]

def shelfAnswers : List Answer := [.stored (.ok ⟨"/out/A.phb"⟩), .stored (.ok ⟨"/out/A.phb.phb"⟩),
  .stored (.error (.disk ⟨"/out/A.phb"⟩ .exists)), .invalidated (.ok false),
  .listed ["A", "A.phb"], .cleared (.ok 2)]

theorem performAll_answers_shelf : ∃ m,
    AnswersAll shelf (.ofFiles shelfFiles) .empty shelfRequests shelfAnswers m ∧
    shelf.Holds (shelf.performAll (.ofFiles shelfFiles) shelfRequests).2 m ∧
    ∀ place, ¬ shelf.Touches (.ofFiles shelfFiles) place →
      (shelf.performAll (.ofFiles shelfFiles) shelfRequests).2.leafAt place =
        (Disk.ofFiles shelfFiles).leafAt place := by
  have sound : (Disk.ofFiles shelfFiles).Sound := (changes_ofFiles shelfFiles).sound
  have other : ∀ pair ∈ (Disk.ofFiles shelfFiles).entries.pairs,
      (relativePath pair.1).hasExtension shelf.ending = false := by decide +kernel
  have answers : (shelf.performAll (.ofFiles shelfFiles) shelfRequests).1 = shelfAnswers := by
    have front : (shelf.performAll (.ofFiles shelfFiles) (shelfRequests.take 4)).1 =
        shelfAnswers.take 4 := by decide +kernel
    have names : (shelf.files
        (shelf.performAll (.ofFiles shelfFiles) (shelfRequests.take 4)).2).map (fun file =>
          Text.slashes (file.relative.withExtension "").text) = ["A", "A.phb"] := by decide +kernel
    have cleared : (shelf.clear
        (shelf.performAll (.ofFiles shelfFiles) (shelfRequests.take 4)).2).1 = .ok 2 := by
      decide +kernel
    rw [show shelfRequests = shelfRequests.take 4 ++ [.list, .clear] from rfl, performAll_append,
      front]
    generalize (shelf.performAll (.ofFiles shelfFiles) (shelfRequests.take 4)).2 = kept
      at names cleared ⊢
    have listed : shelf.list kept = ["A", "A.phb"] := by
      rw [ArtifactCache.list, names]
      exact List.mergeSort_of_pairwise (by decide +kernel)
    simp only [performAll, perform, Prod.map_fst, listed, cleared]
    rfl
  rw [← answers]
  refine performAll_answers (by constructor <;> decide) (by decide) sound
    (plain_ofFiles shelfFiles _) (leafAt_none_of_entries sound other _) ?_ ?_ ?_
  · rintro place ⟨name, note, rfl⟩ folder
    have none : ∀ name ∈ notes, ((Disk.ofFiles shelfFiles).entryAt
        ((Disk.ofFiles shelfFiles).placeOf shelf.folder ++ [name])).any Entry.isFolder = false := by
      decide +kernel
    simpa [folder, Entry.isFolder] using none name note
  · rintro place ⟨name, note, rfl⟩
    have apart : ∀ name ∈ notes, (Disk.ofFiles shelfFiles).placeOf shelf.folder ++ [name] ∉
        way ((Disk.ofFiles shelfFiles).startOf shelf.folder) shelf.folder.names := by
      decide +kernel
    exact apart name note
  · have fits : ∀ r ∈ shelfRequests, ∀ symbol ∈ r.symbol?,
        (UnitId.ofSymbol symbol).isEmpty = false ∧
          ∀ name ∈ notes, (UnitId.ofSymbol symbol).segments.head? ≠ some name := by
      decide +kernel
    exact fun r member symbol named => fits r member symbol named

/-- A file in place of the folder makes `clear` fail, and so does a folder that is made where the
ignore list belongs. In no folder at all, or under an extension with a dot, nothing is listed. -/
theorem performAll_differs :
    (performAll ⟨⟨"/f"⟩, "phb"⟩ (.ofFiles [("/f", "file")]) [.clear]).1 =
      [.cleared (.error (.disk ⟨"/f/.cacheignore"⟩ .notFolder))] ∧
    (performAll ⟨⟨"/x/.cacheignore/.."⟩, "phb"⟩ .empty [.store "A" .empty, .clear]).1 =
      [.stored (.ok ⟨"/x/.cacheignore/../A.phb"⟩),
        .cleared (.error (.disk ⟨"/x/.cacheignore/../.cacheignore"⟩ .isFolder))] ∧
    (performAll ⟨⟨""⟩, "phb"⟩ .empty [.store "A" .empty, .list]).1 =
      [.stored (.ok ⟨"A.phb"⟩), .listed []] ∧
    (performAll ⟨⟨"/c"⟩, "tar.gz"⟩ .empty [.store "A" .empty, .list]).1 =
      [.stored (.ok ⟨"/c/A.tar.gz"⟩), .listed []] := by
  refine ⟨?_, ?_, ?_, ?_⟩
  · decide +kernel
  · decide +kernel
  · decide +kernel
  · decide +kernel

end ArtifactCache
end LayerCache
