import LayerCache.Proofs.Build.Records
import LayerCache.Proofs.Folders
import LayerCache.Proofs.Removal

/-! The cache as a map. Artifacts are files, yet to whoever stores, invalidates, reads and lists them
they are contents under logical names: no name is the file of another, a file leads back to its
name, and an operation that fails leaves all contents as they were. -/
namespace LayerCache

open Disk

namespace ArtifactCache

variable {c : ArtifactCache} {d d' : Disk} {m : Dict String ByteArray} {u v : UnitId}

/-- The artifacts on a disk are those of a map: each is found where its name leads, and under the
folder of the cache no other file carries the extension. -/
structure Holds (c : ArtifactCache) (d : Disk) (m : Dict String ByteArray) : Prop where
  sound : d.Sound
  plain : d.Plain c.folder
  sorted : m.Sorted
  stands : ∀ logical content, m.find? logical = some content →
    (UnitId.ofLogical logical).Clean ∧ ∃ serial, d.stat (c.pathOf (.ofLogical logical)) =
      .ok (c.placeFor d (.ofLogical logical), .file serial content)
  only : ∀ names, Carries c.ending names → d.leafAt (d.placeOf c.folder ++ names) ≠ none →
    ∃ logical ∈ m.keys, names = UnitId.fileNames c.ending (UnitId.ofLogical logical).segments

/-- Where an artifact may lie. -/
def Keeps (c : ArtifactCache) (d : Disk) (place : Place) : Prop :=
  ∃ names, Carries c.ending names ∧ place = d.placeOf c.folder ++ names

theorem keeps_placeFor (bare : IsBare c.ending) (clean : u.Clean) (d : Disk) :
    c.Keeps d (c.placeFor d u) := ⟨_, clean.carries bare, rfl⟩

theorem pathOf_eq (bare : IsBare c.ending) (clean : u.Clean) :
    ∃ front name, (∀ n ∈ front ++ [name], IsName n) ∧
      UnitId.fileNames c.ending u.segments = front ++ [name] ∧
      c.pathOf u = (front.foldl Path.joinName c.folder).joinName name := by
  obtain ⟨front, last, _, names⟩ := u.fileNames_eq c.ending
  have proper := clean.tidy.proper bare
  refine ⟨front, last ++ "." ++ c.ending, by rwa [names] at proper, names, ?_⟩
  rw [pathOf, clean.tidy.pathIn_eq bare, names, Path.joinRelative_concat (by rwa [names] at proper)]

/-- A folder that an artifact is found in can be opened. -/
theorem opened_of_stat (bare : IsBare c.ending) (clean : u.Clean) (plain : d.Plain c.folder)
    (filled : c.folder.text ≠ "") {place : Place} {entry : Entry}
    (found : d.stat (c.pathOf u) = .ok (place, entry)) :
    d.stat c.folder = .ok (d.placeOf c.folder, .folder) := by
  obtain ⟨front, name, proper, _, path⟩ := pathOf_eq bare clean
  have whole : c.pathOf u = ([] ++ (front ++ [name])).foldl Path.joinName c.folder := by
    simp [path]
  rw [whole] at found
  have here : d.stat (List.foldl Path.joinName c.folder []) =
      .ok (d.placeOf c.folder ++ [], .folder) :=
    stat_of_joinNames (by simp) plain proper filled found
  simpa using here

namespace Holds

variable (holds : c.Holds d m)
include holds

/-- What stands in the place of a unit is in the map. -/
theorem find?_of_leaf (bare : IsBare c.ending) (clean : u.Clean)
    (stands : d.leafAt (c.placeFor d u) ≠ none) : ∃ content, m.find? u.logical = some content := by
  obtain ⟨logical, known, names⟩ := holds.only _ (clean.carries bare) stands
  have same : u.logical = logical := UnitId.logical_of_fileNames names
  exact same ▸ holds.sorted.mem_keys.mp known

/-- What is found where the name of a unit leads is what the map holds under that name. -/
theorem find?_of_stat (bare : IsBare c.ending) (clean : u.Clean) {place : Place} {entry : Entry}
    (found : d.stat (c.pathOf u) = .ok (place, entry)) (leaf : entry ≠ .folder) :
    ∃ serial content, entry = .file serial content ∧ m.find? u.logical = some content := by
  have there := stat_entry holds.sound found
  rw [stat_place (plain_pathOf bare clean.tidy holds.plain) found,
    placeOf_pathOf bare clean.tidy] at there
  have stands : d.leafAt (c.placeFor d u) ≠ none := by
    rw [(leafAt_eq_some leaf).mpr there]
    simp
  obtain ⟨content, kept⟩ := holds.find?_of_leaf bare clean stands
  obtain ⟨_, serial, stat⟩ := holds.stands _ _ kept
  rw [UnitId.ofLogical_logical, found] at stat
  exact ⟨serial, content, (Prod.mk.inj (Except.ok.inj stat)).2, kept⟩

theorem stat_of_find? {content : ByteArray} (found : m.find? u.logical = some content) :
    ∃ serial, d.stat (c.pathOf u) = .ok (c.placeFor d u, .file serial content) := by
  obtain ⟨_, stands⟩ := holds.stands _ _ found
  rwa [UnitId.ofLogical_logical] at stands

theorem contains_eq (bare : IsBare c.ending) (clean : u.Clean) :
    c.contains d u = m.contains u.logical := by
  rw [Bool.eq_iff_iff, Dict.contains, Option.isSome_iff_exists]
  constructor
  · intro file
    simp only [contains, isFile] at file
    split at file
    · rename_i found
      obtain ⟨_, content, _, kept⟩ := holds.find?_of_stat bare clean found (by simp)
      exact ⟨content, kept⟩
    · rename_i found
      obtain ⟨_, content, _, kept⟩ := holds.find?_of_stat bare clean found (by simp)
      exact ⟨content, kept⟩
    · cases file
  · rintro ⟨content, kept⟩
    obtain ⟨serial, found⟩ := holds.stat_of_find? kept
    simp [contains, isFile, found]

theorem read_eq (bare : IsBare c.ending) (clean : u.Clean) : c.read d u = m.find? u.logical := by
  cases kept : m.find? u.logical with
  | some content =>
    obtain ⟨serial, found⟩ := holds.stat_of_find? kept
    simp [read, Disk.read, found, Except.toOption]
  | none =>
    have missing : ∀ place entry, d.stat (c.pathOf u) = .ok (place, entry) → entry = .folder := by
      intro place entry found
      by_contra leaf
      obtain ⟨_, content, _, other⟩ := holds.find?_of_stat bare clean found leaf
      rw [kept] at other
      cases other
    rcases found : d.stat (c.pathOf u) with fault | ⟨place, entry⟩
    · simp [read, Disk.read, found, Except.toOption]
    · rw [missing place entry found] at found
      simp [read, Disk.read, found, Except.toOption]

/-- No key is left of a disk whose cache folder cannot be opened. -/
theorem keys_eq_nil (bare : IsBare c.ending) (filled : c.folder.text ≠ "")
    (closed : d.stat c.folder ≠ .ok (d.placeOf c.folder, .folder)) : m.keys = [] := by
  refine List.eq_nil_iff_forall_not_mem.mpr fun logical member => ?_
  obtain ⟨content, kept⟩ := holds.sorted.mem_keys.mp member
  obtain ⟨clean, serial, found⟩ := holds.stands _ _ kept
  exact closed (opened_of_stat bare clean holds.plain filled found)

theorem list_eq_keys (bare : IsBare c.ending) (filled : c.folder.text ≠ "") :
    c.list d = m.keys := by
  by_cases opened : d.stat c.folder = .ok (d.placeOf c.folder, .folder)
  · refine list_eq holds.sound opened bare holds.sorted ?_ ?_ ?_
    · intro logical member
      obtain ⟨content, kept⟩ := holds.sorted.mem_keys.mp member
      exact (holds.stands _ _ kept).1
    · intro logical member
      obtain ⟨content, kept⟩ := holds.sorted.mem_keys.mp member
      obtain ⟨_, serial, found⟩ := holds.stands _ _ kept
      exact .inl ⟨serial, content, stat_entry holds.sound found⟩
    · intro way carries stands
      exact holds.only way carries stands.leaf
  · rw [holds.keys_eq_nil bare filled opened]
    have empty : c.files d = [] := by
      refine List.eq_nil_iff_forall_not_mem.mpr fun file member => ?_
      obtain ⟨place, _, found, _⟩ := (mem_filesWithExtension holds.sound).mp member
      exact opened (by rw [found, stat_place holds.plain found])
    simp [list, empty]

/-- As long as no artifact is written or removed the map stays. -/
theorem congr {within : Place → Prop} (change : Changes within d d')
    (same : ∀ names, Carries c.ending names →
      d'.leafAt (d.placeOf c.folder ++ names) = d.leafAt (d.placeOf c.folder ++ names))
    (bare : IsBare c.ending) : c.Holds d' m where
  sound := change.sound
  plain := change.plain holds.plain
  sorted := holds.sorted
  stands logical content kept := by
    obtain ⟨clean, serial, found⟩ := holds.stands _ _ kept
    refine ⟨clean, serial, ?_⟩
    rw [placeFor_congr change]
    refine change.stat_same holds.sound (plain_pathOf bare clean.tidy holds.plain) found (by simp) ?_
    rw [placeOf_pathOf bare clean.tidy]
    exact same _ (clean.carries bare)
  only names carries stands := by
    rw [change.placeOf, same _ carries] at stands
    exact holds.only names carries stands

/-- A change of the artifact of one unit, after which that unit holds what it should. -/
theorem replaced {within : Place → Prop} {m' : Dict String ByteArray} (bare : IsBare c.ending)
    (clean : u.Clean) (change : Changes within d d')
    (others : ∀ place, d'.leafAt place = d.leafAt place ∨ place = c.placeFor d u)
    (sorted : m'.Sorted)
    (apart : ∀ logical, u.logical ≠ logical → m'.find? logical = m.find? logical)
    (there : ∀ content, m'.find? u.logical = some content →
      ∃ serial, d'.stat (c.pathOf u) = .ok (c.placeFor d u, .file serial content))
    (known : d'.leafAt (c.placeFor d u) ≠ none → ∃ content, m'.find? u.logical = some content) :
    c.Holds d' m' where
  sound := change.sound
  plain := change.plain holds.plain
  sorted := sorted
  stands logical content kept := by
    rw [placeFor_congr change]
    by_cases same : u.logical = logical
    · rw [← same, UnitId.ofLogical_logical]
      exact ⟨clean, there content (by rw [same, kept])⟩
    · rw [apart _ same] at kept
      obtain ⟨named, serial, found⟩ := holds.stands _ _ kept
      refine ⟨named, serial, change.stat_same holds.sound
        (plain_pathOf bare named.tidy holds.plain) found (by simp) ?_⟩
      rw [placeOf_pathOf bare named.tidy]
      exact (others _).resolve_right fun here => same (logical_of_placeFor here).symm
  only names carries stands := by
    rw [change.placeOf] at stands
    rcases others (d.placeOf c.folder ++ names) with unchanged | here
    · rw [unchanged] at stands
      obtain ⟨logical, member, rfl⟩ := holds.only names carries stands
      refine ⟨logical, ?_, rfl⟩
      by_cases same : u.logical = logical
      · have here : c.placeFor d u = d.placeOf c.folder ++
            UnitId.fileNames c.ending (UnitId.ofLogical logical).segments := by
          rw [← same, UnitId.ofLogical_logical]
          rfl
        rw [← unchanged, ← here] at stands
        rw [← same]
        exact sorted.mem_keys.mpr (known stands)
      · rw [sorted.mem_keys, apart _ same]
        exact holds.sorted.mem_keys.mp member
    · rw [here] at stands
      refine ⟨u.logical, sorted.mem_keys.mpr (known stands), ?_⟩
      rw [UnitId.ofLogical_logical]
      exact List.append_cancel_left here

theorem store_ok (bare : IsBare c.ending) (clean : u.Clean) {content : ByteArray} {p : Path}
    (stored : c.store d u content = (.ok p, d')) :
    p = c.pathOf u ∧ c.Holds d' (m.insert u.logical content) ∧ Changes (c.Keeps d) d d' := by
  have plain := plain_pathOf bare clean.tidy holds.plain
  have place := placeOf_pathOf bare clean.tidy d
  obtain ⟨made, above, ⟨e, failed⟩ | ⟨after, ends, written⟩⟩ :=
    writeArtifact_cases holds.sound (c.pathOf u) content
  · simp [store, failed] at stored
  simp only [store, ends, Prod.mk.injEq, Except.ok.injEq] at stored
  obtain ⟨rfl, rfl⟩ := stored
  have change : Changes (· = c.placeFor d u) d after := by
    have last := (changes_write above.sound (above.plain plain) written).changes
    rw [above.placeOf, place] at last
    exact (above.mono fun _ => False.elim).trans last
  have stores : ∀ device, made.entryAt (made.placeOf (c.pathOf u)) ≠ some (.device device) := by
    intro device there
    have leaf := (leafAt_eq_some (by simp)).mpr there
    rw [above.placeOf, place, (above.leaves _).resolve_right id] at leaf
    have stands := (leafAt_eq_some (by simp)).mp leaf
    obtain ⟨old, kept⟩ := holds.find?_of_leaf bare clean (by rw [leaf]; simp)
    obtain ⟨serial, found⟩ := holds.stat_of_find? kept
    rw [stat_entry holds.sound found] at stands
    cases stands
  obtain ⟨serial, found⟩ := stat_write above.sound (above.plain plain) stores written
  rw [above.placeOf, place] at found
  refine ⟨rfl, holds.replaced bare clean change change.leaves (holds.sorted.insert _ _) ?_ ?_ ?_, ?_⟩
  · intro logical other
    exact Dict.find?_insert_of_ne m other content
  · intro now kept
    rw [Dict.find?_insert_self] at kept
    cases kept
    exact ⟨serial, found⟩
  · exact fun _ => ⟨content, Dict.find?_insert_self ..⟩
  · exact change.mono fun _ here => here ▸ keeps_placeFor bare clean d

theorem store_error (bare : IsBare c.ending) (clean : u.Clean) {content : ByteArray} {e : CacheError}
    (failed : c.store d u content = (.error e, d')) :
    c.Holds d' m ∧ Changes (c.Keeps d) d d' := by
  rcases store_writes bare clean.tidy holds.sound holds.plain failed with ⟨_, made⟩ | ⟨done, _⟩
  · exact ⟨holds.congr made (fun names _ => (made.leaves _).resolve_right id) bare,
      made.mono fun _ => False.elim⟩
  · cases done

/-- The artifact of a unit in the map can be removed, and leaves the map with that. -/
theorem removed (bare : IsBare c.ending) (clean : u.Clean) {content : ByteArray}
    (kept : m.find? u.logical = some content) :
    ∃ d', d.remove (c.pathOf u) = .ok d' ∧ c.Holds d' (m.erase u.logical) ∧
      Changes (c.Keeps d) d d' := by
  have plain := plain_pathOf bare clean.tidy holds.plain
  obtain ⟨serial, found⟩ := holds.stat_of_find? kept
  obtain ⟨front, name, proper, _, path⟩ := pathOf_eq bare clean
  have removed : d.remove (c.pathOf u) = .ok (d.drop (c.placeFor d u)) := by
    rw [path] at found plain ⊢
    exact remove_joinName holds.sound plain (proper name (by simp)) found (by simp)
  obtain ⟨change, gone⟩ := changes_remove holds.sound plain removed
  rw [placeOf_pathOf bare clean.tidy] at change gone
  refine ⟨_, removed, ?_, change.mono fun _ here => here ▸ keeps_placeFor bare clean d⟩
  refine holds.replaced bare clean change change.leaves (holds.sorted.erase _) ?_ ?_ ?_
  · intro logical other
    exact Dict.find?_erase_of_ne m other
  · intro now found
    rw [Dict.find?_erase_self] at found
    cases found
  · exact fun stands => absurd gone stands

/-- What is not in the map is not there to be removed. -/
theorem not_removed (bare : IsBare c.ending) (clean : u.Clean) (missing : m.find? u.logical = none) :
    d.remove (c.pathOf u) ≠ .ok d' := by
  intro removed
  have stands := leafAt_of_remove holds.sound (plain_pathOf bare clean.tidy holds.plain) removed
  rw [placeOf_pathOf bare clean.tidy] at stands
  obtain ⟨content, kept⟩ := holds.find?_of_leaf bare clean stands
  rw [missing] at kept
  cases kept

theorem invalidate_ok (bare : IsBare c.ending) (clean : u.Clean) {there : Bool}
    (done : c.invalidate d u = (.ok there, d')) :
    there = m.contains u.logical ∧ c.Holds d' (m.erase u.logical) ∧ Changes (c.Keeps d) d d' := by
  cases kept : m.find? u.logical with
  | some content =>
    obtain ⟨after, removed, rest⟩ := holds.removed bare clean kept
    simp only [invalidate, removeIfThere, removed, Prod.mk.injEq, Except.ok.injEq] at done
    obtain ⟨rfl, rfl⟩ := done
    exact ⟨by simp [Dict.contains, kept], rest⟩
  | none =>
    simp only [invalidate, removeIfThere] at done
    split at done
    · rename_i removed
      exact absurd removed (holds.not_removed bare clean kept)
    · cases done
      rw [holds.sorted.erase_of_missing kept]
      exact ⟨by simp [Dict.contains, kept], holds, .refl holds.sound⟩
    · cases done

/-- What cannot be invalidated was not in the map. -/
theorem invalidate_error (bare : IsBare c.ending) (clean : u.Clean) {e : CacheError}
    (failed : c.invalidate d u = (.error e, d')) : m.contains u.logical = false ∧ d' = d := by
  cases kept : m.find? u.logical with
  | some content =>
    obtain ⟨after, removed, _⟩ := holds.removed bare clean kept
    simp [invalidate, removeIfThere, removed] at failed
  | none =>
    refine ⟨by simp [Dict.contains, kept], ?_⟩
    simp only [invalidate, removeIfThere] at failed
    split at failed
    · cases failed
    · cases failed
    · cases failed
      rfl

/-- The files of the cache are those of the names in the map. -/
theorem file_eq (bare : IsBare c.ending) {f : Listed} (member : f ∈ c.files d) :
    ∃ logical ∈ m.keys, f.path = c.pathOf (.ofLogical logical) ∧
      Text.slashes (f.relative.withExtension "").text = logical := by
  obtain ⟨place, names, found, carries, stands, rfl⟩ :=
    (mem_filesWithExtension holds.sound).mp member
  rw [stat_place holds.plain found] at stands
  obtain ⟨logical, known, rfl⟩ := holds.only names carries stands.leaf
  obtain ⟨content, kept⟩ := holds.sorted.mem_keys.mp known
  have clean := (holds.stands _ _ kept).1
  refine ⟨logical, known, ?_, ?_⟩
  · rw [listed, pathOf, clean.tidy.pathIn_eq bare c.folder]
  · rw [listed, clean.file_name bare, UnitId.logical_ofLogical]

end Holds

end ArtifactCache
end LayerCache
