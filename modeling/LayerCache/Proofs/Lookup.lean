import LayerCache.Proofs.Laying
import LayerCache.Proofs.Sources

/-! Looking for a unit in the roots. A file that can be opened and has no rivals, which differ from it
in case alone, is found; so a lookup finds what a sweep lists first. -/
namespace LayerCache

namespace UnitId

variable {u : UnitId}

theorem named_of_filled (filled : ∀ segment ∈ u.segments, segment ≠ "") : u.isEmpty = false := by
  by_contra empty
  have none : u.logical = "" := by simpa [isEmpty] using empty
  have split : u.segments = [""] := by
    rw [segments, none]
    rfl
  exact filled "" (by simp [split]) rfl

theorem filled_of_ofSymbol {symbol : String} (named : (ofSymbol symbol).isEmpty = false) :
    ∀ segment ∈ (ofSymbol symbol).segments, segment ≠ "" :=
  fun _ member => (isName_of_ofSymbol named member).filled

end UnitId

namespace Roots

variable {r : Roots} {d before : Disk} {u : UnitId} {root : SourceRoot} {names : List String}
  {f : SourceFile}

/-- On a disk nothing differs in case alone from the names that lead to a source. -/
def Clear (r : Roots) (before d : Disk) : Prop :=
  ∀ root ∈ r.roots, ∀ names, r.Holds before root names →
    Unrivalled d (before.placeOf root.path) names

/-- Lookups find the sources there are: each can be opened by its path, and none has a rival. -/
structure Legible (r : Roots) (d : Disk) : Prop where
  opened : ∀ root ∈ r.roots, ∀ names, r.Holds d root names →
    d.isFile (names.foldl Path.joinName root.path) = true
  clear : r.Clear d d

theorem Holds.there (holds : r.Holds d root names) :
    d.entryAt (d.placeOf root.path ++ names) ≠ none := by
  intro absent
  rcases holds.2 with ⟨_, _, entry⟩ | ⟨_, entry⟩ <;> simp [absent] at entry

/-- What names a source has tells which unit it is of. -/
theorem spells_iff (holds : r.Holds d root names) (straight : ∀ name ∈ names, '\\' ∉ name.toList) :
    Text.lower (r.below root names).unit.logical = Text.lower u.logical ↔
      names.map Text.lower = (UnitId.fileNames r.ending u.segments).map Text.lower := by
  rw [unit_below]
  constructor
  · intro same
    rw [← (UnitId.lower_eq_iff _ _ r.ending).mp same,
      UnitId.lower_fileNames_ofRelative holds.1 straight]
  · exact UnitId.lower_ofRelative_of_spelled holds.1 straight

/-- Names that are found in a root are those of a source there. -/
theorem holds_of_namesIn (sound : d.Sound) (plain : d.Plain root.path) (tidy : u.Tidy)
    (bare : IsBare r.ending) (filled : ∀ segment ∈ u.segments, segment ≠ "")
    (found : r.namesIn d u root = some names) : r.Holds d root names ∧
      names.map Text.lower = (UnitId.fileNames r.ending u.segments).map Text.lower := by
  obtain ⟨spelled, proper, file⟩ := namesIn_spec sound tidy bare found
  have there := Disk.isFile_spec sound (plain.joinNames proper) file
  rw [Disk.placeOf_joinNames proper] at there
  exact ⟨⟨UnitId.carries_of_lower proper bare filled spelled, there⟩, spelled⟩

/-- A source that can be opened and has no rivals is found in its root. -/
theorem namesIn_of_holds (sound : d.Sound) (plain : d.Plain root.path) (tidy : u.Tidy)
    (bare : IsBare r.ending) (openable : d.isFolder root.path = true)
    (file : d.isFile (names.foldl Path.joinName root.path) = true)
    (clear : Unrivalled d (d.placeOf root.path) names) (holds : r.Holds d root names)
    (spelled : names.map Text.lower = (UnitId.fileNames r.ending u.segments).map Text.lower) :
    r.namesIn d u root = some names := by
  simp only [namesIn]
  split
  · rename_i exact
    have proper : ∀ name ∈ UnitId.fileNames r.ending u.segments, IsName name := tidy.proper bare
    have there := Disk.isFile_spec sound (plain.joinNames proper) exact
    rw [Disk.placeOf_joinNames proper] at there
    have entry : d.entryAt (d.placeOf root.path ++ UnitId.fileNames r.ending u.segments) ≠ none := by
      intro absent
      rcases there with ⟨_, _, entry⟩ | ⟨_, entry⟩ <;> simp [absent] at entry
    rw [clear.unique sound entry spelled.symm]
  · obtain ⟨place, entry, found⟩ := Disk.stat_of_isFile file
    refine descend_complete sound clear ?_ holds.there file spelled
    rintro front back rfl more
    exact Disk.stat_of_joinNames more plain holds.1.proper (Disk.filled_of_isFolder openable) found

/-- Rivals can be looked for among all entries. -/
theorem clear_of_entries (sound : before.Sound) (after : d.Sound)
    (apart : ∀ x ∈ d.entries.pairs, ∀ y ∈ before.entries.pairs, x.1.dropLast = y.1.dropLast →
      x.1.map Text.lower = y.1.map Text.lower → x.1 = y.1) : r.Clear before d := by
  rintro root _ names holds front name back rfl other there alike
  have stood : before.entryAt (before.placeOf root.path ++ front ++ [name]) ≠ none := by
    intro absent
    have held := holds.there
    rw [show before.placeOf root.path ++ (front ++ name :: back) =
      (before.placeOf root.path ++ front ++ [name]) ++ back by simp] at held
    by_cases more : back = []
    · exact held (by simpa [more] using absent)
    · rw [sound.above held more] at absent
      cases absent
  obtain ⟨e, first⟩ := Option.ne_none_iff_exists'.mp there
  obtain ⟨e', second⟩ := Option.ne_none_iff_exists'.mp stood
  have same := apart _ ((after.mem_pairs (by simp)).mpr first) _ ((sound.mem_pairs (by simp)).mpr second)
    (by simp) (by simp [alike])
  simpa using same

/-- Whether sources can be opened can be looked up for all entries. -/
theorem legible_of_entries (sound : d.Sound)
    (opened : ∀ root ∈ r.roots, ∀ x ∈ d.entries.pairs, d.placeOf root.path <+: x.1 →
      (d.leafAt x.1).isSome →
      d.isFile ((x.1.drop (d.placeOf root.path).length).foldl Path.joinName root.path) = true)
    (apart : ∀ x ∈ d.entries.pairs, ∀ y ∈ d.entries.pairs, x.1.dropLast = y.1.dropLast →
      x.1.map Text.lower = y.1.map Text.lower → x.1 = y.1) : r.Legible d := by
  refine ⟨?_, clear_of_entries sound sound apart⟩
  intro root known names holds
  have filled : d.placeOf root.path ++ names ≠ [] := by simp [holds.1.filled]
  have look := fun e entry => opened root known (d.placeOf root.path ++ names, e)
    ((sound.mem_pairs filled).mpr entry) (List.prefix_append _ _)
  simp only [List.drop_left] at look
  rcases holds.2 with ⟨_, _, entry⟩ | ⟨_, entry⟩
  · exact look _ entry (by simp [Disk.leafAt, entry])
  · exact look _ entry (by simp [Disk.leafAt, entry])

theorem ranks_ofPaths (generated : Option Path) (others : List Path) (ending : String) :
    (ofPaths generated others ending).roots.Pairwise fun a b => a.rank < b.rank := by
  simp only [ofPaths, List.pairwise_map]
  rw [List.pairwise_iff_getElem]
  intro i j _ _ before
  simpa using before

/-- The root where a unit is found is the first that has it. -/
theorem resolve_first (ordered : r.roots.Pairwise fun a b => a.rank < b.rank)
    (found : r.resolve d u = some f) (known : root ∈ r.roots) (here : r.namesIn d u root = some names) :
    f.rank ≤ root.rank := by
  simp only [resolve] at found
  split at found
  · cases found
  obtain ⟨front, first, back, parts, file, missed⟩ := List.findSome?_eq_some_iff.mp found
  obtain ⟨others, _, rfl⟩ := Option.map_eq_some_iff.mp file
  rw [parts] at known ordered
  rcases List.mem_append.mp known with early | late
  · have none := missed root early
    simp [here] at none
  · rcases List.mem_cons.mp late with rfl | behind
    · exact Nat.le_refl _
    · have after := (List.pairwise_append.mp ordered).2.1
      exact Nat.le_of_lt (List.rel_of_pairwise_cons after behind)

theorem resolve_ne_none (named : u.isEmpty = false) (known : root ∈ r.roots)
    (here : r.namesIn d u root = some names) : r.resolve d u ≠ none := by
  intro missed
  simp only [resolve, named] at missed
  have none := List.findSome?_eq_none_iff.mp (by simpa using missed) root known
  simp [here] at none

end Roots
end LayerCache
