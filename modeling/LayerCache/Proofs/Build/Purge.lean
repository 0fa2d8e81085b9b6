import LayerCache.Proofs.Build.Staleness
import LayerCache.Proofs.Removal

/-! What is removed before a build: the artifacts of units, and the files with an extension under a
folder. What could not be removed is out of reach, so there is nothing left for a second attempt. -/
namespace LayerCache

open Disk

namespace Disk

variable {d d' : Disk} {p : Path} {ending : String}

/-- As long as the files with an extension stay, so does their list. A folder that cannot be opened
holds none. -/
theorem filesWithExtension_congr {within : Place → Prop} (sound : d.Sound) (plain : d.Plain p)
    (opens : d.Opens p) (change : Changes within d d')
    (same : ∀ names, Carries ending names →
      d'.leafAt (d.placeOf p ++ names) = d.leafAt (d.placeOf p ++ names)) :
    d'.filesWithExtension p ending = d.filesWithExtension p ending := by
  have alike : ∀ names, Carries ending names →
      (d'.IsFileAt (d.placeOf p ++ names) ↔ d.IsFileAt (d.placeOf p ++ names)) :=
    fun names carries => ⟨fun file => file.congr (same names carries).symm,
      fun file => file.congr (same names carries)⟩
  by_cases there : d.entryAt (d.placeOf p) = some .folder
  · have opened : d.stat p = .ok (d.placeOf p, .folder) := by
      obtain ⟨place, found⟩ := isFolder_iff.mp (opens there)
      rw [found, stat_place plain found]
    have opened' : d'.stat p = .ok (d.placeOf p, .folder) := by
      obtain ⟨place, found⟩ := isFolder_iff.mp (change.isFolder sound plain (opens there))
      rw [found, stat_place (change.plain plain) found, change.placeOf]
    have carries : ∀ {e : Disk} {names : List String}, e.Sound →
        e.IsFileAt (d.placeOf p ++ names) → (relativePath names).hasExtension ending = true →
        Carries ending names :=
      fun sound' file ends => (hasExtension_relativePath fun name inside =>
        file.proper sound' name (List.mem_append_right _ inside)).mp ends
    have below : ∀ a b : List String, d.placeOf p ++ a < d.placeOf p ++ b →
        d.placeOf p ++ b < d.placeOf p ++ a → a = b :=
      fun a b less more => absurd less (List.lt_asymm more)
    have kept : (d'.filesUnder p).filter (fun names => (relativePath names).hasExtension ending) =
        (d.filesUnder p).filter fun names => (relativePath names).hasExtension ending := by
      refine List.Perm.eq_of_pairwise (fun a b _ _ less more => below a b less more)
        ((sorted_filesUnder change.sound opened').filter _)
        ((sorted_filesUnder sound opened).filter _) ?_
      refine (List.perm_ext_iff_of_nodup ((nodup_filesUnder change.sound).filter _)
        ((nodup_filesUnder sound).filter _)).mpr fun names => ?_
      simp only [List.mem_filter, mem_filesUnder change.sound, mem_filesUnder sound, opened, opened',
        Except.ok.injEq, Prod.mk.injEq, and_true, exists_eq_left']
      constructor
      · rintro ⟨⟨filled, file⟩, ends⟩
        exact ⟨⟨filled, (alike names (carries change.sound file ends)).mp file⟩, ends⟩
      · rintro ⟨⟨filled, file⟩, ends⟩
        exact ⟨⟨filled, (alike names (carries sound file ends)).mpr file⟩, ends⟩
    simp only [filesWithExtension, List.filter_map, Function.comp_def, listed, kept]
  · have none : ∀ {e : Disk}, e.Sound → e.placeOf p = d.placeOf p → e.Plain p →
        (∀ names, Carries ending names → e.IsFileAt (d.placeOf p ++ names) →
          d.IsFileAt (d.placeOf p ++ names)) → e.filesWithExtension p ending = [] := by
      intro e sound' place plain' fewer
      refine List.eq_nil_iff_forall_not_mem.mpr fun f member => ?_
      obtain ⟨here, names, found, carries, file, _⟩ := (mem_filesWithExtension sound').mp member
      rw [stat_place plain' found, place] at file
      have leaf := (fewer names carries file).leaf
      have stands : d.entryAt (d.placeOf p ++ names) ≠ none := by
        intro empty
        rw [leafAt, empty] at leaf
        exact leaf rfl
      exact there (sound.above stands carries.filled)
    rw [none change.sound (change.placeOf p) (change.plain plain) fun names carries =>
      (alike names carries).mp, none sound rfl plain fun _ _ file => file]

end Disk

theorem Disk.Drops.opens {d d' : Disk} {p : Path} {places : List Place} (drops : Drops places d d')
    (sound : d.Sound) (plain : d.Plain p) (opens : d.Opens p) : d'.Opens p := by
  intro there
  rw [drops.changes.placeOf] at there
  exact drops.changes.isFolder sound plain (opens (drops.folder_iff.mp there))

namespace ArtifactCache

variable {c : ArtifactCache} {d d' : Disk} {u : UnitId}

/-- An attempt to invalidate an artifact is one to remove its file. -/
theorem invalidate_tried (bare : IsBare c.ending) (tidy : u.Tidy)
    {result : Except CacheError Bool} (done : c.invalidate d u = (result, d')) :
    result = .ok true ∧
      d.remove (c.folder.join (relativePath (UnitId.fileNames c.ending u.segments))) = .ok d' ∨
    result ≠ .ok true ∧ (∀ x,
      d.remove (c.folder.join (relativePath (UnitId.fileNames c.ending u.segments))) ≠ .ok x) ∧
        d' = d := by
  rw [← tidy.pathIn_eq bare]
  simp only [invalidate, removeIfThere, pathOf] at done
  split at done
  · rename_i removed
    cases done
    exact .inl ⟨rfl, removed⟩
  · rename_i missed
    cases done
    exact .inr ⟨by simp, by simp [missed], rfl⟩
  · rename_i fault _ missed
    cases done
    exact .inr ⟨by simp, by simp [missed], rfl⟩

end ArtifactCache

namespace Builder

variable {b : Builder} {d d' : Disk} {units : List UnitId} {u : UnitId}

theorem invalidateAll_drops (bare : IsBare b.layout.naming.artifactExt) (tidy : ∀ u ∈ units, u.Tidy)
    (sound : d.Sound) (plain : d.Plain b.layout.cache) (opens : d.Opens b.layout.cache) :
    ∃ places, Drops places d (b.invalidateAll d units).2.2 ∧
      (b.invalidateAll d units).1 = places.length ∧
      (∀ place ∈ places, ∃ u ∈ units, place = b.cache.placeFor d u) ∧
      ∀ u ∈ units, (b.invalidateAll d units).2.2.Cleared b.layout.cache
        (UnitId.fileNames b.layout.naming.artifactExt u.segments) := by
  induction units generalizing d with
  | nil => exact ⟨[], .refl sound, rfl, by simp, by simp⟩
  | cons u rest ih =>
    have named := tidy u (by simp)
    have proper := named.proper bare
    have filled := u.fileNames_ne_nil b.layout.naming.artifactExt
    have others := fun v member => tidy v (List.mem_cons_of_mem u member)
    rcases done : b.cache.invalidate d u with ⟨result, after⟩
    have tried := ArtifactCache.invalidate_tried (c := b.cache) bare named done
    have gone : after.Cleared b.layout.cache
        (UnitId.fileNames b.layout.naming.artifactExt u.segments) :=
      cleared_of_tried sound plain opens proper filled (tried.imp And.right And.right)
    -- what the first unit drops, and how it is counted
    obtain ⟨here, first, count, whose⟩ : ∃ here, Drops here d after ∧
        (result = .ok true ∧ here.length = 1 ∨ result ≠ .ok true ∧ here.length = 0) ∧
        ∀ place ∈ here, place = b.cache.placeFor d u := by
      rcases tried with ⟨ok, removed⟩ | ⟨other, _, rfl⟩
      · have drops := Drops.of_remove sound (plain.join proper) removed
        refine ⟨_, drops, .inl ⟨ok, rfl⟩, ?_⟩
        rw [placeOf_joinRelative proper]
        exact fun place member => List.mem_singleton.mp member
      · exact ⟨[], .refl sound, .inr ⟨other, rfl⟩, by simp⟩
    obtain ⟨more, second, counts, known, cleared⟩ := ih others first.sound
      (first.changes.plain plain) (first.opens sound plain opens)
    refine ⟨here ++ more, ?_, ?_, ?_, ?_⟩
    · rw [invalidateAll_disk, done]
      exact first.trans second
    · rw [List.length_append, ← counts]
      simp only [invalidateAll, done]
      rcases count with ⟨rfl, one⟩ | ⟨other, none⟩
      · simp [one, Nat.add_comm]
      · rcases result with e | there
        · simp [none]
        · have missing : there = false := by
            by_contra found
            exact other (by simpa using found)
          simp [none, missing]
    · intro place member
      rcases List.mem_append.mp member with early | late
      · exact ⟨u, by simp, whose place early⟩
      · obtain ⟨v, inside, same⟩ := known place late
        rw [ArtifactCache.placeFor_congr first.changes] at same
        exact ⟨v, by simp [inside], same⟩
    · rw [invalidateAll_disk, done]
      intro v member
      rcases List.mem_cons.mp member with rfl | later
      · refine gone.mono second.changes fun stands => ?_
        rwa [← second.faded stands]
      · exact cleared v later

/-- Stray files are removed as far as they can be reached. -/
theorem removeAll_drops {folder : Path} {all : List (List String)} (sound : d.Sound)
    (plain : d.Plain folder) (opens : d.Opens folder)
    (proper : ∀ names ∈ all, names ≠ [] ∧ ∀ name ∈ names, IsName name) :
    ∃ places, Drops places d
        (removeAll d (all.map fun names => folder.join (relativePath names))).2 ∧
      (removeAll d (all.map fun names => folder.join (relativePath names))).1 = places.length ∧
      (∀ place ∈ places, ∃ names ∈ all, place = d.placeOf folder ++ names) ∧
      ∀ names ∈ all, (removeAll d
        (all.map fun names => folder.join (relativePath names))).2.Cleared folder names := by
  induction all generalizing d with
  | nil => exact ⟨[], .refl sound, rfl, by simp, by simp⟩
  | cons names rest ih =>
    obtain ⟨filled, named⟩ := proper names (by simp)
    have others := fun other member => proper other (List.mem_cons_of_mem names member)
    rcases removed : d.remove (folder.join (relativePath names)) with fault | after
    · have blocked : ∀ x, d.remove (folder.join (relativePath names)) ≠ .ok x := by simp [removed]
      have gone := cleared_of_tried sound plain opens named filled (.inr ⟨blocked, rfl⟩)
      obtain ⟨more, drops, count, known, cleared⟩ := ih sound plain opens others
      simp only [List.map_cons, removeAll, removed]
      refine ⟨more, drops, count, fun place member => ?_, fun other member => ?_⟩
      · obtain ⟨other, inside, same⟩ := known place member
        exact ⟨other, by simp [inside], same⟩
      · rcases List.mem_cons.mp member with rfl | later
        · refine gone.mono drops.changes fun stands => ?_
          rwa [← drops.faded stands]
        · exact cleared other later
    · have gone := cleared_of_tried sound plain opens named filled (.inl removed)
      have first := Drops.of_remove sound (plain.join named) removed
      rw [placeOf_joinRelative named] at first
      obtain ⟨more, drops, count, known, cleared⟩ := ih first.sound (first.changes.plain plain)
        (first.opens sound plain opens) others
      simp only [List.map_cons, removeAll, removed]
      refine ⟨_, first.trans drops, ?_, fun place member => ?_, fun other member => ?_⟩
      · simp [count]
      · rcases List.mem_append.mp member with early | late
        · exact ⟨names, by simp, List.mem_singleton.mp early⟩
        · obtain ⟨other, inside, same⟩ := known place late
          rw [first.changes.placeOf] at same
          exact ⟨other, by simp [inside], same⟩
      · rcases List.mem_cons.mp member with rfl | later
        · refine gone.mono drops.changes fun stands => ?_
          rwa [← drops.faded stands]
        · exact cleared other later

end Builder

/-! After a removal there is nothing left for a second one. -/

namespace Disk

variable {d d' : Disk} {p : Path} {ending : String} {names : List String} {places : List Place}

theorem Cleared.isFile (cleared : d.Cleared p names) (sound : d.Sound) (plain : d.Plain p)
    (proper : ∀ name ∈ names, IsName name) (filled : names ≠ []) :
    d.isFile (p.join (relativePath names)) = false := by
  refine Bool.eq_false_iff.mpr fun file => ?_
  obtain ⟨gone, removed⟩ := remove_of_isFile sound plain proper filled file
  exact cleared (fun _ => False) d (.refl sound) id gone removed

/-- No link stands anywhere. -/
def Linkless (d : Disk) : Prop := ∀ place target, d.entryAt place ≠ some (.link target)

namespace Linkless

variable (linkless : d.Linkless)
include linkless

theorem plain (p : Path) : d.Plain p := ⟨fun _ _ => linkless _, fun _ => linkless _⟩

theorem mono {within : Place → Prop} (change : Changes within d d') : d'.Linkless :=
  fun place target linked => linkless place target (change.links place target linked)

/-- Where there are no links, what leaves were removed can be looked at from either side. -/
theorem back (drops : Drops places d d') (sound : d.Sound) : Changes (· ∈ places) d' d where
  sound := sound
  here := drops.here.symm
  folders _ folder := drops.folder_iff.mp folder
  links place target linked := absurd linked (linkless place target)
  leaves place := (drops.changes.leaves place).imp_left Eq.symm

end Linkless

theorem linkless_ofFiles (files : List (String × String)) : (ofFiles files).Linkless :=
  fun place target linked => (plain_ofFiles files ⟨"/"⟩).below place target linked

/-- The paths of the files with an extension, by the names that lead to them. -/
theorem paths_filesWithExtension (p : Path) (ending : String) (sound : d.Sound) : ∃ all : List (List String),
    (d.filesWithExtension p ending).map (·.path) =
      all.map (fun names => p.join (relativePath names)) ∧
    ∀ names, names ∈ all ↔ names ∈ d.filesUnder p ∧ Carries ending names := by
  refine ⟨(d.filesUnder p).filter fun names => (relativePath names).hasExtension ending, ?_,
    fun names => ?_⟩
  · simp only [filesWithExtension, List.filter_map, List.map_map, Function.comp_def, listed]
  · rw [List.mem_filter]
    refine and_congr_right fun inside => hasExtension_relativePath fun name part => ?_
    obtain ⟨place, _, _, file⟩ := (mem_filesUnder sound).mp inside
    exact file.proper sound name (List.mem_append_right _ part)

/-- Every file with an extension that is listed under a folder is out of a removal's reach. -/
def Swept (d : Disk) (p : Path) (ending : String) : Prop :=
  ∀ names ∈ d.filesUnder p, Carries ending names → d.Cleared p names

theorem Swept.isFile (swept : d.Swept p ending) (sound : d.Sound) (plain : d.Plain p) {f : Listed}
    (member : f ∈ d.filesWithExtension p ending) : d.isFile f.path = false := by
  obtain ⟨place, names, opened, carries, file, rfl⟩ := (mem_filesWithExtension sound).mp member
  exact (swept names ((mem_filesUnder sound).mpr ⟨place, opened, carries.filled, file⟩)
    carries).isFile sound plain carries.proper carries.filled

/-- What is listed when there are no more files was listed before. -/
theorem mem_of_fewer {within : Place → Prop} (sound : d.Sound) (linkless : d.Linkless)
    (linkless' : d'.Linkless) (sound' : d'.Sound) (back : Changes within d' d)
    (fewer : ∀ place, d'.IsFileAt place → d.IsFileAt place) (member : names ∈ d'.filesUnder p) :
    names ∈ d.filesUnder p := by
  obtain ⟨place, opened, filled, file⟩ := (mem_filesUnder sound').mp member
  obtain ⟨other, found⟩ := isFolder_iff.mp
    (back.isFolder sound' (linkless'.plain p) (isFolder_iff.mpr ⟨_, opened⟩))
  have here : other = place := by
    rw [stat_place (linkless.plain p) found, stat_place (linkless'.plain p) opened, back.placeOf]
  subst here
  exact (mem_filesUnder sound).mpr ⟨other, found, filled, fewer _ file⟩

end Disk

namespace Builder

variable {b : Builder} {d d' : Disk} {folder : Path} {ending : String} {units : List UnitId}

/-- Files that are out of reach are left, and none is counted. -/
theorem invalidateAll_cleared (bare : IsBare b.layout.naming.artifactExt)
    (tidy : ∀ u ∈ units, u.Tidy) (sound : d.Sound)
    (cleared : ∀ u ∈ units, d.Cleared b.layout.cache
      (UnitId.fileNames b.layout.naming.artifactExt u.segments)) :
    (b.invalidateAll d units).1 = 0 ∧ (b.invalidateAll d units).2.2 = d := by
  induction units with
  | nil => exact ⟨rfl, rfl⟩
  | cons u rest ih =>
    have out := cleared u (by simp) (fun _ => False) d (.refl sound) id
    rcases done : b.cache.invalidate d u with ⟨result, after⟩
    rcases ArtifactCache.invalidate_tried (c := b.cache) bare (tidy u (by simp)) done with
      ⟨_, removed⟩ | ⟨other, _, rfl⟩
    · exact absurd removed (out after)
    · obtain ⟨none, same⟩ := ih (fun v member => tidy v (List.mem_cons_of_mem u member))
        (fun v member => cleared v (List.mem_cons_of_mem u member))
      rcases result with e | there
      · simp [invalidateAll, done, none, same]
      · cases there with
        | false => simp [invalidateAll, done, none, same]
        | true => exact absurd rfl other

theorem removeAll_cleared {all : List (List String)} (sound : d.Sound)
    (cleared : ∀ names ∈ all, d.Cleared folder names) :
    removeAll d (all.map fun names => folder.join (relativePath names)) = (0, d) := by
  induction all with
  | nil => rfl
  | cons names rest ih =>
    have out := cleared names (by simp) (fun _ => False) d (.refl sound) id
    have later := ih fun other member => cleared other (List.mem_cons_of_mem names member)
    rcases removed : d.remove (folder.join (relativePath names)) with fault | after
    · simp only [List.map_cons, removeAll, removed, later]
    · exact absurd removed (out after)

/-- The files with an extension are removed as far as they can be reached. -/
theorem sweep_drops (sound : d.Sound) (linkless : d.Linkless) (folder : Path) (ending : String) :
    ∃ places, Drops places d
        (removeAll d ((d.filesWithExtension folder ending).map (·.path))).2 ∧
      (removeAll d ((d.filesWithExtension folder ending).map (·.path))).1 = places.length ∧
      (∀ place ∈ places, ∃ names, Carries ending names ∧ place = d.placeOf folder ++ names) ∧
      (removeAll d ((d.filesWithExtension folder ending).map (·.path))).2.Swept folder ending := by
  obtain ⟨all, paths, member⟩ := paths_filesWithExtension folder ending sound
  rw [paths]
  have proper : ∀ names ∈ all, names ≠ [] ∧ ∀ name ∈ names, IsName name := fun names inside =>
    have carries := ((member names).mp inside).2
    ⟨carries.filled, carries.proper⟩
  by_cases opened : d.isFolder folder = true
  · obtain ⟨places, drops, count, known, cleared⟩ := removeAll_drops sound (linkless.plain folder)
      (fun _ => opened) proper
    refine ⟨places, drops, count, fun place gone => ?_, fun names inside carries => ?_⟩
    · obtain ⟨names, inside, rfl⟩ := known place gone
      exact ⟨names, ((member names).mp inside).2, rfl⟩
    · refine cleared names ((member names).mpr ⟨?_, carries⟩)
      refine mem_of_fewer sound linkless (linkless.mono drops.changes) drops.sound
        (linkless.back drops sound) (fun place file => ?_) inside
      exact file.congr (drops.faded file.leaf).symm
  · have none : ∀ names, names ∉ d.filesUnder folder := fun names inside =>
      have ⟨place, found, _⟩ := (mem_filesUnder sound).mp inside
      opened (isFolder_iff.mpr ⟨place, found⟩)
    have empty : all = [] := List.eq_nil_iff_forall_not_mem.mpr fun names inside =>
      none names ((member names).mp inside).1
    rw [empty]
    exact ⟨[], .refl sound, rfl, by simp, fun names inside => absurd inside (none names)⟩

theorem sweep_swept (sound : d.Sound) (swept : d.Swept folder ending) :
    removeAll d ((d.filesWithExtension folder ending).map (·.path)) = (0, d) := by
  obtain ⟨all, paths, member⟩ := paths_filesWithExtension folder ending sound
  rw [paths]
  exact removeAll_cleared sound fun names inside =>
    have ⟨under, carries⟩ := (member names).mp inside
    swept names under carries

end Builder
end LayerCache
