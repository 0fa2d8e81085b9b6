import LayerCache.Proofs.Build.Frame
import LayerCache.Proofs.Removal
import LayerCache.Proofs.Spelling

/-! Units stay in their folders. Whatever text a unit is read from, its file lies below the folder it
is kept or looked for in, down proper names only. In a tree without links no artifact is written or
removed anywhere else, and what else there is makes no difference to what is found. -/
namespace LayerCache

namespace Disk

variable {d d' : Disk} {p : Path} {name : String} {names : List String} {place : Place}

/-- Two disks agree on what stands on the way to where a path leads, and there, and below. -/
structure Agree (p : Path) (d d' : Disk) : Prop where
  here : d'.here = d.here
  way : ∀ place ∈ Disk.way (d.startOf p) p.names, d'.entryAt place = d.entryAt place
  below : ∀ names, d'.entryAt (d.placeOf p ++ names) = d.entryAt (d.placeOf p ++ names)

namespace Agree

theorem startOf (agree : Agree p d d') : d'.startOf p = d.startOf p := by
  rw [Disk.startOf, Disk.startOf, agree.here]

theorem joinName (agree : Agree p d d') (proper : IsName name) : Agree (p.joinName name) d d' := by
  have start : d.startOf (p.joinName name) = d.startOf p := by
    rw [Disk.startOf, Disk.startOf, Path.isAbsolute_joinName proper]
  refine ⟨agree.here, ?_, fun names => ?_⟩
  · intro place member
    rw [start, Path.names_joinName proper, way_append] at member
    rcases List.mem_append.mp member with before | last
    · exact agree.way place before
    · obtain ⟨front, rfl⟩ := way_proper (fun n here => List.mem_singleton.mp here ▸ proper) last
      exact agree.below front
  · rw [placeOf_joinName proper, List.append_assoc]
    exact agree.below _

theorem joinNames (agree : Agree p d d') (proper : ∀ name ∈ names, IsName name) :
    Agree (names.foldl Path.joinName p) d d' := by
  induction names generalizing p with
  | nil => exact agree
  | cons name rest ih =>
    exact ih (agree.joinName (proper name (by simp))) fun n member => proper n (by simp [member])

/-- A path leads to the same. -/
theorem stat (agree : Agree p d d') (plain : d.Plain p) : d'.stat p = d.stat p := by
  obtain ⟨jump, follows⟩ := followLinks_jump d .target mostLinks
  obtain ⟨jump', follows'⟩ := followLinks_jump d' .target mostLinks
  have followed : d'.follow jump' .target (d'.startOf p) p.steps =
      d.follow jump .target (d.startOf p) p.steps := by
    rw [agree.startOf]
    exact follow_agree (.inl ⟨by decide, by decide⟩)
      (fun place member => plain.way place (way_steps member))
      fun place member => agree.way place (way_steps member)
  have found : d'.find .target p = d.find .target p := by
    simp only [Disk.startOf] at followed
    simp only [find, findFrom, follows, follows', followed]
  simp only [Disk.stat, found]

theorem isFile (agree : Agree p d d') (plain : d.Plain p) : d'.isFile p = d.isFile p := by
  simp only [Disk.isFile, agree.stat plain]

theorem read (agree : Agree p d d') (plain : d.Plain p) : d'.read p = d.read p := by
  simp only [Disk.read, agree.stat plain]

end Agree

/-- What lies below a place is listed alike where the disks agree. -/
theorem below_congr (sound : d.Sound) (sound' : d'.Sound)
    (same : ∀ names, d'.entryAt (place ++ names) = d.entryAt (place ++ names)) :
    d'.below place = d.below place := by
  have distinct : ∀ {e : Disk}, e.Sound → (e.below place).Nodup := fun sound =>
    (sorted_below sound place).imp fun {a b} less equal => by
      rw [equal] at less
      exact List.lt_irrefl _ less
  refine List.Perm.eq_of_pairwise
    (fun a b _ _ less (more : place ++ b.1 < place ++ a.1) => absurd less (List.lt_asymm more))
    (sorted_below sound' place) (sorted_below sound place)
    ((List.perm_ext_iff_of_nodup (distinct sound') (distinct sound)).mpr ?_)
  rintro ⟨names, entry⟩
  rw [mem_below, mem_below]
  refine and_congr_right fun filled => ?_
  rw [sound'.mem_pairs (by simp [filled]), sound.mem_pairs (by simp [filled]), same]

theorem Agree.list (agree : Agree p d d') (sound : d.Sound) (sound' : d'.Sound) (plain : d.Plain p) :
    d'.list p = d.list p := by
  simp only [Disk.list, agree.stat plain]
  split
  · rename_i place opened
    rw [below_congr sound sound' (stat_place plain opened ▸ agree.below)]
  · rfl
  · rfl

end Disk

open Disk

/-- Names that lead down from a folder, by at least one step. -/
structure LeadsDown (names : List String) : Prop where
  filled : names ≠ []
  proper : ∀ name ∈ names, IsName name

/-- A path that goes on from a folder by proper names. -/
def Path.HasBelow (folder p : Path) : Prop :=
  ∃ names, LeadsDown names ∧ p = names.foldl Path.joinName folder

/-- A place below the one a path leads to. -/
def Disk.IsBelow (d : Disk) (folder : Path) (place : Place) : Prop :=
  ∃ names, LeadsDown names ∧ place = d.placeOf folder ++ names

theorem Path.HasBelow.place {folder p : Path} (below : folder.HasBelow p) (d : Disk) :
    d.IsBelow folder (d.placeOf p) := by
  obtain ⟨names, down, rfl⟩ := below
  exact ⟨names, down, placeOf_joinNames down.proper⟩

theorem Path.HasBelow.plain {folder p : Path} {d : Disk} (below : folder.HasBelow p)
    (plain : d.Plain folder) : d.Plain p := by
  obtain ⟨names, down, rfl⟩ := below
  exact plain.joinNames down.proper

theorem Path.HasBelow.agree {folder p : Path} {d d' : Disk} (below : folder.HasBelow p)
    (agree : Agree folder d d') : Agree p d d' := by
  obtain ⟨names, down, rfl⟩ := below
  exact agree.joinNames down.proper

theorem UnitId.Reads.tidy {raw : String} {ending : Option String} {u : UnitId}
    (reads : Reads raw ending u) : u.Tidy := reads.eq ▸ tidy_ofLogical raw ending

/-- The file of a unit lies below any folder it is kept in. -/
theorem UnitId.Tidy.hasBelow {u : UnitId} {ending : String} (tidy : u.Tidy) (bare : IsBare ending)
    (folder : Path) : folder.HasBelow (u.pathIn folder ending) :=
  ⟨_, ⟨u.fileNames_ne_nil ending, tidy.proper bare⟩, rfl⟩

namespace ArtifactCache

variable {c : ArtifactCache} {d d' : Disk} {u : UnitId}

/-- Storing a unit changes no file but its own. -/
theorem changes_store_own (below : c.folder.HasBelow (c.pathOf u)) (sound : d.Sound)
    (plain : d.Plain c.folder) (content : ByteArray) :
    Changes (· = d.placeOf (c.pathOf u)) d (c.store d u content).2 := by
  rw [disk_store]
  exact (changes_writeArtifact sound (below.plain plain) content).changes

theorem changes_invalidate (below : c.folder.HasBelow (c.pathOf u)) (sound : d.Sound)
    (plain : d.Plain c.folder) : Changes (· = d.placeOf (c.pathOf u)) d (c.invalidate d u).2 :=
  changes_removeIfThere sound (below.plain plain)

theorem lookup_congr (below : c.folder.HasBelow (c.pathOf u)) (plain : d.Plain c.folder)
    (agree : Agree c.folder d d') : c.contains d' u = c.contains d u ∧ c.read d' u = c.read d u := by
  constructor
  · exact (below.agree agree).isFile (below.plain plain)
  · rw [read, read, (below.agree agree).read (below.plain plain)]

end ArtifactCache

namespace Roots

variable {r : Roots} {d d' : Disk} {u : UnitId} {root : SourceRoot} {folder : Path}
  {wanted names : List String} {f : SourceFile}

theorem descend_congr (agree : Agree folder d d') (sound : d.Sound) (sound' : d'.Sound)
    (plain : d.Plain folder) : descend d' folder wanted = descend d folder wanted := by
  induction wanted generalizing folder with
  | nil => simp only [descend, agree.isFile plain]
  | cons first rest ih =>
    simp only [descend, agree.list sound sound' plain]
    split
    · rfl
    rename_i listing listed
    split
    · rfl
    rename_i name matched
    obtain ⟨_, _, _, _, proper⟩ := mem_list sound listed (List.mem_of_find?_eq_some matched)
    rw [ih (agree.joinName proper) (plain.joinName proper)]

theorem namesIn_congr (below : root.path.HasBelow (u.pathIn root.path r.ending))
    (agree : Agree root.path d d') (sound : d.Sound) (sound' : d'.Sound) (plain : d.Plain root.path) :
    r.namesIn d' u root = r.namesIn d u root := by
  rw [namesIn, namesIn, (below.agree agree).isFile (below.plain plain),
    descend_congr agree sound sound' plain]

theorem resolve_congr
    (below : ∀ root ∈ r.roots, root.path.HasBelow (u.pathIn root.path r.ending)) (sound : d.Sound)
    (sound' : d'.Sound) (alike : ∀ root ∈ r.roots, d.Plain root.path ∧ Agree root.path d d') :
    r.resolve d' u = r.resolve d u := by
  unfold resolve
  split
  · rfl
  refine findSome?_congr fun root member => ?_
  obtain ⟨plain, agree⟩ := alike root member
  rw [namesIn_congr (below root member) agree sound sound' plain]

/-- The walk in any case goes down by proper names, to a file. -/
theorem leadsDown_of_descend (sound : d.Sound) (filled : wanted ≠ [])
    (found : descend d folder wanted = some names) :
    LeadsDown names ∧ d.isFile (names.foldl Path.joinName folder) = true := by
  obtain ⟨same, proper, file⟩ := descend_spec sound found
  refine ⟨⟨?_, proper⟩, file⟩
  rintro rfl
  exact filled (List.map_eq_nil_iff.mp same.symm)

/-- What is found for a unit is a file below one of the roots. -/
theorem resolve_below (tidy : u.Tidy) (bare : IsBare r.ending) (sound : d.Sound)
    (found : r.resolve d u = some f) :
    ∃ root ∈ r.roots, f.rank = root.rank ∧ root.path.HasBelow f.path ∧ d.isFile f.path = true := by
  simp only [resolve] at found
  split at found
  · cases found
  obtain ⟨root, member, file⟩ := List.exists_of_findSome?_eq_some found
  obtain ⟨names, inside, rfl⟩ := Option.map_eq_some_iff.mp file
  obtain ⟨same, proper, there⟩ := namesIn_spec sound tidy bare inside
  refine ⟨root, member, rfl, ⟨names, ⟨?_, proper⟩, rfl⟩, there⟩
  rintro rfl
  exact u.fileNames_ne_nil r.ending (List.map_eq_nil_iff.mp same.symm)

end Roots

/-- Whatever a unit is read from, its artifact, the file it is looked for in and all that can be found
for it lie below their folders. Without links on the way there or below, no other file is changed or
made, and no other file has a say in what is found. -/
theorem unit_stays_below {raw : String} {ending : Option String} {u : UnitId} {c : ArtifactCache}
    {r : Roots} (reads : UnitId.Reads raw ending u) (bare : IsBare c.ending) (clean : IsBare r.ending) :
    c.folder.HasBelow (c.pathOf u) ∧
    (∀ root ∈ r.roots, root.path.HasBelow (u.pathIn root.path r.ending)) ∧
    (∀ d : Disk, d.Sound →
      (∀ root ∈ r.roots, ∀ names,
        Roots.descend d root.path (UnitId.fileNames r.ending u.segments) = some names →
        LeadsDown names) ∧
      (∀ f, r.resolve d u = some f → ∃ root ∈ r.roots, f.rank = root.rank ∧
        root.path.HasBelow f.path ∧ (d.Plain root.path → d.IsFileAt (d.placeOf f.path) ∧
          d.IsBelow root.path (d.placeOf f.path))) ∧
      (d.Plain c.folder → d.IsBelow c.folder (d.placeOf (c.pathOf u)) ∧
        (∀ content, Changes (· = d.placeOf (c.pathOf u)) d (c.store d u content).2) ∧
        Changes (· = d.placeOf (c.pathOf u)) d (c.invalidate d u).2)) ∧
    ∀ d d' : Disk, d.Sound → d'.Sound →
      (d.Plain c.folder → Agree c.folder d d' →
        c.contains d' u = c.contains d u ∧ c.read d' u = c.read d u) ∧
      ((∀ root ∈ r.roots, d.Plain root.path ∧ Agree root.path d d') →
        r.resolve d' u = r.resolve d u) := by
  have tidy := reads.tidy
  have kept : c.folder.HasBelow (c.pathOf u) := tidy.hasBelow bare c.folder
  have sought : ∀ root ∈ r.roots, root.path.HasBelow (u.pathIn root.path r.ending) :=
    fun root _ => tidy.hasBelow clean root.path
  refine ⟨kept, sought, fun d sound => ⟨?_, ?_, ?_⟩, fun d d' sound sound' => ⟨?_, ?_⟩⟩
  · exact fun root _ names found =>
      (Roots.leadsDown_of_descend sound (u.fileNames_ne_nil r.ending) found).1
  · intro f found
    obtain ⟨root, member, rank, below, file⟩ := Roots.resolve_below tidy clean sound found
    refine ⟨root, member, rank, below, fun plain => ⟨?_, below.place d⟩⟩
    exact isFile_spec sound (below.plain plain) file
  · exact fun plain => ⟨kept.place d, ArtifactCache.changes_store_own kept sound plain,
      ArtifactCache.changes_invalidate kept sound plain⟩
  · exact fun plain agree => ArtifactCache.lookup_congr kept plain agree
  · exact fun alike => Roots.resolve_congr sought sound sound' alike

/-- A file that is replaced has no part in what is found elsewhere. -/
theorem Disk.IsFileAt.replaced {d : Disk} {p : Path} {place : Place} (file : d.IsFileAt place)
    (sound : d.Sound) (serial : Nat) (content : ByteArray)
    (aside : place ∉ way (d.startOf p) p.names) (outside : ∀ names, d.placeOf p ++ names ≠ place) :
    (d.set place (.file serial content)).Sound ∧ Agree p d (d.set place (.file serial content)) := by
  have leaf : d.entryAt place ≠ some .folder := fun folder => file.leaf (by simp [leafAt, folder])
  have there : d.entryAt place ≠ none := fun none => file.leaf (by simp [leafAt, none])
  rcases List.eq_nil_or_concat place with rfl | ⟨folder, name, rfl⟩
  · exact absurd rfl leaf
  rw [List.concat_eq_append] at aside outside leaf there ⊢
  obtain ⟨proper, above⟩ := sound.inside folder name there
  have filled : folder ++ [name] ≠ [] := by simp
  refine ⟨(changes_set sound proper above (by simp) (absurd · leaf)).sound,
    rfl, fun other member => ?_, fun names => ?_⟩
  · rw [entryAt_set d filled, if_neg]
    rintro rfl
    exact aside member
  · rw [entryAt_set d filled, if_neg (outside names)]

def dottedFiles : List (String × String) :=
  [("/p/cache/App/.phb", "old"), ("/p/out.phb", "out"), ("/p/src/app/.PHP", "s")]

def dottedCache : ArtifactCache := ⟨⟨"/p/cache"⟩, "phb"⟩

def dottedRoots : Roots := .ofPaths none [⟨"/p/src"⟩] "php"

/-- A unit of whose last name nothing is left. -/
theorem unit_stays_below_dotted :
    let u := UnitId.ofRelative ⟨"./App\\.Php"⟩ "php"
    let d := Disk.ofFiles dottedFiles
    u.logical = "App/" ∧ dottedCache.folder.HasBelow ⟨"/p/cache/App/.phb"⟩ ∧
    (dottedRoots.resolve d u).map (·.path.text) = some "/p/src/app/.PHP" ∧
    Changes (· = ["p", "cache", "App", ".phb"]) d (dottedCache.store d u ByteArray.empty).2 ∧
    dottedRoots.resolve (d.set ["p", "out.phb"] (.file 9 ByteArray.empty)) u =
      dottedRoots.resolve d u := by
  intro u d
  have bare : IsBare "php" := by constructor <;> decide
  have clean : IsBare "phb" := by constructor <;> decide
  have reads : UnitId.Reads "./App\\.Php" (some "php") u := .relative "php"
  obtain ⟨kept, sought, one, two⟩ :=
    unit_stays_below (c := dottedCache) (r := dottedRoots) reads clean bare
  have sound : d.Sound := (changes_ofFiles _).sound
  have path : dottedCache.pathOf u = ⟨"/p/cache/App/.phb"⟩ := by decide +kernel
  have own : d.placeOf ⟨"/p/cache/App/.phb"⟩ = ["p", "cache", "App", ".phb"] := by decide +kernel
  refine ⟨by decide, path ▸ kept, by decide +kernel, ?_, ?_⟩
  · have stored := (((one d sound).2.2 (plain_ofFiles _ _)).2.1 ByteArray.empty)
    rwa [path, own] at stored
  · have there : d.placeOf ⟨"/p/out.phb"⟩ = ["p", "out.phb"] := by decide +kernel
    have file := isFile_spec sound (plain_ofFiles _ ⟨"/p/out.phb"⟩) (by decide +kernel)
    rw [there] at file
    have source : d.placeOf ⟨"/p/src"⟩ = ["p", "src"] := by decide +kernel
    obtain ⟨after, agree⟩ := file.replaced sound 9 ByteArray.empty (p := ⟨"/p/src"⟩) (by decide +kernel)
      (by simp [source])
    refine (two d _ sound after).2 fun root member => ?_
    rw [List.mem_singleton.mp member]
    exact ⟨plain_ofFiles _ _, agree⟩

end LayerCache
