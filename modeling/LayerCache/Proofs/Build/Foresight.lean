import LayerCache.Proofs.Build.Precedence
import LayerCache.Proofs.Build.Depth
import LayerCache.Proofs.Build.Hook
import LayerCache.Proofs.Build.Records
import LayerCache.Proofs.Serials

/-! What a build finds out at any of its stages can be told before it begins. Where the cache lies
apart from all roots, and whatever holds a unit can be opened, nothing that a build writes comes in
the way of a lookup, of a source or archive to be read, or of an artifact still to be written. -/
namespace LayerCache

open Disk

theorem Path.names_joinNames {names : List String} (p : Path) (proper : ∀ name ∈ names, IsName name) :
    (names.foldl joinName p).names = p.names ++ names ∧
      (names.foldl joinName p).isAbsolute = p.isAbsolute := by
  by_cases none : names = []
  · simp [none]
  · rw [foldl_joinName none proper]
    exact ⟨names_joinRelative proper, isAbsolute_join (relative_of_names proper)⟩

theorem EndsIn.of_lower {ending name other : String} (ends : EndsIn ending other)
    (same : Text.lower name = Text.lower other) : EndsIn ending name := by
  obtain ⟨head, old, rfl, alike⟩ := ends
  have chars := congrArg String.toList same
  simp only [Text.toList_lower, String.toList_append, List.map_append, List.append_assoc] at chars
  obtain ⟨front, rest, cut, _, others⟩ := List.map_eq_append_iff.mp chars
  obtain ⟨c, tail, rfl, dot, last⟩ := List.map_eq_cons_iff.mp others
  have dot : c = '.' := (Chars.toLower_eq_iff (by decide) (by decide)).mp dot
  have equal : Text.lower (String.ofList tail) = Text.lower old :=
    String.toList_inj.mp (by simpa using last)
  refine ⟨String.ofList front, String.ofList tail, String.toList_inj.mp (by simp [cut, dot]), ?_⟩
  rw [Text.sameIgnoringCase_iff] at alike ⊢
  exact equal.trans alike

namespace ArtifactCache

variable {d : Disk} {p base : Path} {place : Place} {front : List String} {content : ByteArray}

/-- The folders that come to be with an artifact lie on the way to it, below the open folder that its
path goes through. -/
theorem folder_of_written (sound : d.Sound) (plain : d.Plain base)
    (opened : d.isFolder base = true) (proper : ∀ n ∈ front, IsName n)
    (names : p.names.dropLast = base.names ++ front) (start : p.isAbsolute = base.isAbsolute)
    (folder : (writeArtifact d p content).2.entryAt place = some .folder) :
    d.entryAt place = some .folder ∨
      ∃ more, more ≠ [] ∧ more <+: front ∧ place = d.placeOf base ++ more := by
  have passed : ∀ other ∈ way (d.startOf p) p.names.dropLast, d.entryAt other = some .folder ∨
      ∃ more, more ≠ [] ∧ more <+: front ∧ other = d.placeOf base ++ more := by
    intro other member
    rw [names, way_append, List.mem_append, startOf, start, ← startOf] at member
    exact member.imp (entryAt_way sound plain opened) (mem_way_proper proper)
  have clear : ∀ other ∈ way (d.startOf p) p.names.dropLast, ∀ target,
      d.entryAt other ≠ some (.link target) := by
    intro other member target linked
    rcases passed other member with folder | ⟨more, _, _, rfl⟩
    · rw [folder] at linked
      cases linked
    · exact plain.below more target linked
  exact (folder_of_writeArtifact sound clear folder).elim .inl (passed place)

theorem numbered_writeArtifact (numbered : d.Numbered) (sound : d.Sound) (p : Path)
    (content : ByteArray) : (writeArtifact d p content).2.Numbered := by
  have written : ∀ made : Disk, made.Numbered → made.Sound → (writeFile made p content).2.Numbered := by
    intro made numbered sound
    rcases writeFile_cases made p content with ⟨e, failed⟩ | ⟨d', ok, written⟩
    · rwa [failed]
    · rw [ok]
      exact numbered.write sound written
  unfold writeArtifact
  split
  · exact written d numbered sound
  · rename_i up _
    have made := numbered.makeFolders up
    have after := (changes_makeFolders sound up).sound
    rw [← makeFolder_disk] at made after
    split
    · rename_i ok
      rw [ok] at made after
      exact written _ made after
    · rename_i failed
      rwa [failed] at made

end ArtifactCache

/-- The folders of a source are those of its unit. -/
theorem Roots.folders_below {r : Roots} {root : SourceRoot} {names : List String}
    (carries : Carries r.ending names) (straight : ∀ name ∈ names, '\\' ∉ name.toList) :
    (r.below root names).unit.segments.dropLast = names.dropLast := by
  obtain ⟨proper, front, name, head, old, rfl, parts, same⟩ := carries
  rw [unit_below, UnitId.segments_ofRelative proper straight parts same, List.dropLast_concat,
    List.dropLast_concat]

/-- Two disks on which a path leads to the same, or to no file on either, read the same there. -/
theorem Disk.toOption_read_congr {d d' : Disk} {path : Path} (same : ∀ place entry, entry ≠ .folder →
    (d'.stat path = .ok (place, entry) ↔ d.stat path = .ok (place, entry))) :
    (d'.read path).toOption = (d.read path).toOption := by
  have blank : ∀ e : Disk, (∀ place entry, entry ≠ .folder → e.stat path ≠ .ok (place, entry)) →
      (e.read path).toOption = none := by
    intro e none
    rcases found : e.stat path with fault | ⟨place, entry⟩
    · simp [Disk.read, found, Except.toOption]
    · cases entry with
      | folder => simp [Disk.read, found, Except.toOption]
      | file | _ => exact absurd found (none _ _ (by simp))
  rcases found : d.stat path with fault | ⟨place, entry⟩
  · rw [blank d (by simp [found]), blank d' fun place entry solid now => by
      simp [(same place entry solid).mp now] at found]
  · by_cases solid : entry = .folder
    · have other : ∀ place' entry', entry' ≠ .folder → d.stat path ≠ .ok (place', entry') := by
        rintro _ _ leaf now
        rw [found] at now
        cases now
        exact leaf solid
      rw [blank d other, blank d' fun place entry leaf now =>
        other place entry leaf ((same place entry leaf).mp now)]
    · simp only [Disk.read, found, (same place entry solid).mpr found]

/-- Two disks list the same files of a folder, as far as these stand on both. -/
theorem Disk.filesWithExtension_filter {d d' : Disk} {folder : Path} {place : Place} {ending : String}
    (sound : d.Sound) (sound' : d'.Sound) (opened : d.stat folder = .ok (place, .folder))
    (opened' : d'.stat folder = .ok (place, .folder)) (keep : Listed → Bool)
    (same : ∀ names, Carries ending names → keep (listed folder names) = true →
      (d'.IsFileAt (place ++ names) ↔ d.IsFileAt (place ++ names))) :
    (d'.filesWithExtension folder ending).filter keep =
      (d.filesWithExtension folder ending).filter keep := by
  have carries : ∀ {e : Disk} {names : List String}, e.Sound → e.IsFileAt (place ++ names) →
      (relativePath names).hasExtension ending = true → Carries ending names :=
    fun sound' file ends => (hasExtension_relativePath fun name inside =>
      file.proper sound' name (List.mem_append_right _ inside)).mp ends
  have kept : (d'.filesUnder folder).filter (fun names =>
        (relativePath names).hasExtension ending && keep (listed folder names)) =
      (d.filesUnder folder).filter fun names =>
        (relativePath names).hasExtension ending && keep (listed folder names) := by
    refine List.Perm.eq_of_pairwise (fun a b _ _ less more => absurd less (List.lt_asymm more))
      ((sorted_filesUnder sound' opened').filter _) ((sorted_filesUnder sound opened).filter _) ?_
    refine (List.perm_ext_iff_of_nodup ((nodup_filesUnder sound').filter _)
      ((nodup_filesUnder sound).filter _)).mpr fun names => ?_
    simp only [List.mem_filter, mem_filesUnder sound', mem_filesUnder sound, opened, opened',
      Except.ok.injEq, Prod.mk.injEq, and_true, exists_eq_left', Bool.and_eq_true]
    constructor
    · rintro ⟨⟨filled, file⟩, ends, chosen⟩
      exact ⟨⟨filled, (same names (carries sound' file ends) chosen).mp file⟩, ends, chosen⟩
    · rintro ⟨⟨filled, file⟩, ends, chosen⟩
      exact ⟨⟨filled, (same names (carries sound file ends) chosen).mpr file⟩, ends, chosen⟩
  simp only [filesWithExtension, List.filter_map, Function.comp_def, listed, List.filter_filter,
    Bool.and_comm (keep _)] at kept ⊢
  rw [kept]

/-- What is read at a place where something was written: a device keeps to what it has. -/
def Disk.written (d : Disk) (place : Place) (content : ByteArray) : ByteArray :=
  match d.leafAt place with
  | some (.device device) => device.content
  | _ => content

theorem Disk.written_congr {d d' : Disk} {place : Place} (same : d'.leafAt place = d.leafAt place)
    (content : ByteArray) : d'.written place content = d.written place content := by
  rw [written, same, written]

theorem Disk.Wrote.readAt {d d' : Disk} {place : Place} {content : ByteArray}
    (wrote : Wrote content place d d') : d'.readAt place = some (d.written place content) := by
  by_cases stores : ∃ device, d.entryAt place = some (.device device)
  · obtain ⟨device, there⟩ := stores
    have leaf := (leafAt_eq_some (by simp)).mpr there
    obtain ⟨made, p, above, plain, rfl, written⟩ := wrote
    have still := leaf
    rw [← (above.leaves (made.placeOf p)).resolve_right id, leafAt_eq_some (by simp)] at still
    have same : made = d' := by
      obtain ⟨found, ok, _⟩ := write_changes above.sound written
      have fits := find_fits above.sound ok
      have place := find_place plain ok
      cases found with
      | taken here entry =>
        obtain rfl : here = _ := place
        obtain rfl : entry = .device device := Option.some.inj (fits.symm.trans still)
        simp only [write, ok] at written
        split at written
        · cases written
        · exact Except.ok.inj written
      | free folder name =>
        have free : made.entryAt (folder ++ [name]) = none := fits.2.2
        rw [show folder ++ [name] = made.placeOf p from place, still] at free
        cases free
    subst same
    have kept := (above.leaves (made.placeOf p)).resolve_right id
    simp only [Disk.readAt, kept, leaf, Disk.written]
  · obtain ⟨serial, file⟩ := wrote.file (not_exists.mp stores)
    have other : ∀ device, d.leafAt place ≠ some (.device device) := fun device there =>
      stores ⟨device, (leafAt_eq_some (by simp)).mp there⟩
    have leaf := (leafAt_eq_some (by simp)).mpr file
    simp only [Disk.readAt, leaf]
    unfold Disk.written
    split
    · rename_i device there
      exact absurd there (other device)
    · rfl

/-- What a plan and the archives are to be like for a build to change nothing of what it finds. -/
structure Plan.Foreseeable (plan : Plan) (archives : Archives) (before : Disk) : Prop where
  ground : plan.Grounded before
  bounded : plan.Bounded archives before
  ordered : plan.roots.roots.Pairwise fun a b => a.rank < b.rank
  legible : plan.roots.Legible before
  opened : before.isFolder plan.cache.folder = true
  /-- Files may be added to the folders that are written to. -/
  free : ∀ folder, plan.IsOutput folder → Unfixed (before.placeOf folder)
  apart : ∀ root ∈ plan.roots.roots, ∀ front back,
    before.placeOf root.path ++ front ≠ before.placeOf plan.cache.folder ++ back
  closed : Archives.Each (fun _ state => state = .unopened) archives.archives
  numbered : before.Numbered
  /-- An archive that holds a unit can be opened, -/
  openable : ∀ path ∈ archives.paths, archives.heldAt before path ≠ [] → before.isFile path = true
  /-- and is no source that may be consumed. -/
  lasting : ∀ path ∈ archives.paths, ∀ root ∈ plan.roots.roots, root.generated = true →
    ∀ names, Carries plan.roots.ending names → before.placeOf path ≠ before.placeOf root.path ++ names
  /-- No folder of a unit is named like an artifact. -/
  tame : ∀ u, plan.Provides archives before u → ∀ segment ∈ u.segments.dropLast,
    ¬ EndsIn plan.cache.ending segment

/-- What may be known of an archive: what it held at first. -/
def Archives.Tells (archives : Archives) (before : Disk) (path : Path) : ArchiveState → Prop
  | .unopened => True
  | .unavailable => archives.heldAt before path = []
  | .indexed i => i.owners = archives.heldAt before path ∧
      ∀ j, Archive.index before path archives.ending archives.reserved = .ok j → i.Alike j

/-- Where there may be a folder: where one was at first, or in the cache, where none is named like an
artifact. -/
def Plan.Grounds (plan : Plan) (before : Disk) (place : Place) : Prop :=
  before.entryAt place = some .folder ∨
    ∃ front, front ≠ [] ∧ place = before.placeOf plan.cache.folder ++ front ∧
      ∀ name ∈ front, ¬ EndsIn plan.cache.ending name

/-- A stage of a build that has come in the way of nothing. -/
structure Foreseen (plan : Plan) (archives : Archives) (before : Disk) (heard : Bool)
    (earlier : List UnitSource) (m : Stage) : Prop where
  underway : Underway plan before heard earlier m
  contained : Contained plan archives before m
  numbered : m.pass.disk.Numbered
  folders : ∀ place, m.pass.disk.entryAt place = some .folder → plan.Grounds before place
  /-- What was written is the artifact of a unit that was compiled. -/
  written : ∀ place, m.pass.disk.leafAt place = before.leafAt place ∨
    Carries plan.roots.ending place ∨ ∃ t : Job, t.candidate.Known plan before m.pass.archives ∧
      t.Goes plan before place ∧
      ∃ e ∈ m.pass.log.events, e.outcome = .compiled ∧ e.unit = t.candidate.unit.logical
  told : Archives.Each (fun path state => path ∈ archives.paths → archives.Tells before path state)
    m.pass.archives.archives

section

variable {plan : Plan} {points : List String} {archives : Archives} {before : Disk} {heard : Bool}
  {earlier : List UnitSource} {m next : Stage} {p : Pass}

/-- What a source reads as on a disk. -/
def Origin.contentOn (archives : Archives) (d : Disk) : Origin → Except CompileError ByteArray
  | .root _ path => (d.read path).mapError fun fault => .source (path.text ++ ": " ++ fault.message)
  | .archive r => (archives.read d r).1.mapError fun e => .source e.message

/-- Where the source lies that a job removes after it has written the artifact. -/
def Job.source? (d : Disk) (t : Job) : Option Place :=
  match t.goal, t.candidate.origin with
  | .beside _, .root _ path => some (d.placeOf path)
  | _, _ => none

/-- The entry of a unit in the first archive that holds one. -/
def Archives.holder (as : Archives) (d : Disk) (u : UnitId) : Option EntryRef :=
  as.paths.findSome? fun path => (EntryName.entryIn (as.heldAt d path) u).map (⟨path, ·⟩)

/-- What a build comes upon for a unit that it is asked for. -/
def Plan.provider (plan : Plan) (archives : Archives) (d : Disk) (u : UnitId) : Option Candidate :=
  match plan.roots.resolve d u with
  | some source => some (.ofSource source)
  | none => (archives.holder d u).map (.ofEntry plan.roots.ending)

namespace Pass

theorem load_eq (origin : Origin) (p : Pass) :
    (p.load origin).1 = origin.contentOn p.archives p.disk := by
  cases origin with
  | root rank path =>
    simp only [load, Origin.contentOn]
    rcases p.disk.read path with fault | content <;> rfl
  | archive r =>
    simp only [load, Origin.contentOn]
    rcases p.archives.read p.disk r with ⟨_ | _, _⟩ <;> rfl

theorem store_eq (plan : Plan) (u : UnitId) (goal : Destination) (artifact : ByteArray) (p : Pass) :
    p.store plan u goal artifact =
      ((ArtifactCache.writeArtifact p.disk (goal.path plan u) artifact).1,
        p.setDisk (ArtifactCache.writeArtifact p.disk (goal.path plan u) artifact).2) := by
  cases goal with
  | beside path => rfl
  | cache =>
    simp only [store, ArtifactCache.store, Destination.path]
    rcases ArtifactCache.writeArtifact p.disk (plan.cache.pathOf u) artifact with ⟨_ | _, d⟩ <;> rfl

theorem disk_removeSource_cases (origin : Origin) (goal : Destination) (p : Pass) :
    (p.removeSource origin goal).disk = p.disk ∨
      ∃ path d, p.disk.remove path = .ok d ∧ (p.removeSource origin goal).disk = d := by
  cases goal with
  | cache => exact .inl rfl
  | beside _ =>
    cases origin with
    | archive _ => exact .inl rfl
    | root _ path =>
      rcases removed : p.disk.remove path with fault | d
      · exact .inl (by simp [removeSource, removed, setDisk, Except.toOption])
      · exact .inr ⟨path, d, removed, by simp [removeSource, removed, setDisk, Except.toOption]⟩

/-- A delivery writes an artifact, and may then remove a source. -/
theorem disk_deliver (keeps : Disk → Prop) (plan : Plan) (c : Candidate) (goal : Destination)
    (artifact : ByteArray) (p : Pass)
    (stored : keeps (ArtifactCache.writeArtifact p.disk (goal.path plan c.unit) artifact).2)
    (removes : ∀ d d' path, keeps d → d.remove path = .ok d' → keeps d') :
    keeps (p.deliver plan c goal artifact).disk := by
  have here := p.store_eq plan c.unit goal artifact
  generalize ArtifactCache.writeArtifact p.disk (goal.path plan c.unit) artifact = written at here stored
  rcases p.deliver_cases plan c goal artifact with ⟨e, d, ends, delivered⟩ | ⟨d, ends, delivered⟩
  · obtain rfl : d = _ := congrArg Pass.disk (Prod.mk.inj (ends.symm.trans here)).2
    rw [delivered]
    exact stored
  · obtain rfl : d = _ := congrArg Pass.disk (Prod.mk.inj (ends.symm.trans here)).2
    rw [delivered]
    rcases disk_removeSource_cases c.origin goal (p.setDisk _) with same | ⟨path, d', removed, gone⟩
    · exact same.symm ▸ stored
    · exact gone.symm ▸ removes _ _ path stored removed

end Pass

/-- With a compiler that leaves the disk alone, only a delivery changes it. -/
theorem Move.disk (quiet : plan.service.Quiet) (move : Move plan points m next) :
    next.pass.disk = m.pass.disk ∨ ∃ t ts artifact, m.jobs = t :: ts ∧
      next.pass = m.pass.deliver plan t.candidate t.goal artifact := by
  cases move with
  | replace loud => exact absurd quiet loud
  | @deliver p c goal s ts ss es artifact => exact .inr ⟨⟨c, goal, some s⟩, ts, artifact, rfl, rfl⟩
  | unread | _ => exact .inl rfl

/-- The folders on the way to where a job writes, as names below an open folder. -/
theorem Job.Lawful.way (proper : plan.Proper) {t : Job} (lawful : t.Lawful plan) :
    (∃ front last, t.candidate.unit.segments = front ++ [last] ∧ (∀ n ∈ front, IsName n) ∧ t.goal = .cache ∧
      (t.goal.path plan t.candidate.unit).names.dropLast = plan.cache.folder.names ++ front ∧
      (t.goal.path plan t.candidate.unit).isAbsolute = plan.cache.folder.isAbsolute) ∨
    ∃ root ∈ plan.roots.roots, root.generated = true ∧ ∃ front name,
      Carries plan.roots.ending (front ++ [name]) ∧
      t.candidate = .ofSource (plan.roots.below root (front ++ [name])) ∧
      (t.goal.path plan t.candidate.unit).names.dropLast = root.path.names ++ front ∧
      (t.goal.path plan t.candidate.unit).isAbsolute = root.path.isAbsolute := by
  cases goal : t.goal with
  | cache =>
    obtain ⟨front, last, segments, file⟩ := t.candidate.unit.fileNames_eq plan.cache.ending
    have named := lawful.tidy.proper proper.artifact
    have path : (Destination.cache).path plan t.candidate.unit =
        plan.cache.folder.join (relativePath (front ++ [last ++ "." ++ plan.cache.ending])) := by
      rw [← file]
      exact lawful.tidy.pathIn_eq proper.artifact _
    rw [file] at named
    refine .inl ⟨front, last, segments, fun n inside => named n (by simp [inside]), rfl, ?_, ?_⟩
    · rw [path, Path.names_joinRelative named, ← List.append_assoc, List.dropLast_concat]
    · rw [path, Path.isAbsolute_join (Path.relative_of_names named)]
  | beside path =>
    obtain ⟨root, known, generated, names, carries, source, here⟩ := lawful.beside path goal
    rw [here] at goal ⊢
    obtain ⟨front, name, head, old, rfl, parts, same⟩ := carries.extended
    refine .inr ⟨root, known, generated, front, name, carries, source, ?_⟩
    have target := withExtension_below proper.artifact carries.proper parts root.path
    simp only [Destination.path, Plan.besideSource, Roots.path_below]
    rw [target]
    have lower : ∀ n ∈ front, IsName n := fun n inside => carries.proper n (by simp [inside])
    split
    · -- a file named by dots alone would lie in the place of a folder
      have up : (⟨(front.foldl Path.joinName root.path).lead ++ ".."⟩ : Path) =
          (front.foldl Path.joinName root.path).join ⟨".."⟩ := (Path.join_eq (by decide)).symm
      obtain ⟨text, absolute⟩ := Path.names_joinNames root.path lower
      rw [up, Path.names_join (by decide), Path.isAbsolute_join (by decide), text, absolute]
      exact ⟨by simp [show Path.names ⟨".."⟩ = [".."] by decide], rfl⟩
    · have named := proper_beside proper.artifact carries.proper parts
      rw [Path.names_joinRelative named, ← List.append_assoc, List.dropLast_concat,
        Path.isAbsolute_join (Path.relative_of_names named)]
      exact ⟨rfl, rfl⟩

theorem Archive.index_ok {d : Disk} {path : Path} {ending reserved : String} {i : Index}
    (opened : Archive.index d path ending reserved = .ok i) :
    (∃ place, d.stat path = .ok (place, .file i.serial i.content)) ∧
      ∃ directory, Zip.Directory.ofArchive? i.content = some directory ∧
        i = ⟨i.serial, i.content, directory, .ofNames ending reserved directory.names⟩ := by
  unfold Archive.index at opened
  split at opened
  · rename_i place serial content found
    split at opened
    · rename_i directory read
      cases opened
      exact ⟨⟨place, found⟩, directory, read, rfl⟩
    · cases opened
  · cases opened
  · cases opened

/-- An archive that holds a unit is opened where its file can be. -/
theorem Archives.index_of_held {as : Archives} {d : Disk} (sound : d.Sound) {path : Path}
    (plain : d.Plain path) (file : d.isFile path = true) (held : as.heldAt d path ≠ []) :
    ∃ j, Archive.index d path as.ending as.reserved = .ok j := by
  obtain ⟨place, entry, found⟩ := stat_of_isFile file
  have here := stat_place plain found
  have there := stat_entry sound found
  rw [here] at there
  cases entry with
  | file serial content =>
    unfold Archives.heldAt at held
    simp only [Disk.content?, there, Option.bind_some] at held
    split at held
    · rename_i directory read
      exact ⟨_, by simp only [Archive.index, found, read]; rfl⟩
    · exact absurd rfl held
  | _ => simp [Archives.heldAt, Disk.content?, there] at held

/-- The folders of a source that was there at first. -/
theorem Plan.Foreseeable.source_folder (ahead : plan.Foreseeable archives before) {root : SourceRoot}
    {front : List String} {name : String} (holds : plan.roots.Holds before root (front ++ [name]))
    {more : List String} (shorter : more <+: front) :
    before.entryAt (before.placeOf root.path ++ more) = some .folder := by
  obtain ⟨rest, rfl⟩ := shorter
  have there := holds.there
  rw [List.append_assoc, ← List.append_assoc] at there
  exact ahead.ground.sound.above there (by simp)

namespace Foreseen

theorem frame (foreseen : Foreseen plan archives before heard earlier m) : Frame plan before m :=
  foreseen.underway.midway.frame

theorem known (foreseen : Foreseen plan archives before heard earlier m) {t : Job}
    (inside : t ∈ m.jobs) : t.candidate.Known plan before m.pass.archives :=
  foreseen.underway.sourced.jobs t inside

/-- What was listed may be forgotten. -/
theorem rest {ss : List (SourceRoot × SourceFile)} {es : List EntryRef}
    (foreseen : Foreseen plan archives before heard earlier ⟨p, [], ss, es⟩) :
    Foreseen plan archives before heard earlier ⟨p, [], [], []⟩ := by
  obtain ⟨⟨⟨frame, account⟩, sourced, distinct, kept⟩, contained, numbered, folders, written, told⟩ := foreseen
  have frame : Frame plan before ⟨p, [], [], []⟩ := ⟨frame.changes, by simp, by simp⟩
  have sourced : Sourced plan before ⟨p, [], [], []⟩ := ⟨by simp, by simp, by simp⟩
  exact ⟨⟨⟨frame, account.congr rfl rfl rfl⟩, sourced, distinct, kept⟩,
    ⟨frame, sourced, contained.paths, contained.options, contained.held, contained.spared,
      contained.tracked⟩, numbered, folders, written, told⟩

theorem provides (foreseen : Foreseen plan archives before heard earlier m) {c : Candidate}
    (known : c.Known plan before m.pass.archives) : plan.Provides archives before c.unit :=
  Contained.provides foreseen.contained.paths foreseen.contained.held known

variable (ahead : plan.Foreseeable archives before)
  (foreseen : Foreseen plan archives before heard earlier m)

include ahead foreseen

theorem opened : m.pass.disk.isFolder plan.cache.folder = true :=
  foreseen.frame.changes.isFolder ahead.ground.sound
    (ahead.ground.outputs _ (.inl rfl)) ahead.opened

/-- The file of an archive is left alone. -/
theorem leaf_archive {path : Path} (registered : path ∈ archives.paths) :
    m.pass.disk.leafAt (before.placeOf path) = before.leafAt (before.placeOf path) := by
  rcases foreseen.contained.spared path registered with gone | same
  · rcases foreseen.frame.changes.leaves (before.placeOf path) with same | ⟨_, stands⟩ | consumed
    · exact same
    · exact absurd gone stands
    · obtain ⟨_, root, known, generated, names, carries, here, _⟩ := consumed
      exact absurd here (ahead.lasting path registered root known generated names carries)
  · exact same

/-- Opening an archive tells what it held at first. -/
theorem tells_opening {path : Path} (registered : path ∈ archives.paths) :
    archives.Tells before path (.ofIndex (Archive.index m.pass.disk path m.pass.archives.ending
      m.pass.archives.reserved)) := by
  obtain ⟨ending, reserved⟩ := foreseen.contained.options
  have change := foreseen.frame.changes
  have plain := ahead.bounded.unlinked path registered
  have same := foreseen.leaf_archive ahead registered
  have held : archives.heldAt m.pass.disk path = archives.heldAt before path := by
    rw [Archives.heldAt, change.placeOf, Disk.content?_eq, same, ← Disk.content?_eq, Archives.heldAt]
  rw [ending, reserved]
  rcases opened : Archive.index m.pass.disk path archives.ending archives.reserved with fault | i
  · -- an archive that holds something could have been opened from the first
    by_contra filled
    have file := change.isFile ahead.ground.sound plain
      (ahead.openable path registered filled) same
    obtain ⟨j, now⟩ := Archives.index_of_held change.sound (change.plain plain) file
      (by rw [held]; exact filled)
    rw [opened] at now
    cases now
  · refine ⟨(Archives.heldAt_of_index change.sound (change.plain plain) opened).trans held, ?_⟩
    intro j first
    obtain ⟨⟨place, found⟩, directory, read, whole⟩ := Archive.index_ok opened
    obtain ⟨⟨other, was⟩, another, readable, all⟩ := Archive.index_ok first
    have later := change.stat_same ahead.ground.sound plain was (by simp) same
    rw [found] at later
    obtain ⟨-, serial, content⟩ : place = other ∧ i.serial = j.serial ∧ i.content = j.content := by
      simpa using later
    rw [content, readable] at read
    cases read
    have alike : i = j := by rw [whole, all, serial, content]
    exact alike ▸ Index.Alike.refl i

/-- While an archive is in use its file is read as it was when it was opened. -/
theorem content_kept {path : Path} (registered : path ∈ archives.paths) {j : Index}
    (first : Archive.index before path archives.ending archives.reserved = .ok j) :
    (m.pass.disk.contentOf j.serial).getD j.content = j.content := by
  obtain ⟨⟨place, found⟩, _⟩ := Archive.index_ok first
  have plain := ahead.bounded.unlinked path registered
  have there := stat_entry ahead.ground.sound found
  rw [stat_place plain found] at there
  have same := foreseen.leaf_archive ahead registered
  have leaf : m.pass.disk.leafAt (before.placeOf path) = some (.file j.serial j.content) :=
    same.trans ((leafAt_eq_some (by simp)).mpr there)
  have now := (leafAt_eq_some (by simp)).mp leaf
  rw [foreseen.numbered.contentOf_file foreseen.frame.changes.sound now]
  rfl

theorem told_move (move : Move plan points m next) :
    Archives.Each (fun path state => path ∈ archives.paths → archives.Tells before path state)
      next.pass.archives.archives := by
  have opens : ∀ path ∈ m.pass.archives.paths, path ∈ archives.paths → archives.Tells before path
      (.ofIndex (Archive.index m.pass.disk path m.pass.archives.ending m.pass.archives.reserved)) :=
    fun _ _ registered => foreseen.tells_opening ahead registered
  refine move.looks (fun as => Archives.Each _ as.archives) ?_ ?_ ?_ foreseen.told
  · exact fun _ each => Archives.each_find each opens
  · exact fun _ each => Archives.each_entries each opens
  · refine fun r each => Archives.each_read foreseen.underway.distinct each opens ?_
    intro path i told registered
    obtain ⟨owners, alike⟩ := told registered
    exact ⟨owners, fun j first =>
      ((alike j first).read (foreseen.content_kept ahead registered first) r.entry).2⟩

theorem folders_deliver {t : Job} {ts : List Job} (top : m.jobs = t :: ts) (artifact : ByteArray) :
    ∀ place, (m.pass.deliver plan t.candidate t.goal artifact).disk.entryAt place = some .folder →
      plan.Grounds before place := by
  have change := foreseen.frame.changes
  have known := foreseen.known (t := t) (by simp [top])
  have lawful := foreseen.frame.jobs t (by simp [top])
  refine Pass.disk_deliver (fun d => ∀ place, d.entryAt place = some .folder → plan.Grounds before place) plan
    t.candidate t.goal artifact m.pass (fun place folder => ?_) (fun d d' path all removed place folder =>
      all place (folder_of_remove removed folder))
  rcases lawful.way ahead.ground.proper with
    ⟨front, last, segments, named, _, names, absolute⟩ |
    ⟨root, declared, generated, front, name, carries, source, names, absolute⟩
  · rcases ArtifactCache.folder_of_written change.sound
      (change.plain (ahead.ground.outputs _ (.inl rfl))) (foreseen.opened ahead) named names absolute
      folder with old | ⟨more, filled, shorter, rfl⟩
    · exact foreseen.folders place old
    · refine .inr ⟨more, filled, by rw [change.placeOf], fun name inside => ?_⟩
      refine ahead.tame _ (foreseen.provides known) name ?_
      rw [segments, List.dropLast_concat]
      exact shorter.subset inside
  · have holds := (source ▸ known).holds ahead.ground.proper declared carries.proper
    have there := ahead.ground.orderly.plain root declared
    rcases ArtifactCache.folder_of_written change.sound (change.plain there)
      (change.isFolder ahead.ground.sound there
        (ahead.ground.orderly.reachable root declared _ holds))
      (fun n inside => carries.proper n (by simp [inside])) names absolute folder with
        old | ⟨more, _, shorter, rfl⟩
    · exact foreseen.folders place old
    · rw [change.placeOf]
      exact .inl (ahead.source_folder holds shorter)

theorem move (move : Move plan points m next) :
    Foreseen plan archives before heard earlier next where
  underway := foreseen.underway.move ahead.ground move
  contained := foreseen.contained.move ahead.bounded move
  told := foreseen.told_move ahead move
  numbered := by
    rcases move.disk ahead.ground.quiet with same | ⟨t, ts, artifact, _, delivered⟩
    · rw [same]
      exact foreseen.numbered
    · rw [delivered]
      exact Pass.disk_deliver Numbered plan t.candidate t.goal artifact m.pass
        (ArtifactCache.numbered_writeArtifact foreseen.numbered foreseen.frame.changes.sound _ _)
        fun d d' path numbered removed => numbered.remove removed
  folders := by
    rcases move.disk ahead.ground.quiet with same | ⟨t, ts, artifact, top, delivered⟩
    · rw [same]
      exact foreseen.folders
    · rw [delivered]
      exact foreseen.folders_deliver ahead top artifact
  written := by
    have onward := Onward.of_move move
    have later : ∀ place, (∃ t : Job, t.candidate.Known plan before m.pass.archives ∧
          t.Goes plan before place ∧ ∃ e ∈ m.pass.log.events,
            e.outcome = .compiled ∧ e.unit = t.candidate.unit.logical) →
        ∃ t : Job, t.candidate.Known plan before next.pass.archives ∧ t.Goes plan before place ∧
          ∃ e ∈ next.pass.log.events, e.outcome = .compiled ∧ e.unit = t.candidate.unit.logical := by
      rintro place ⟨t, known, goes, e, told, rest⟩
      exact ⟨t, known.mono onward.settled, goes, e, onward.told told, rest⟩
    intro place
    rcases foreseen.frame.step ahead.ground.proper ahead.ground.outputs ahead.ground.quiet move with
      made | ⟨t, ts, artifact, target, d, top, goes, wrote, after⟩
    · rcases made.leaves place with same | none
      · rw [same]
        exact (foreseen.written place).imp_right (·.imp_right (later place))
      · exact none.elim
    · have known := foreseen.known (t := t) (by simp [top])
      have lawful := foreseen.frame.jobs t (by simp [top])
      have since : Changes (fun _ => True) before m.pass.disk :=
        foreseen.frame.changes.mono fun _ _ => trivial
      have disk : next.pass.disk =
          ((m.pass.setDisk d).removeSource t.candidate.origin t.goal).disk := by rw [after]; rfl
      have gone := changes_removeSource (p := m.pass) ahead.ground.outputs
        (since.trans (wrote.additions.changes.mono fun _ _ => trivial)) lawful
      rcases gone.leaves place with same | source
      · rw [disk, same]
        rcases wrote.additions.changes.leaves place with old | here
        · rw [old]
          exact (foreseen.written place).imp_right (·.imp_right (later place))
        · refine .inr (.inr ⟨t, known.mono onward.settled, here ▸ goes,
            ⟨t.candidate.unit.logical, .compiled, t.candidate.name⟩, ?_, rfl, rfl⟩)
          rw [after]
          simp [Pass.Delivered, Log.events_addCompiled]
      · exact .inr (.inl source)

theorem after {last : Stage} (course : Course plan points m last) :
    Foreseen plan archives before heard earlier last :=
  course.invariant _ (fun _ _ foreseen move => foreseen.move ahead move) foreseen

/-! Lookups in roots. -/

/-- Nothing comes to rival a source: what is new under a root is an artifact. -/
theorem clear : plan.roots.Clear before m.pass.disk := by
  have change := foreseen.frame.changes
  intro root known names holds front name back parts other there lower
  by_cases old : before.entryAt (before.placeOf root.path ++ front ++ [other]) = none
  · exfalso
    have outside : ∀ rest, before.placeOf root.path ++ front ++ [other] ≠
        before.placeOf plan.cache.folder ++ rest := by
      intro rest same
      exact ahead.apart root known (front ++ [other]) rest (by rw [← same, List.append_assoc])
    by_cases folder : m.pass.disk.entryAt (before.placeOf root.path ++ front ++ [other]) =
        some .folder
    · rcases foreseen.folders _ folder with was | ⟨rest, _, same, _⟩
      · rw [old] at was
        cases was
      · exact outside rest same
    have leaf := leafAt_eq folder
    rcases change.leaves (before.placeOf root.path ++ front ++ [other]) with same | ⟨writes, _⟩ |
      ⟨gone, _⟩
    · rw [leaf, leafAt_none old] at same
      exact there same
    · obtain ⟨output, rfl | ⟨owner, declared, generated, rfl⟩, first, last, same, ends⟩ := writes
      · exact outside _ same
      · -- an artifact is named neither like a source nor like a folder above one
        have cut : before.placeOf root.path ++ front ++ [other] =
            before.placeOf owner.path ++ first ++ [last] := by rw [same, List.append_assoc]
        obtain ⟨above, rfl⟩ : before.placeOf root.path ++ front = before.placeOf owner.path ++ first ∧
            other = last := by simpa using List.append_inj' cut rfl
        have named := ends.of_lower lower.symm
        rcases back.eq_nil_or_concat with rfl | ⟨lower, file, rfl⟩
        · have source : Carries plan.roots.ending (before.placeOf root.path ++ names) :=
            holds.1.append (ahead.ground.sound.names holds.there)
          refine @not_isArtifactIn before _ _ owner.path _ ahead.ground.proper.artifact
            ahead.ground.proper.differ source ⟨first, name, ?_, named⟩
          rw [parts, ← List.append_assoc, above, List.append_assoc]
        · refine ahead.tame _ (.source known holds) name ?_ named
          rw [Roots.folders_below holds.1 (ahead.ground.orderly.straight root known names holds), parts]
          rw [List.concat_eq_append, ← List.cons_append, ← List.append_assoc, List.dropLast_concat]
          simp
    · rw [leaf] at gone
      exact there gone
  · exact ahead.legible.clear root known names holds front name back parts other old lower

theorem namesIn_same {u : UnitId} (tidy : u.Tidy) (filled : ∀ segment ∈ u.segments, segment ≠ "")
    (fresh : m.pass.tracker.has u = false) {root : SourceRoot} (known : root ∈ plan.roots.roots) :
    plan.roots.namesIn m.pass.disk u root = plan.roots.namesIn before u root := by
  have ground := ahead.ground
  have change := foreseen.frame.changes
  have plain := ground.orderly.plain root known
  have found : ∀ names, plan.roots.namesIn before u root = some names →
      plan.roots.namesIn m.pass.disk u root = some names := by
    intro names found
    obtain ⟨holds, spelled⟩ := Roots.holds_of_namesIn ground.sound plain tidy ground.proper.source
      filled found
    rcases foreseen.frame.stands_or_tracked ground.proper ground.orderly
      foreseen.underway.midway.account ground.sound known holds with stands | tracked
    · exact foreseen.frame.namesIn_of_holds ground ahead.legible (foreseen.clear ahead) known stands
        tidy spelled
    · have alike := (Roots.spells_iff holds (ground.orderly.straight root known names holds)).mpr
        spelled
      rw [Tracker.has_congr (UnitId.beq_of_lower_eq alike), fresh] at tracked
      cases tracked
  rcases now : plan.roots.namesIn m.pass.disk u root with _ | names
  · rcases was : plan.roots.namesIn before u root with _ | names
    · rfl
    · rw [found names was] at now
      cases now
  · obtain ⟨holds, spelled⟩ := Roots.holds_of_namesIn change.sound (change.plain plain) tidy
      ground.proper.source filled now
    have stood := foreseen.frame.holds_before ground.proper holds
    exact (Roots.namesIn_of_holds ground.sound plain tidy ground.proper.source
      (ground.orderly.reachable root known names stood)
      (ahead.legible.opened root known names stood) (ahead.legible.clear root known names stood) stood
      spelled).symm

/-- A unit that was not taken up is found where it was at first. -/
theorem resolve_same {u : UnitId} (tidy : u.Tidy) (filled : ∀ segment ∈ u.segments, segment ≠ "")
    (fresh : m.pass.tracker.has u = false) :
    plan.roots.resolve m.pass.disk u = plan.roots.resolve before u := by
  unfold Roots.resolve
  split
  · rfl
  · exact findSome?_congr fun root known => by
      rw [foreseen.namesIn_same ahead tidy filled fresh known]

/-! Lookups in archives. -/

theorem holdings_same {path : Path} (registered : path ∈ archives.paths) :
    Archives.holdings (m.pass.archives.openAt m.pass.disk path).1 = archives.heldAt before path := by
  have paths := foreseen.contained.paths
  obtain ⟨a, inside, rfl⟩ := List.mem_map.mp (paths.symm ▸ registered)
  have opened : (m.pass.archives.openAt m.pass.disk a.path).1 = (a.opened m.pass.disk
      m.pass.archives.ending m.pass.archives.reserved).1 :=
    Archives.openIn_eq foreseen.underway.distinct inside rfl
  have tells := foreseen.tells_opening ahead registered
  have told := foreseen.told a inside registered
  rw [opened]
  unfold Archive.opened
  split
  · rename_i i state
    rw [state] at told
    exact told.1
  · rename_i state
    rw [state] at told
    exact told.symm
  · split
    · rename_i i now
      rw [now] at tells
      exact tells.1
    · rename_i fault now
      rw [now] at tells
      exact tells.symm

/-- The archives offer what they held at first. -/
theorem find_same (u : UnitId) :
    (m.pass.archives.find m.pass.disk u).1 = archives.holder before u := by
  rw [Archives.holder, Archives.find_eq foreseen.underway.distinct, foreseen.contained.paths]
  refine findSome?_congr fun path registered => ?_
  rw [← foreseen.holdings_same ahead registered, Archives.entryIn_holdings]

/-- What is found for a unit that was not taken up is what would have been found at first. -/
theorem locate_same {u : UnitId} (tidy : u.Tidy) (filled : ∀ segment ∈ u.segments, segment ≠ "")
    (fresh : m.pass.tracker.has u = false) :
    (m.pass.locate plan u).1 = plan.provider archives before u := by
  have found := foreseen.resolve_same ahead tidy filled fresh
  unfold Pass.locate Plan.provider
  rw [found]
  cases plan.roots.resolve before u with
  | some source => rfl
  | none => exact congrArg (Option.map _) (foreseen.find_same ahead u)

theorem entries_same {path : Path} (registered : path ∈ archives.paths) :
    (m.pass.archives.entries m.pass.disk path).1 =
      Archives.sortedEntries (archives.heldAt before path) := by
  rw [← foreseen.holdings_same ahead registered, Archives.entries_eq]
  rcases (m.pass.archives.openAt m.pass.disk path).1 with fault | i
  · simp [Except.toOption, Archives.holdings, Archives.sortedEntries]
  · exact i.catalog.entries_eq

/-! Sources that are still to be read. -/

omit ahead in
/-- A unit in hand has not come to its end. -/
theorem unfinished {t : Job} (inside : t ∈ m.jobs) {e : Event} (told : e ∈ m.pass.log.events)
    (final : e.isFinal = true) : e.unit ≠ t.candidate.unit.logical := by
  intro same
  have identity : e.identity = t.candidate.unit := by
    rw [Event.identity, same, UnitId.ofLogical_logical]
  have counted := foreseen.underway.midway.account.countP_finals t.candidate.unit
  have one : 0 < (finals m.pass.log.events).countP fun e => e.identity == t.candidate.unit :=
    List.countP_pos_iff.mpr ⟨e, List.mem_filter.mpr ⟨told, final⟩, by rw [identity]; exact UnitId.beq_self _⟩
  have two : 0 < m.jobs.countP fun t' => t'.candidate.unit == t.candidate.unit :=
    List.countP_pos_iff.mpr ⟨t, inside, UnitId.beq_self _⟩
  split at counted <;> omega

omit ahead in
/-- A unit that was not taken up was not compiled. -/
theorem pending {u : UnitId} (fresh : m.pass.tracker.has u = false) :
    ∀ e ∈ m.pass.log.events, e.outcome = .compiled → e.unit ≠ u.logical := by
  intro e told outcome unit
  rw [foreseen.underway.midway.account.tracked told (by simp [Event.isFinal, outcome]) unit] at fresh
  cases fresh

/-- A source stays until its unit is compiled. -/
theorem source_kept {root : SourceRoot} (known : root ∈ plan.roots.roots) {names : List String}
    (holds : plan.roots.Holds before root names)
    (pending : ∀ e ∈ m.pass.log.events, e.outcome = .compiled →
      e.unit ≠ (plan.roots.below root names).unit.logical) :
    m.pass.disk.leafAt (before.placeOf root.path ++ names) =
      before.leafAt (before.placeOf root.path ++ names) := by
  have proper := ahead.ground.proper
  rcases foreseen.frame.changes.leaves (before.placeOf root.path ++ names) with same |
    ⟨⟨folder, _, artifact⟩, _⟩ | ⟨_, other, declared, _, back, _, place, e, told, outcome, unit⟩
  · exact same
  · refine absurd artifact (not_isArtifactIn proper.artifact proper.differ
      (holds.1.append (ahead.ground.sound.names holds.there)))
  · obtain rfl := ahead.ground.orderly.names_eq known declared place
    exact absurd unit (pending e told outcome)

/-- A source whose place can be read is still there. -/
theorem stands {root : SourceRoot} {names : List String} (holds : plan.roots.Holds before root names)
    (read : m.pass.disk.readAt (before.placeOf root.path ++ names) ≠ none) :
    m.pass.disk.IsFileAt (before.placeOf root.path ++ names) := by
  have proper := ahead.ground.proper
  rcases foreseen.frame.changes.leaves (before.placeOf root.path ++ names) with same |
    ⟨⟨folder, _, artifact⟩, _⟩ | ⟨gone, _⟩
  · exact holds.2.congr same
  · exact absurd artifact (not_isArtifactIn proper.artifact proper.differ
      (holds.1.append (ahead.ground.sound.names holds.there)))
  · exact absurd (by simp [Disk.readAt, gone]) read

theorem stat_root {root : SourceRoot} (known : root ∈ plan.roots.roots)
    (opened : before.isFolder root.path = true) :
    m.pass.disk.stat root.path = .ok (before.placeOf root.path, .folder) := by
  have change := foreseen.frame.changes
  have plain := ahead.ground.orderly.plain root known
  obtain ⟨place, found⟩ := isFolder_iff.mp (change.isFolder ahead.ground.sound plain opened)
  rw [found, stat_place (change.plain plain) found, change.placeOf]

/-- A root that could not be opened at first lists nothing. -/
theorem listed_opened {root : SourceRoot} (known : root ∈ plan.roots.roots)
    (closed : before.isFolder root.path = false) : plan.roots.sweep m.pass.disk root = [] := by
  have change := foreseen.frame.changes
  refine List.eq_nil_iff_forall_not_mem.mpr fun f member => ?_
  obtain ⟨names, holds, _⟩ := Roots.holds_of_mem_sweep change.sound
    (change.plain (ahead.ground.orderly.plain root known)) member
  have stood := foreseen.frame.holds_before ahead.ground.proper holds
  rw [ahead.ground.orderly.reachable root known names stood] at closed
  cases closed

theorem read_source {root : SourceRoot} (known : root ∈ plan.roots.roots) {names : List String}
    (holds : plan.roots.Holds before root names)
    (pending : ∀ e ∈ m.pass.log.events, e.outcome = .compiled →
      e.unit ≠ (plan.roots.below root names).unit.logical) :
    m.pass.disk.read (plan.roots.below root names).path =
      before.read (plan.roots.below root names).path := by
  have path : (plan.roots.below root names).path = names.foldl Path.joinName root.path := by
    rw [Roots.path_below, Path.foldl_joinName holds.1.filled holds.1.proper]
  have plain := (ahead.ground.orderly.plain root known).joinNames holds.1.proper
  have kept := foreseen.source_kept ahead known holds pending
  obtain ⟨place, entry, found⟩ := stat_of_isFile (ahead.legible.opened root known names holds)
  have file : entry ≠ .folder := by
    rintro rfl
    have opened := ahead.legible.opened root known names holds
    simp [isFile, found] at opened
  have later := foreseen.frame.changes.stat_same ahead.ground.sound plain found file
    (by rw [placeOf_joinNames holds.1.proper]; exact kept)
  simp only [path, Disk.read, found, later]

/-- An entry that was come upon reads as it would have at first. -/
theorem read_archive {r : EntryRef} {v : UnitId} {held : List (UnitId × String)}
    (settled : m.pass.archives.settled r.archive = some held) (member : (v, r.entry) ∈ held) :
    (m.pass.archives.read m.pass.disk r).1 = (archives.read before r).1 := by
  have sound := ahead.ground.sound
  obtain ⟨a, inside, here, i, state, rfl⟩ := Archives.indexed_of_settledIn settled
    (List.ne_nil_of_mem member)
  have registered : a.path ∈ archives.paths :=
    foreseen.contained.paths ▸ List.mem_map_of_mem inside
  have told := foreseen.told a inside registered
  rw [state] at told
  obtain ⟨owners, alike⟩ := told
  have filled : archives.heldAt before a.path ≠ [] := owners ▸ List.ne_nil_of_mem member
  obtain ⟨j, first⟩ := Archives.index_of_held sound (ahead.bounded.unlinked _ registered)
    (ahead.openable _ registered filled) filled
  have now : (m.pass.archives.openAt m.pass.disk r.archive).1 = .ok i := by
    refine Eq.trans (Archives.openIn_eq foreseen.underway.distinct inside here.symm) ?_
    simp only [Archive.opened, state]
  have was : (archives.openAt before r.archive).1 = .ok j := by
    obtain ⟨b, origin, path⟩ := List.mem_map.mp registered
    refine Eq.trans (Archives.openIn_eq ahead.bounded.distinct origin (path.symm ▸ here.symm)) ?_
    simp only [Archive.opened, ahead.closed b origin, path, first]
  have kept : (before.contentOf j.serial).getD j.content = j.content := by
    obtain ⟨⟨place, found⟩, _⟩ := Archive.index_ok first
    rw [ahead.numbered.contentOf_file sound (stat_entry sound found)]
    rfl
  rw [Archives.read_eq, Archives.read_eq, now, was]
  simp only [Except.bind]
  rw [((alike j first).read (foreseen.content_kept ahead registered first) r.entry).1,
    ((Index.Alike.refl j).read kept r.entry).1]

theorem content_same {c : Candidate} (known : c.Known plan before m.pass.archives)
    (pending : ∀ e ∈ m.pass.log.events, e.outcome = .compiled → e.unit ≠ c.unit.logical) :
    c.origin.contentOn m.pass.archives m.pass.disk = c.origin.contentOn archives before := by
  cases known with
  | source listed holds =>
    have read := foreseen.read_source ahead listed holds pending
    simp only [Candidate.ofSource, Origin.contentOn, read]
  | entry settled member =>
    have read := foreseen.read_archive ahead settled member
    simp only [Candidate.ofEntry, Origin.contentOn, read]

/-- The source of a unit in hand reads as it did at first. -/
theorem load_same {t : Job} (inside : t ∈ m.jobs) :
    (m.pass.load t.candidate.origin).1 = t.candidate.origin.contentOn archives before := by
  rw [Pass.load_eq]
  exact foreseen.content_same ahead (foreseen.known inside) fun e told outcome =>
    foreseen.unfinished inside told (by simp [Event.isFinal, outcome])

/-! Artifacts that are still to be written. -/

/-- Nothing but a file in a place that artifacts have stands below the cache. -/
theorem leaf_below_cache {front : List String} (filled : front ≠ [])
    (tame : ∀ name ∈ front, ¬ EndsIn plan.cache.ending name) :
    m.pass.disk.leafAt (before.placeOf plan.cache.folder ++ front) =
      before.leafAt (before.placeOf plan.cache.folder ++ front) := by
  rcases foreseen.frame.changes.leaves (before.placeOf plan.cache.folder ++ front) with same |
    ⟨⟨folder, output, first, last, place, ends⟩, _⟩ | ⟨_, root, declared, _, _, _, place, _⟩
  · exact same
  · rcases output with rfl | ⟨root, declared, _, rfl⟩
    · obtain rfl := List.append_cancel_left place
      exact absurd ends (tame last (by simp))
    · exact absurd place.symm (ahead.apart root declared _ _)
  · exact absurd place.symm (ahead.apart root declared _ _)

/-- The artifact of a unit that is still to be compiled stands as it was. -/
theorem leaf_cached {u : UnitId} (tidy : u.Tidy) (straight : u.Straight)
    (pending : ∀ e ∈ m.pass.log.events, e.outcome = .compiled → e.unit ≠ u.logical) :
    m.pass.disk.leafAt (plan.cache.placeFor before u) = before.leafAt (plan.cache.placeFor before u) := by
  have homed : plan.Homed before := fun root known _ front back same =>
    absurd same (ahead.apart root known front back)
  rcases foreseen.written (plan.cache.placeFor before u) with same | source |
    ⟨t, _, goes, e, told, outcome, unit⟩
  · exact same
  · exact absurd source (ArtifactCache.not_carries_placeFor ahead.ground.proper.artifact
      ahead.ground.proper.differ before tidy)
  · exact absurd (unit.trans (goes.logical ahead.ground.proper homed straight))
      (pending e told outcome)

/-- What is cached of a unit that was not taken up was cached at first. -/
theorem cached_same {u : UnitId} (tidy : u.Tidy) (straight : u.Straight)
    (fresh : m.pass.tracker.has u = false) :
    plan.cache.read m.pass.disk u = plan.cache.read before u := by
  have ground := ahead.ground
  have change := foreseen.frame.changes
  have plain := ground.outputs _ (.inl rfl)
  obtain ⟨front, last, _, file⟩ := u.fileNames_eq plan.cache.ending
  have named := tidy.proper ground.proper.artifact
  have path : plan.cache.pathOf u =
      (front ++ [last ++ "." ++ plan.cache.ending]).foldl Path.joinName plan.cache.folder := by
    rw [← file]
    rfl
  have leaf := foreseen.leaf_cached ahead tidy straight (foreseen.pending fresh)
  rw [ArtifactCache.placeFor, file] at leaf
  rw [file] at named
  have clear := plain.joinNames named
  refine toOption_read_congr fun place entry solid => ?_
  rw [path]
  exact ⟨fun found => change.stat_before ground.sound plain ahead.opened named found solid leaf,
    fun found => change.stat_same ground.sound clear found solid
      (by rw [placeOf_joinNames named]; exact leaf)⟩

/-- Whether an earlier record is kept can be told by the units that were taken up. -/
theorem stillHolds_eq (logical : String) (r : ArtifactRecord) :
    m.pass.stillHolds plan logical r = (!(UnitId.ofSymbol logical).isEmpty &&
      !m.pass.tracker.has (.ofSymbol logical) &&
      (plan.cache.read before (.ofSymbol logical)).any fun artifact =>
        Digest.ofContent artifact == r.checksum) := by
  rw [Pass.stillHolds]
  cases tracked : m.pass.tracker.has (.ofSymbol logical) with
  | true => simp
  | false =>
    rw [foreseen.cached_same ahead (UnitId.tidy_ofSymbol logical) (UnitId.straight_ofLogical _ _) tracked]

/-- So does one that is to lie beside its source. -/
theorem leaf_beside {root : SourceRoot} (known : root ∈ plan.roots.roots)
    (generated : root.generated = true) {front : List String} {name head old : String}
    (holds : plan.roots.Holds before root (front ++ [name])) (parts : Path.Extends name head old)
    (alike : Text.sameIgnoringCase old plan.roots.ending = true)
    (pending : ∀ e ∈ m.pass.log.events, e.outcome = .compiled →
      e.unit ≠ (plan.roots.below root (front ++ [name])).unit.logical) :
    m.pass.disk.leafAt (before.placeOf root.path ++ (front ++ [head ++ "." ++ plan.cache.ending])) =
      before.leafAt (before.placeOf root.path ++ (front ++ [head ++ "." ++ plan.cache.ending])) := by
  have ground := ahead.ground
  rcases foreseen.written (before.placeOf root.path ++ (front ++ [head ++ "." ++ plan.cache.ending]))
    with same | source | ⟨t, came, goes, e, told, outcome, unit⟩
  · exact same
  · exact absurd ⟨front, _, rfl, head, plan.cache.ending, rfl, Text.sameIgnoringCase_self _⟩
      (@not_isArtifactIn before _ _ root.path _ ground.proper.artifact ground.proper.differ source)
  · -- the artifacts of two sources lie in one place only if they differ in the case of extensions
    generalize place : before.placeOf root.path ++ (front ++ [head ++ "." ++ plan.cache.ending]) = target
      at goes
    cases goes with
    | cached => exact absurd place (ahead.apart root known _ _)
    | @beside other front' name' head' old' declared also proper parts' alike' source =>
      have names := ground.orderly.names_eq known declared place
      obtain ⟨rfl, last⟩ := List.append_inj' names rfl
      have heads : head = head' := by simpa [String.append_assoc] using last
      subst heads
      have stands := (source ▸ came).holds ground.proper declared proper
      have lower : Text.lower name' = Text.lower name := by
        rw [parts.1, parts'.1, Text.lower_append, Text.lower_append _ old,
          Text.sameIgnoringCase_iff.mp alike, Text.sameIgnoringCase_iff.mp alike']
      have there := stands.there
      rw [ground.single other declared root known also generated, ← List.append_assoc] at there
      obtain rfl := ahead.legible.clear root known _ holds front name [] rfl name' there lower
      exact absurd (unit.trans (by rw [source]; rfl)) (pending e told outcome)

/-- What stands where an artifact is still to be written stood there at first. -/
theorem leaf_goes {t : Job} (inside : t ∈ m.jobs) {place : Place} (goes : t.Goes plan before place) :
    m.pass.disk.leafAt place = before.leafAt place := by
  have lawful := foreseen.frame.jobs t inside
  have known := foreseen.known inside
  have pending : ∀ e ∈ m.pass.log.events, e.outcome = .compiled →
      e.unit ≠ t.candidate.unit.logical := fun e told outcome =>
    foreseen.unfinished inside told (by simp [Event.isFinal, outcome])
  cases goes with
  | cached => exact foreseen.leaf_cached ahead lawful.tidy lawful.straight pending
  | beside declared generated proper parts alike source =>
    have holds := (source ▸ known).holds ahead.ground.proper declared proper
    exact foreseen.leaf_beside ahead declared generated holds parts alike
      (by rw [source] at pending; exact pending)

/-- What becomes of storing an artifact is what would have become of it at first. -/
theorem store_same {t : Job} (inside : t ∈ m.jobs) (artifact : ByteArray) :
    (m.pass.store plan t.candidate.unit t.goal artifact).1 =
      (ArtifactCache.writeArtifact before (t.goal.path plan t.candidate.unit) artifact).1 := by
  have ground := ahead.ground
  have change := foreseen.frame.changes
  have known := foreseen.known inside
  have lawful := foreseen.frame.jobs t inside
  have pending : ∀ e ∈ m.pass.log.events, e.outcome = .compiled →
      e.unit ≠ t.candidate.unit.logical := fun e told outcome =>
    foreseen.unfinished inside told (by simp [Event.isFinal, outcome])
  rw [Pass.store_eq]
  cases goal : t.goal with
  | cache =>
    obtain ⟨front, last, segments, file⟩ := t.candidate.unit.fileNames_eq plan.cache.ending
    have named := lawful.tidy.proper ground.proper.artifact
    have path : (Destination.cache).path plan t.candidate.unit =
        (front ++ [last ++ "." ++ plan.cache.ending]).foldl Path.joinName plan.cache.folder := by
      rw [← file]
      rfl
    rw [file] at named
    rw [path]
    refine ArtifactCache.writeArtifact_same change ground.sound (ground.outputs _ (.inl rfl))
      ahead.opened (ahead.free _ (.inl rfl)) named ?_ ?_ artifact
    · intro more filled shorter
      rcases List.prefix_concat_iff.mp shorter with rfl | inside
      · rw [← file]
        exact foreseen.leaf_cached ahead lawful.tidy lawful.straight pending
      · refine foreseen.leaf_below_cache ahead filled fun name member => ?_
        refine ahead.tame _ (foreseen.provides known) name ?_
        rw [segments, List.dropLast_concat]
        exact inside.subset member
    · intro folder
      rcases foreseen.folders _ folder with was | ⟨rest, _, same, tame⟩
      · exact was
      · obtain rfl := List.append_cancel_left same
        exact absurd ⟨last, plan.cache.ending, rfl, Text.sameIgnoringCase_self _⟩
          (tame (last ++ "." ++ plan.cache.ending) (by simp))
  | beside path =>
    obtain ⟨root, declared, generated, names, carries, source, here⟩ := lawful.beside path goal
    rw [here] at goal ⊢
    obtain ⟨front, name, head, old, rfl, parts, alike⟩ := carries.extended
    have plain := ground.orderly.plain root declared
    have holds := (source ▸ known).holds ground.proper declared carries.proper
    have opened := ground.orderly.reachable root declared _ holds
    have target := withExtension_below ground.proper.artifact carries.proper parts root.path
    simp only [Destination.path, Plan.besideSource, Roots.path_below]
    rw [target]
    split
    · have lower : ∀ n ∈ front, IsName n := fun n inside => carries.proper n (by simp [inside])
      have up : (⟨(front.foldl Path.joinName root.path).lead ++ ".."⟩ : Path) =
          (front.foldl Path.joinName root.path).joinName ".." := (Path.join_eq (by decide)).symm
      obtain ⟨place, entry, found⟩ := stat_of_isFile (ahead.legible.opened root declared _ holds)
      have folder : before.isFolder (front.foldl Path.joinName root.path) = true :=
        isFolder_iff.mpr ⟨_, stat_of_joinNames (by simp) plain carries.proper
          (filled_of_isFolder opened) found⟩
      have clear := plain.joinNames lower
      rw [up, ArtifactCache.writeArtifact_up ground.sound clear folder,
        ArtifactCache.writeArtifact_up change.sound (change.plain clear)
          (change.isFolder ground.sound clear folder)]
    · have named := proper_beside ground.proper.artifact carries.proper parts
      rw [← Path.foldl_joinName (by simp) named]
      refine ArtifactCache.writeArtifact_same change ground.sound plain opened
        (ahead.free _ (.inr ⟨root, declared, generated, rfl⟩)) named ?_ ?_ artifact
      · intro more filled shorter
        rcases List.prefix_concat_iff.mp shorter with rfl | inside
        · exact foreseen.leaf_beside ahead declared generated holds parts alike
            (by rw [source] at pending; exact pending)
        · have folder := ahead.source_folder holds inside
          rw [leafAt_folder folder, leafAt_folder (change.folders _ folder)]
      · intro folder
        rcases foreseen.folders _ folder with was | ⟨rest, _, same, _⟩
        · exact was
        · exact absurd same (ahead.apart root declared _ _)

/-- What a delivery does: it leaves all files alone if the artifact cannot be written, and else writes
it, over nothing but what stood there at first, and removes a source that was generated. -/
theorem delivered {t : Job} {ts : List Job} (top : m.jobs = t :: ts) (artifact : ByteArray) :
    (∃ e d, (ArtifactCache.writeArtifact before (t.goal.path plan t.candidate.unit) artifact).1 =
        .error e ∧ m.pass.deliver plan t.candidate t.goal artifact =
          (m.pass.setDisk d).fail t.candidate e.message none ∧
        ∀ place, d.leafAt place = m.pass.disk.leafAt place) ∨
    (ArtifactCache.writeArtifact before (t.goal.path plan t.candidate.unit) artifact).1 = .ok () ∧
      t.Goes plan before (t.target plan before) ∧
      ∃ d, m.pass.deliver plan t.candidate t.goal artifact =
          { m.pass.record t.candidate.unit t.candidate.origin artifact with
            disk := d
            log := m.pass.log.addCompiled t.candidate.unit.logical t.candidate.name } ∧
        ∀ place, d.readAt place =
          if place = t.target plan before then some (before.written place artifact)
          else if t.source? before = some place then none
          else m.pass.disk.readAt place := by
  have ground := ahead.ground
  have proper := ground.proper
  have change := foreseen.frame.changes
  have inside : t ∈ m.jobs := top ▸ List.mem_cons_self
  have lawful := foreseen.frame.jobs t inside
  have same := foreseen.store_same ahead inside artifact
  rcases m.pass.deliver_cases plan t.candidate t.goal artifact with
    ⟨e, d, stored, delivered⟩ | ⟨d, stored, delivered⟩
  all_goals
    rw [stored] at same
    have cases := stored_at proper ground.outputs change lawful stored
  · rcases cases with ⟨_, made⟩ | ⟨ok, _⟩
    · exact .inl ⟨e, d, same.symm, delivered, fun place => (made.leaves place).resolve_right id⟩
    · cases ok
  · rcases cases with ⟨⟨e, error⟩, _⟩ | ⟨_, goes, wrote⟩
    · cases error
    refine .inr ⟨same.symm, goes, _, delivered, fun place => ?_⟩
    have sound := wrote.additions.sound
    have stored : ∀ place, d.readAt place = if place = t.target plan before then
        some (before.written place artifact) else m.pass.disk.readAt place := by
      intro place
      split
      · rename_i target
        rw [target, wrote.readAt, written_congr (foreseen.leaf_goes ahead inside goes)]
      · rename_i other
        exact readAt_congr ((wrote.additions.leaves place).resolve_right fun within => other within.1)
    cases goal : t.goal with
    | cache =>
      have none : t.source? before = none := by simp [Job.source?, goal]
      simpa [none, Pass.removeSource, Pass.setDisk] using stored place
    | beside path =>
      obtain ⟨root, declared, generated, names, carries, source, here⟩ := lawful.beside path goal
      rw [here] at goal ⊢
      have holds := (source ▸ foreseen.known inside).holds proper declared carries.proper
      have plain := ground.orderly.plain root declared
      have here : before.placeOf (plan.roots.below root names).path = before.placeOf root.path ++ names :=
        placeOf_joinRelative carries.proper
      have apart : before.placeOf root.path ++ names ≠ t.target plan before := by
        intro same
        rw [← same] at goes
        generalize place : before.placeOf root.path ++ names = target at goes
        cases goes with
        | cached cached => simp [goal] at cached
        | @beside other front name head old also _ _ _ _ _ =>
          have source : Carries plan.roots.ending (before.placeOf root.path ++ names) :=
            carries.append (ground.sound.names holds.there)
          obtain rfl := ground.orderly.names_eq declared also place
          exact absurd ⟨front, _, rfl, head, plan.cache.ending, rfl, Text.sameIgnoringCase_self _⟩
            (@not_isArtifactIn before _ _ root.path _ proper.artifact proper.differ source)
      have whole : Changes (fun _ => True) before d := (change.mono fun _ _ => trivial).trans
        (wrote.additions.changes.mono fun _ _ => trivial)
      have kept : d.leafAt (before.placeOf root.path ++ names) =
          before.leafAt (before.placeOf root.path ++ names) := by
        rw [(wrote.additions.leaves _).resolve_right fun within => apart within.1]
        refine foreseen.source_kept ahead declared holds fun e told outcome => ?_
        have ended := foreseen.unfinished inside told (by simp [Event.isFinal, outcome])
        rw [source] at ended
        exact ended
      have file : d.isFile (plan.roots.below root names).path = true := by
        have path : (plan.roots.below root names).path = names.foldl Path.joinName root.path := by
          rw [Roots.path_below, Path.foldl_joinName carries.filled carries.proper]
        rw [path]
        refine whole.isFile ground.sound (plain.joinNames carries.proper)
          (ahead.legible.opened root declared names holds) ?_
        rw [placeOf_joinNames carries.proper, kept]
      obtain ⟨gone, removed⟩ := remove_of_isFile sound (whole.plain plain) carries.proper carries.filled file
      have drops := Drops.of_remove sound ((whole.plain plain).join carries.proper) removed
      rw [show d.placeOf (root.path.join (relativePath names)) = before.placeOf root.path ++ names from
        (whole.placeOf _).trans here] at drops
      have taken : t.source? before = some (before.placeOf root.path ++ names) := by
        simp only [Job.source?, goal, source, Candidate.origin_ofSource, here]
      have result : ((m.pass.setDisk d).removeSource t.candidate.origin
          (.beside (plan.besideSource (plan.roots.below root names).path))).disk = gone := by
        rw [source, Candidate.origin_ofSource]
        have removed : d.remove (plan.roots.below root names).path = .ok gone := removed
        simp only [Pass.removeSource, Pass.setDisk, removed, Except.toOption, Option.getD_some]
      rw [result, taken]
      have leaf := drops.leafAt place
      simp only [List.mem_singleton] at leaf
      by_cases target : place = t.target plan before
      · rw [if_pos target, readAt_congr (leaf.trans (if_neg fun same => apart (same.symm.trans target))),
          stored, if_pos target]
      · rw [if_neg target]
        by_cases mine : place = before.placeOf root.path ++ names
        · rw [if_pos (congrArg some mine.symm)]
          rw [if_pos mine] at leaf
          simp [Disk.readAt, leaf]
        · rw [if_neg fun same => mine (Option.some.inj same).symm, readAt_congr (leaf.trans (if_neg mine)),
            stored, if_neg target]

end Foreseen

end

/-! A plan with another compiler comes upon the same. -/

section

variable {plan : Plan} {archives : Archives} {d : Disk} {other : Service}

theorem Candidate.Known.withService {c : Candidate} (known : c.Known plan d archives) :
    c.Known (plan.withService other) d archives := by
  cases known with
  | source listed holds => exact @Candidate.Known.source (plan.withService other) _ _ _ _ listed holds
  | entry settled member => exact .entry settled member

theorem Plan.Provides.withService {u : UnitId} (provided : plan.Provides archives d u)
    (other : Service) : (plan.withService other).Provides archives d u := by
  cases provided with
  | source listed holds => exact @Plan.Provides.source (plan.withService other) _ _ _ _ listed holds
  | entry registered member => exact .entry registered member

theorem Plan.provider_withService (u : UnitId) :
    (plan.withService other).provider archives d u = plan.provider archives d u := by
  simp only [Plan.provider, Plan.withService]

theorem Plan.destination_withService (origin : Origin) :
    (plan.withService other).destination origin = plan.destination origin := rfl

theorem Job.Goes.withService {t : Job} {place : Place} (goes : t.Goes plan d place)
    (other : Service) : t.Goes (plan.withService other) d place := by
  cases goes with
  | cached goal => exact .cached goal
  | beside known generated proper parts same source =>
    have own : (plan.withService other).cache = plan.cache := rfl
    rw [← own]
    exact .beside known generated proper parts same source

theorem Plan.Spares.withService (spares : plan.Spares archives d) :
    (plan.withService other).Spares archives d :=
  fun t provided place goes => spares t (provided.withService plan.service) place
    (goes.withService plan.service)

theorem Plan.Foreseeable.withService (ahead : plan.Foreseeable archives d) (quiet : other.Quiet) :
    (plan.withService other).Foreseeable archives d where
  ground :=
    { ahead.ground with
      proper := { ahead.ground.proper with }
      quiet := quiet }
  bounded :=
    { ahead.bounded with
      proper := { ahead.ground.proper with }
      quiet := quiet
      spares := ahead.bounded.spares.withService }
  ordered := ahead.ordered
  legible := ahead.legible
  opened := ahead.opened
  free := ahead.free
  apart := ahead.apart
  closed := ahead.closed
  numbered := ahead.numbered
  openable := ahead.openable
  lasting := ahead.lasting
  tame u provided := ahead.tame u (provided.withService plan.service)

end

/-- Nobody stops a build that nobody asks to stop. -/
theorem Course.calm {plan : Plan} {points : List String} {m next : Stage} (endless : plan.cancel = .never)
    (course : Course plan points m next) (calm : m.pass.cancelled = false) : next.pass.cancelled = false := by
  refine course.invariant (fun m => m.pass.cancelled = false) (fun m next calm move => ?_) calm
  cases move with
  | check => simpa [Pass.check, endless, Cancel.never] using calm
  | @deliver p c goal _ _ _ _ artifact _ =>
    rcases p.deliver_cases plan c goal artifact with ⟨_, _, _, ends⟩ | ⟨_, _, ends⟩ <;>
      rw [ends] <;> exact calm
  | unread | _ => exact calm

section

variable {plan : Plan} {p q : Pass}

/-- What is kept of earlier records depends on none of the notes about stopping. -/
theorem Pass.Agrees.carryOver {plan' : Plan} (cache : plan'.cache = plan.cache) (agrees : p.Agrees q)
    (previous : Option Manifest) :
    (p.carryOver plan' previous).manifest = (q.carryOver plan previous).manifest := by
  have holds : p.stillHolds plan' = q.stillHolds plan := by
    funext logical r
    simp only [Pass.stillHolds, agrees.tracker, agrees.disk, cache]
  cases previous with
  | none => exact agrees.manifest
  | some m => simp only [Pass.carryOver, agrees.manifest, holds]

end

namespace Builder

variable {b : Builder} {env : Environment} {heard : Bool} {cancel : Cancel} {s s' : Site}
  {summary : Summary}

/-- A project whose cache lies apart from its sources, all of which can be opened before a build. -/
structure Sheltered (b : Builder) (env : Environment) (d : Disk) : Prop where
  sound : d.Sound
  numbered : d.Numbered
  named : b.layout.cache.text ≠ ""
  plain : d.Plain b.layout.cache
  orderly : (b.roots env).Orderly d
  legible : (b.roots env).Legible d
  /-- The folder of the cache, when it is made, does not come to rival one on the way to a source. -/
  clear : (b.roots env).Clear d (b.cache.ensureFolder d).2
  apart : ∀ root ∈ (b.roots env).roots, ∀ front back,
    d.placeOf root.path ++ front ≠ d.placeOf b.layout.cache ++ back
  free : ∀ folder ∈ [b.layout.cache, b.layout.generated], Unfixed (d.placeOf folder)
  unlinked : ∀ path ∈ b.archives.paths, d.Plain path
  openable : ∀ path ∈ b.archives.paths, b.archives.heldAt d path ≠ [] → d.isFile path = true
  /-- No archive lies where an artifact is written, -/
  spares : (b.plan env .never).Spares b.archives d
  /-- or where a source is that may be consumed. -/
  lasting : ∀ path ∈ b.archives.paths, ∀ names, Carries b.layout.naming.sourceExt names →
    d.placeOf path ≠ d.placeOf b.layout.generated ++ names
  tame : ∀ u, (b.plan env .never).Provides b.archives d u → ∀ segment ∈ u.segments.dropLast,
    ¬ EndsIn b.layout.naming.artifactExt segment

theorem Sheltered.foreseeable {config : Config} {project : Path} (accepted : config.check = .ok ())
    (layout : b.layout = .resolve project config) (quiet : b.service.Quiet)
    (sheltered : b.Sheltered env s.disk)
    (made : b.cache.ensureFolder s.disk = (.ok (), (b.cache.ensureFolder s.disk).2)) :
    (b.plan env .never).Foreseeable b.archives (b.cache.ensureFolder s.disk).2 := by
  have sound := sheltered.sound
  have change := b.ensured sound
  have roots := sheltered.orderly.plain
  have generated : ∀ root ∈ (b.roots env).roots, root.generated = true →
      root.path = b.layout.generated := by
    intro root known marked
    have path := Roots.mem_ofPaths known
    rw [if_pos marked] at path
    exact (Option.some.inj path).symm
  exact {
    ground := grounded accepted layout quiet change.sound (change.plain sheltered.plain)
      (sheltered.orderly.mono sound change)
    bounded := bounded accepted layout quiet change.sound (change.plain sheltered.plain)
      (fun root known => change.plain (roots root known))
      (fun path known => change.plain (sheltered.unlinked path known)) (sheltered.spares.mono change)
    ordered := b.ranks env
    legible := sheltered.legible.mono sound roots change sheltered.clear
    opened := by
      have folders : s.disk.makeFolders b.layout.cache = (.ok (), (b.cache.ensureFolder s.disk).2) := by
        simp only [ArtifactCache.ensureFolder, ArtifactCache.makeFolder] at made ⊢
        rcases folders : s.disk.makeFolders b.cache.folder with ⟨fault | _, d⟩
        · simp [folders] at made
        · exact folders
      obtain ⟨ups, cut⟩ := Path.go_cons b.layout.cache.text.length b.layout.cache
      rw [makeFolders, Path.ancestors, cut] at folders
      exact (isFolder_of_makeFoldersOf sound folders).resolve_left sheltered.named
    free := by
      intro folder output
      rw [change.placeOf]
      rcases output with rfl | ⟨root, known, marked, rfl⟩
      · exact sheltered.free _ (by simp [plan, cache])
      · exact sheltered.free _ (by simp [generated root known marked])
    apart := by
      intro root known front back
      rw [change.placeOf, change.placeOf]
      exact sheltered.apart root known front back
    closed := b.archives_closed
    numbered := by
      have folders := sheltered.numbered.makeFolders b.layout.cache
      rwa [← ArtifactCache.makeFolder_disk] at folders
    openable := by
      intro path known filled
      rw [b.archives.heldAt_congr change] at filled
      exact change.isFile sound (sheltered.unlinked path known) (sheltered.openable path known filled)
        ((change.leaves _).resolve_right id)
    lasting := by
      intro path known root member marked names carries
      rw [change.placeOf, change.placeOf, generated root member marked]
      exact sheltered.lasting path known names carries
    tame := fun u provided => sheltered.tame u ((Plan.Provides.congr change).mp provided) }

/-- Nothing has come in the way of a build that has not begun. -/
theorem foreseen_start (ahead : (b.plan env cancel).Foreseeable b.archives
      (b.cache.ensureFolder s.disk).2) (sound : s.disk.Sound) :
    Foreseen (b.plan env cancel) b.archives (b.cache.ensureFolder s.disk).2 heard s.called
      ⟨b.start env heard s, [], [], []⟩ where
  underway := b.underway_start env heard cancel sound
  contained := b.contained_start env heard cancel sound
  numbered := ahead.numbered
  folders _ folder := .inl folder
  written _ := .inl rfl
  told a inside := by
    rw [b.archives_closed a inside]
    exact fun _ => trivial

/-- A build that was not stopped ends as one that nobody stops. -/
theorem settled_agrees (calm : (b.settled env heard cancel s).cancelled = false) :
    (b.settled env heard cancel s).Agrees (b.settled env heard .never s) := by
  rcases b.settled_follows env heard cancel s with abreast | ⟨stopped, _⟩
  · exact abreast.agrees
  · rw [calm] at stopped
    cases stopped

theorem filled_agrees (calm : (b.settled env heard cancel s).cancelled = false) :
    b.filled env heard cancel s = b.filled env heard .never s :=
  (settled_agrees calm).carryOver rfl _

/-- Once a build is settled, all that changes on the disk is the manifest. -/
theorem readAt_saved (plain : s.disk.Plain b.layout.cache) (sound : s.disk.Sound)
    (ground : (b.plan env cancel).Grounded (b.cache.ensureFolder s.disk).2)
    (built : b.compile env heard cancel s = (.ok summary, s')) (ran : summary.ran = true)
    {place : Place} (other : place ≠ s.disk.placeOf b.layout.cache ++ [Manifest.fileName]) :
    s'.disk.readAt place = (b.settled env heard cancel s).disk.readAt place := by
  obtain ⟨_, _, course⟩ := b.settled_course env heard cancel s
  have frame := ((b.midway_start env heard cancel sound).after ground course).frame
  have saved := settled_saves plain sound ground built ran
  rw [frame.changes.placeOf, (b.ensured sound).placeOf] at saved
  exact readAt_congr ((saved.leaves place).resolve_right fun within => other within.1)

/-- Whether a project of sources alone is sheltered can be looked up for all entries. -/
theorem sheltered_of_entries {files : List (String × String)} (none : b.archives.paths = [])
    (named : b.layout.cache.text ≠ "") (surveyed : Surveyed (b.roots env) (siteOf files).disk)
    (clear : ∀ x ∈ (b.cache.ensureFolder (siteOf files).disk).2.entries.pairs,
      ∀ y ∈ (siteOf files).disk.entries.pairs, x.1.dropLast = y.1.dropLast →
        x.1.map Text.lower = y.1.map Text.lower → x.1 = y.1)
    (apart : ∀ root ∈ (b.roots env).roots,
      ¬ (siteOf files).disk.placeOf root.path <+: (siteOf files).disk.placeOf b.layout.cache ∧
      ¬ (siteOf files).disk.placeOf b.layout.cache <+: (siteOf files).disk.placeOf root.path)
    (free : ∀ folder ∈ [b.layout.cache, b.layout.generated],
      ((siteOf files).disk.placeOf folder).head?.any (· ≠ "proc") = true)
    (tame : ∀ pair ∈ (siteOf files).disk.entries.pairs, ∀ name ∈ pair.1.dropLast,
      '.' ∉ name.toList) : b.Sheltered env (siteOf files).disk where
  sound := sound_siteOf files
  numbered := .ofFiles files
  named
  plain := plain_siteOf files _
  orderly := surveyed.orderly
  legible := surveyed.legible
  clear := Roots.clear_of_entries (sound_siteOf files) (b.ensured (sound_siteOf files)).sound clear
  apart root known front back same := by
    rcases List.append_eq_append_iff.mp same with ⟨more, later, _⟩ | ⟨more, later, _⟩
    · exact (apart root known).1 ⟨more, later.symm⟩
    · exact (apart root known).2 ⟨more, later.symm⟩
  free folder known := by
    have head := free folder known
    intro names
    generalize (siteOf files).disk.placeOf folder = place at head ⊢
    cases place with
    | nil => cases head
    | cons name rest => simpa [isFixed] using head
  unlinked path known := by simp [none] at known
  openable path known := by simp [none] at known
  spares t provided place goes path known := by simp [none] at known
  lasting path known := by simp [none] at known
  tame u provided segment inside := by
    rintro ⟨head, old, rfl, _⟩
    cases provided with
    | entry known => simp [none] at known
    | @source root names known holds =>
      rw [Roots.folders_below holds.1 (surveyed.orderly.straight root known names holds)] at inside
      obtain ⟨entry, there⟩ := Option.ne_none_iff_exists'.mp holds.there
      have member := ((sound_siteOf files).mem_pairs (by simp [holds.1.filled])).mpr there
      refine tame _ member (head ++ "." ++ old) ?_ (by simp)
      rw [List.dropLast_append_of_ne_nil holds.1.filled]
      exact List.mem_append_right _ inside

/-- A project whose cache lies apart from its sources, one of which is generated. -/
def asideConfig : Config := ⟨"p", "", { generated := "gen" }, some "build", {}, none, [], []⟩

def aside : Builder := ⟨.resolve ⟨"/p"⟩ asideConfig, Scripted.service, .absent⟩

def asideFiles : List (String × String) :=
  [("/p/src/A.php", "use B\nuse C\n"), ("/p/src/B.php", "b"), ("/p/gen/C.php", "use A\n")]

def asideSite : Site := siteOf asideFiles

theorem sheltered_aside : aside.Sheltered .prod asideSite.disk := by
  have seen : aside.layout.cache.text ≠ "" ∧ Surveyed (aside.roots .prod) (siteOf asideFiles).disk ∧
      (∀ x ∈ (aside.cache.ensureFolder (siteOf asideFiles).disk).2.entries.pairs,
        ∀ y ∈ (siteOf asideFiles).disk.entries.pairs, x.1.dropLast = y.1.dropLast →
          x.1.map Text.lower = y.1.map Text.lower → x.1 = y.1) ∧
      (∀ root ∈ (aside.roots .prod).roots,
        ¬ (siteOf asideFiles).disk.placeOf root.path <+: (siteOf asideFiles).disk.placeOf aside.layout.cache ∧
        ¬ (siteOf asideFiles).disk.placeOf aside.layout.cache <+: (siteOf asideFiles).disk.placeOf root.path) ∧
      (∀ folder ∈ [aside.layout.cache, aside.layout.generated],
        ((siteOf asideFiles).disk.placeOf folder).head?.any (· ≠ "proc") = true) ∧
      ∀ pair ∈ (siteOf asideFiles).disk.entries.pairs, ∀ name ∈ pair.1.dropLast, '.' ∉ name.toList := by
    decide +kernel
  obtain ⟨named, surveyed, clear, apart, free, tame⟩ := seen
  exact sheltered_of_entries rfl named surveyed clear apart free tame

theorem aside_outcome : ∃ summary s', aside.compile .prod true .never asideSite = (.ok summary, s') ∧
    summary.ran = true ∧ summary.cancelled = false ∧
    summary.events = [⟨"B", .compiled, "B.php"⟩, ⟨"C", .compiled, "C.php"⟩, ⟨"A", .compiled, "A.php"⟩,
      ⟨"B", .skipped, "already resolved"⟩] ∧
    (s'.called.flatMap fun u => Scripted.uses (Text.lines (Utf8.decodeLossy u.content))) =
      ["B", "C", "A"] := by
  have told : (aside.cache.ensureFolder asideSite.disk).1.toOption = some () ∧
      (aside.settled .prod true .never asideSite).cancelled = false ∧
      (aside.settled .prod true .never asideSite).log.events = [⟨"B", .compiled, "B.php"⟩,
        ⟨"C", .compiled, "C.php"⟩, ⟨"A", .compiled, "A.php"⟩, ⟨"B", .skipped, "already resolved"⟩] ∧
      ((aside.settled .prod true .never asideSite).called.flatMap fun u =>
        Scripted.uses (Text.lines (Utf8.decodeLossy u.content))) = ["B", "C", "A"] := by
    decide +kernel
  obtain ⟨opened, told⟩ := told
  obtain ⟨summary, s', built, ran, cancelled, events, called⟩ :=
    @compile_runs aside .prod true .never asideSite rfl opened
  rw [← cancelled, ← events, ← called] at told
  exact ⟨summary, s', built, ran, told⟩

/-- A project with an archive that cannot be opened before the cache holds a folder `App`. -/
def passageConfig : Config :=
  ⟨"p", "", { generated := "gen" }, some "build", {}, none, ["build/App/../../l.jar"], []⟩

def passage : Builder := ⟨.resolve ⟨"/p"⟩ passageConfig, Scripted.service, .absent⟩

def passageFiles : List (String × String) := [("/p/l.jar", jarText), ("/p/src/App/A.php", "a")]

def passageSite : Site := siteOf passageFiles

theorem passage_outcome : ∃ summary s',
    passage.compile .prod true .never passageSite = (.ok summary, s') ∧ summary.ran = true ∧
    summary.cancelled = false ∧
    summary.events = [⟨"App/A", .compiled, "App/A.php"⟩, ⟨"B", .compiled, "B.php"⟩] ∧
    (s'.called.flatMap fun u => Scripted.uses (Text.lines (Utf8.decodeLossy u.content))) = [] := by
  have told : (passage.cache.ensureFolder passageSite.disk).1.toOption = some () ∧
      (passage.settled .prod true .never passageSite).cancelled = false ∧
      (passage.settled .prod true .never passageSite).log.events =
        [⟨"App/A", .compiled, "App/A.php"⟩, ⟨"B", .compiled, "B.php"⟩] ∧
      ((passage.settled .prod true .never passageSite).called.flatMap fun u =>
        Scripted.uses (Text.lines (Utf8.decodeLossy u.content))) = [] := by
    decide +kernel
  obtain ⟨opened, told⟩ := told
  obtain ⟨summary, s', built, ran, cancelled, events, called⟩ :=
    @compile_runs passage .prod true .never passageSite rfl opened
  rw [← cancelled, ← events, ← called] at told
  exact ⟨summary, s', built, ran, told⟩

theorem passage_plain : passageConfig.check = .ok () ∧ passageSite.disk.Sound ∧
    (∀ p, passageSite.disk.Plain p) ∧ (passage.roots .prod).Orderly passageSite.disk ∧
    (passage.roots .prod).Legible passageSite.disk ∧
    ∀ root ∈ (passage.roots .prod).roots,
      ¬ passageSite.disk.placeOf root.path <+: passageSite.disk.placeOf passage.layout.cache ∧
      ¬ passageSite.disk.placeOf passage.layout.cache <+: passageSite.disk.placeOf root.path := by
  have sound : passageSite.disk.Sound := sound_siteOf passageFiles
  have seen : passageConfig.check = .ok () ∧ Surveyed (passage.roots .prod) passageSite.disk ∧
      ∀ root ∈ (passage.roots .prod).roots,
        ¬ passageSite.disk.placeOf root.path <+: passageSite.disk.placeOf passage.layout.cache ∧
        ¬ passageSite.disk.placeOf passage.layout.cache <+: passageSite.disk.placeOf root.path := by
    decide +kernel
  obtain ⟨accepted, surveyed, apart⟩ := seen
  exact ⟨accepted, sound, fun p => plain_siteOf passageFiles p, surveyed.orderly, surveyed.legible, apart⟩

end Builder
end LayerCache
