import LayerCache.Proofs.Build.Purge

/-! What a preparation does: it removes the artifacts of the primary sources and stray artifacts
from the staging folder, lists the sources, and touches nothing else. After it there is nothing left
for a second one to do. -/
namespace LayerCache

open Disk

namespace IgnoreList

theorem entries_foldl_push (files : List Listed) (l : IgnoreList) :
    (files.foldl (fun l f => l.push f.relative) l).entries =
      l.entries ++ files.map fun f => Text.slashes f.relative.text := by
  induction files generalizing l with
  | nil => simp
  | cons f rest ih =>
    rw [List.foldl_cons, ih]
    simp [push]

end IgnoreList

namespace Disk

variable {d d' : Disk} {p : Path} {place : Place} {name : String} {serial : Nat} {content : ByteArray}

/-- Writing a file over with what it holds changes nothing. -/
theorem write_again (plain : d.Plain (p.joinName name)) (proper : IsName name)
    (found : d.stat (p.joinName name) = .ok (place, .file serial content)) :
    d.write (p.joinName name) content = .ok (d.set place (.file serial content)) := by
  obtain ⟨checked, followed⟩ := findFrom_eq (stat_find found)
  obtain ⟨jump, follows⟩ := followLinks_jump d .target mostLinks
  obtain ⟨jump', follows'⟩ := followLinks_jump d .file mostLinks
  have steps : (p.joinName name).steps = (p.joinName name).names := by
    rw [steps_joinName proper, Path.names_joinName proper]
  have alike : d.follow jump .target (d.startOf (p.joinName name)) (p.joinName name).names =
      d.follow jump' .file (d.startOf (p.joinName name)) (p.joinName name).names :=
    follow_alike (.inr fun void => (Path.mem_names void).1 rfl) plain.way
  rw [follows, steps, alike] at followed
  have whole : d.find .file (p.joinName name) = .ok (.taken place (.file serial content)) := by
    simp only [find, findFrom, checked, follows', steps, ← followed]
    rfl
  simp only [write, whole]

end Disk

namespace Builder

variable {b : Builder} {d d' : Disk} {l : IgnoreList} {p : Path}

theorem filled_of_opens (sound : d.Sound) (opens : d.Opens p) : p.text ≠ "" := by
  intro empty
  have here : d.placeOf p = d.here := by
    obtain ⟨text⟩ := p
    subst empty
    rfl
  obtain ⟨place, found⟩ := isFolder_iff.mp (opens (here ▸ sound.here))
  obtain ⟨text⟩ := p
  subst empty
  exact absurd found (by simp [stat, find, findFrom, checkText])

/-- What a list that was written leaves. -/
theorem writeIgnoreList_ok (sound : d.Sound) (plain : d.Plain b.layout.cache)
    (filled : b.layout.cache.text ≠ "")
    (stores : ∀ device, d.entryAt (d.placeOf b.layout.cache ++ [IgnoreList.fileName]) ≠
      some (.device device))
    (written : b.cache.writeIgnoreList d l = (.ok p, d')) :
    p = b.cache.ignoreListPath ∧ d'.isFolder b.layout.cache = true ∧ ∃ serial,
      d'.stat b.cache.ignoreListPath =
        .ok (d.placeOf b.layout.cache ++ [IgnoreList.fileName], .file serial l.render.toUTF8) := by
  have made := b.ensured sound
  simp only [ArtifactCache.writeIgnoreList, ArtifactCache.writeFile] at written
  rcases ensured : b.cache.ensureFolder d with ⟨e | ⟨⟩, ground⟩
  · simp [ensured] at written
  rw [ensured] at made written
  have place : ground.placeOf b.cache.ignoreListPath =
      d.placeOf b.layout.cache ++ [IgnoreList.fileName] :=
    (placeOf_joinName isName_ignoreList).trans (by rw [made.placeOf]; rfl)
  have clear : ground.Plain b.cache.ignoreListPath := (made.plain plain).joinName isName_ignoreList
  rcases wrote : ground.write b.cache.ignoreListPath l.render.toUTF8 with fault | after
  · simp only [wrote, Prod.mk.injEq, reduceCtorEq, false_and] at written
  simp only [wrote, Prod.mk.injEq, Except.ok.injEq] at written
  obtain ⟨rfl, rfl⟩ := written
  have kept : ∀ device, ground.entryAt (ground.placeOf b.cache.ignoreListPath) ≠
      some (.device device) := by
    intro device there
    rw [place] at there
    have leaf : ground.leafAt (d.placeOf b.layout.cache ++ [IgnoreList.fileName]) =
        some (.device device) := (leafAt_eq_some (by simp)).mpr there
    rw [(made.leaves _).resolve_right id] at leaf
    exact stores device ((leafAt_eq_some (by simp)).mp leaf)
  obtain ⟨serial, found⟩ := stat_write made.sound clear kept wrote
  have change := (changes_write made.sound clear wrote).changes
  have opened := stat_of_joinName (change.plain (made.plain plain)) isName_ignoreList filled found
  rw [place] at found
  exact ⟨rfl, isFolder_iff.mpr ⟨_, opened⟩, serial, found⟩

/-- A list that is there already is written once more, and nothing changes. -/
theorem writeIgnoreList_again {serial : Nat} {place : Place} (sound : d.Sound)
    (plain : d.Plain b.layout.cache) (opened : d.isFolder b.layout.cache = true)
    (found : d.stat b.cache.ignoreListPath = .ok (place, .file serial l.render.toUTF8)) :
    ∃ d', b.cache.writeIgnoreList d l = (.ok b.cache.ignoreListPath, d') ∧
      ∀ other, d'.entryAt other = d.entryAt other := by
  have made : b.cache.ensureFolder d = (.ok (), d) := by
    have folders : d.makeFolders b.cache.folder = (.ok (), d) :=
      makeFolders_opened opened
    simp only [ArtifactCache.ensureFolder, ArtifactCache.makeFolder, folders]
  have clear : d.Plain b.cache.ignoreListPath := plain.joinName isName_ignoreList
  have wrote := write_again clear isName_ignoreList found
  refine ⟨d.set place (.file serial l.render.toUTF8), ?_, fun other => ?_⟩
  · simp only [ArtifactCache.writeIgnoreList, made, ArtifactCache.writeFile]
    rw [show b.cache.ignoreListPath = b.cache.folder.joinName IgnoreList.fileName from rfl, wrote]
  · have there := stat_entry sound found
    rw [entryAt_set d fun none => by rw [none] at there; cases there]
    split
    · rename_i same
      rw [same, there]
    · rfl


/-! The whole preparation. -/

/-- The files a preparation lists. -/
def primarySources (b : Builder) (d : Disk) : List Listed :=
  d.filesWithExtension b.layout.primary b.layout.naming.sourceExt

/-- What a preparation comes to. The places are those whose artifacts it has invalidated, and then
those it has cleared of stray artifacts. -/
structure Prepared (b : Builder) (d : Disk) (report : Preparation) (d' : Disk) : Prop where
  listed : report.ignoreList = b.cache.ignoreListPath ∧ d'.read b.cache.ignoreListPath =
    .ok (Text.join "\n" ((b.primarySources d).map (·.relative.text))).toUTF8
  ignored : report.ignored = (b.primarySources d).length
  sources : b.primarySources d' = b.primarySources d
  invalid : ∀ f ∈ b.primarySources d,
    b.cache.contains d' (.ofRelative f.relative b.layout.naming.sourceExt) = false
  swept : ∀ f ∈ d'.filesWithExtension b.layout.staging b.layout.naming.artifactExt,
    d'.isFile f.path = false
  removed : ∃ first second : List Place,
    report.invalidated = first.length ∧ report.staleRemoved = second.length ∧
    (first ++ second).Nodup ∧ (∀ place ∈ first ++ second, d.leafAt place ≠ none) ∧
    (∀ place ∈ first, ∃ f ∈ b.primarySources d,
      place = b.cache.placeFor d (.ofRelative f.relative b.layout.naming.sourceExt)) ∧
    (∀ place ∈ second, ∃ names, Carries b.layout.naming.artifactExt names ∧
      place = d.placeOf b.layout.staging ++ names) ∧
    ∀ place, place ≠ d.placeOf b.layout.cache ++ [IgnoreList.fileName] →
      d'.leafAt place = if place ∈ first ++ second then none else d.leafAt place

/-- The artifact of a listed source carries the extension of artifacts. -/
theorem carries_primarySource (sound : d.Sound)
    (straight : ∀ f ∈ b.primarySources d, '\\' ∉ f.relative.text.toList)
    (artifact : IsBare b.layout.naming.artifactExt) {f : Listed} (member : f ∈ b.primarySources d) :
    Carries b.layout.naming.artifactExt (UnitId.fileNames b.layout.naming.artifactExt
      (UnitId.ofRelative f.relative b.layout.naming.sourceExt).segments) := by
  have clear := straight f member
  obtain ⟨_, names, _, carries, _, rfl⟩ := (mem_filesWithExtension sound).mp member
  have parts : ∀ name ∈ names, '\\' ∉ name.toList := by
    intro name inside back
    have cut := pieces_relativePath carries.proper carries.filled
    rw [← cut] at inside
    exact clear (Text.mem_of_mem_split inside back)
  refine UnitId.carries_of_lower ((UnitId.tidy_ofRelative _ _).proper artifact) artifact ?_ rfl
  exact UnitId.filled_ofRelative carries parts

/-- The ignore list of a preparation. -/
def ignored (b : Builder) (d : Disk) : IgnoreList :=
  (b.primarySources d).foldl (fun l f => l.push f.relative) .empty

theorem entries_ignored (straight : ∀ f ∈ b.primarySources d, '\\' ∉ f.relative.text.toList) :
    (b.ignored d).entries = (b.primarySources d).map (·.relative.text) := by
  rw [ignored, IgnoreList.entries_foldl_push]
  exact List.map_congr_left fun f member => Text.slashes_of_straight (straight f member)

/-- The steps of a preparation. -/
theorem prepare_eq (b : Builder) (d : Disk) : b.prepare d =
    match b.cache.writeIgnoreList (b.invalidateAll d (b.renewed d)).2.2 (b.ignored d) with
    | (.error e, between) => (.error (.cache e), between)
    | (.ok list, between) =>
      let swept := removeAll between ((between.filesWithExtension b.layout.staging
        b.layout.naming.artifactExt).map (·.path))
      (.ok ⟨(b.ignored d).size, (b.invalidateAll d (b.renewed d)).1,
        (b.invalidateAll d (b.renewed d)).2.1, swept.1, list⟩, swept.2) := rfl

/-- What a preparation does to a disk: the places it clears of invalid artifacts and of stray ones,
the list it writes, and what it leaves out of a removal's reach. -/
structure Clearing (b : Builder) (d : Disk) (first second : List Place) (d' : Disk) : Prop where
  change : Changes (fun _ => True) d d'
  distinct : (first ++ second).Nodup
  stood : ∀ place ∈ first ++ second, d.leafAt place ≠ none
  invalid : ∀ place ∈ first, ∃ f ∈ b.primarySources d,
    place = b.cache.placeFor d (.ofRelative f.relative b.layout.naming.sourceExt)
  stray : ∀ place ∈ second, ∃ names, Carries b.layout.naming.artifactExt names ∧
    place = d.placeOf b.layout.staging ++ names
  leaves : ∀ place, place ≠ d.placeOf b.layout.cache ++ [IgnoreList.fileName] →
    d'.leafAt place = if place ∈ first ++ second then none else d.leafAt place
  list : d'.isFolder b.layout.cache = true ∧ ∃ place serial,
    d'.stat b.cache.ignoreListPath = .ok (place, .file serial (b.ignored d).render.toUTF8)
  cleared : ∀ u ∈ b.renewed d, d'.Cleared b.layout.cache
    (UnitId.fileNames b.layout.naming.artifactExt u.segments)
  swept : d'.Swept b.layout.staging b.layout.naming.artifactExt

section

variable (sound : d.Sound) (linkless : d.Linkless)
  (straight : ∀ f ∈ b.primarySources d, '\\' ∉ f.relative.text.toList)
include sound linkless straight

theorem prepare_clearing {report : Preparation} (artifact : IsBare b.layout.naming.artifactExt)
    (opens : d.Opens b.layout.cache)
    (stores : ∀ device, d.entryAt (d.placeOf b.layout.cache ++ [IgnoreList.fileName]) ≠
      some (.device device)) (prepared : b.prepare d = (.ok report, d')) :
    ∃ first second, b.Clearing d first second d' ∧
      report.ignoreList = b.cache.ignoreListPath ∧
      report.ignored = (b.primarySources d).length ∧
      report.invalidated = first.length ∧ report.staleRemoved = second.length := by
  set ignorePlace := d.placeOf b.layout.cache ++ [IgnoreList.fileName] with ignoreAt
  have tidy : ∀ u ∈ b.renewed d, u.Tidy := by
    intro u member
    obtain ⟨f, _, rfl⟩ := List.mem_map.mp member
    exact UnitId.tidy_ofRelative _ _
  have carried : ∀ u ∈ b.renewed d, Carries b.layout.naming.artifactExt
      (UnitId.fileNames b.layout.naming.artifactExt u.segments) := by
    intro u member
    obtain ⟨f, inside, rfl⟩ := List.mem_map.mp member
    exact carries_primarySource sound straight artifact inside
  rw [prepare_eq] at prepared
  -- the artifacts of the sources go
  obtain ⟨first, drops, count, whose, gone⟩ := invalidateAll_drops artifact tidy sound
    (linkless.plain _) opens
  generalize b.invalidateAll d (b.renewed d) = taken at prepared drops count gone
  have clear := linkless.mono drops.changes
  -- the list is written
  rcases wrote : b.cache.writeIgnoreList taken.2.2 (b.ignored d) with ⟨e | written, between⟩
  · simp only [wrote, Prod.mk.injEq, reduceCtorEq, false_and] at prepared
  simp only [wrote, Prod.mk.injEq, Except.ok.injEq] at prepared
  obtain ⟨rfl, rfl⟩ := prepared
  have listing := changes_writeIgnoreList (b := b) drops.sound (clear.plain _) (b.ignored d)
  rw [wrote, drops.changes.placeOf, ← ignoreAt] at listing
  obtain ⟨path, opened, serial, found⟩ := writeIgnoreList_ok drops.sound (clear.plain _)
    (filled_of_opens sound opens)
    (by
      intro device there
      rw [drops.changes.placeOf, drops.entries] at there
      split at there
      · cases there
      · exact stores device there) wrote
  rw [drops.changes.placeOf, ← ignoreAt] at found
  have clear' := clear.mono listing
  -- and stray artifacts go
  obtain ⟨second, more, counts, known, swept⟩ := sweep_drops listing.sound clear' b.layout.staging
    b.layout.naming.artifactExt
  generalize removeAll between _ = last at more counts swept ⊢
  have change : Changes (fun _ => True) d last.2 :=
    ((drops.changes.mono fun _ _ => trivial).trans (listing.mono fun _ _ => trivial)).trans
      (more.changes.mono fun _ _ => trivial)
  have staging : between.placeOf b.layout.staging = d.placeOf b.layout.staging := by
    rw [listing.placeOf, drops.changes.placeOf]
  rw [staging] at known
  have apart : ∀ place ∈ second, place ≠ ignorePlace := by
    intro place member
    obtain ⟨names, carries, rfl⟩ := known place member
    exact ignoreList_apart carries _ _
  have opened' : last.2.isFolder b.layout.cache = true :=
    more.changes.isFolder listing.sound (clear'.plain _) opened
  have kept : last.2.leafAt ignorePlace = between.leafAt ignorePlace :=
    (more.changes.leaves _).resolve_right fun member => apart _ member rfl
  have stat : last.2.stat b.cache.ignoreListPath =
      .ok (ignorePlace, .file serial (b.ignored d).render.toUTF8) := by
    refine more.changes.stat_same listing.sound (clear'.plain _) found (by simp) ?_
    rwa [← stat_place (clear'.plain _) found]
  have leaves : ∀ place, place ≠ ignorePlace → last.2.leafAt place =
      if place ∈ first ++ second then none else d.leafAt place := by
    intro place other
    rw [more.leafAt, (listing.leaves place).resolve_right other, drops.leafAt]
    by_cases one : place ∈ first <;> by_cases two : place ∈ second <;> simp [one, two]
  have stood : ∀ place ∈ second, place ∉ first ∧ d.leafAt place ≠ none := by
    intro place member
    have there := more.stood place member
    rw [(listing.leaves place).resolve_right (apart place member), drops.leafAt] at there
    split at there
    · exact absurd rfl there
    · rename_i other
      exact ⟨other, there⟩
  have cleared : ∀ u ∈ b.renewed d, last.2.Cleared b.layout.cache
      (UnitId.fileNames b.layout.naming.artifactExt u.segments) := by
    intro u member
    refine (gone u member).mono ((listing.mono fun _ _ => trivial).trans
      (more.changes.mono fun _ _ => trivial) : Changes (fun _ => True) _ _) fun there => ?_
    rw [drops.changes.placeOf] at there ⊢
    rw [← (listing.leaves _).resolve_right (ignoreList_apart (carried u member) _ _)]
    rwa [← more.faded there]
  refine ⟨first, second, ⟨change, ?_, ?_, ?_, known, leaves, ⟨opened', _, _, stat⟩, cleared, swept⟩,
    path, ?_, count, counts⟩
  · refine List.nodup_append.mpr ⟨drops.distinct, more.distinct, ?_⟩
    rintro place early other late rfl
    exact (stood place late).1 early
  · intro place member
    rcases List.mem_append.mp member with early | late
    · exact drops.stood place early
    · exact (stood place late).2
  · intro place member
    obtain ⟨u, inside, same⟩ := whose place member
    obtain ⟨f, listed, rfl⟩ := List.mem_map.mp inside
    exact ⟨f, listed, same⟩
  · rw [IgnoreList.size, entries_ignored straight, List.length_map]

namespace Clearing

variable {first second : List Place} (clearing : b.Clearing d first second d')
include clearing

/-- No source is touched. -/
theorem sources (artifact : IsBare b.layout.naming.artifactExt)
    (differ : Text.sameIgnoringCase b.layout.naming.sourceExt b.layout.naming.artifactExt = false)
    (opens : d.Opens b.layout.primary) : b.primarySources d' = b.primarySources d := by
  refine filesWithExtension_congr sound (linkless.plain _) opens clearing.change
    fun names carries => ?_
  have proper := leafAt_same_or_proper sound clearing.change.sound
    (d.placeOf b.layout.primary ++ names)
  rcases proper with same | proper
  · exact same
  have whole := carries.append proper
  rw [clearing.leaves _ (ignoreList_apart carries _ _), if_neg]
  intro member
  rcases List.mem_append.mp member with early | late
  · obtain ⟨f, inside, same⟩ := clearing.invalid _ early
    have carried := carries_primarySource sound straight artifact inside
    rw [ArtifactCache.placeFor] at same
    have lies := isArtifactIn_of_carries d b.cache.folder carried
    exact not_isArtifactIn artifact differ whole (same.symm ▸ lies)
  · obtain ⟨others, carried, same⟩ := clearing.stray _ late
    have lies := isArtifactIn_of_carries d b.layout.staging carried
    exact not_isArtifactIn artifact differ whole (same.symm ▸ lies)

theorem prepared {report : Preparation} (artifact : IsBare b.layout.naming.artifactExt)
    (differ : Text.sameIgnoringCase b.layout.naming.sourceExt b.layout.naming.artifactExt = false)
    (opens : d.Opens b.layout.primary) (path : report.ignoreList = b.cache.ignoreListPath)
    (ignored : report.ignored = (b.primarySources d).length)
    (invalidated : report.invalidated = first.length)
    (stale : report.staleRemoved = second.length) : b.Prepared d report d' where
  listed := by
    obtain ⟨_, place, serial, found⟩ := clearing.list
    refine ⟨path, ?_⟩
    rw [← entries_ignored straight]
    simp only [Disk.read, found]
    rfl
  ignored := ignored
  sources := clearing.sources sound linkless straight artifact differ opens
  invalid f member := by
    have tidy := UnitId.tidy_ofRelative f.relative b.layout.naming.sourceExt
    have cleared := clearing.cleared _ (List.mem_map_of_mem member)
    have file := cleared.isFile clearing.change.sound
      ((linkless.mono clearing.change).plain _) (tidy.proper artifact) (UnitId.fileNames_ne_nil _ _)
    rwa [← tidy.pathIn_eq artifact] at file
  swept f member := clearing.swept.isFile clearing.change.sound
    ((linkless.mono clearing.change).plain _) member
  removed := ⟨first, second, invalidated, stale, clearing.distinct, clearing.stood,
    clearing.invalid, clearing.stray, clearing.leaves⟩

/-- A second preparation writes the same list, and that is all. -/
theorem again (artifact : IsBare b.layout.naming.artifactExt)
    (differ : Text.sameIgnoringCase b.layout.naming.sourceExt b.layout.naming.artifactExt = false)
    (opens : d.Opens b.layout.primary) : ∃ report d'', b.prepare d' = (.ok report, d'') ∧
      report.ignored = (b.primarySources d).length ∧ report.invalidated = 0 ∧
      report.staleRemoved = 0 ∧ ∀ place, d''.entryAt place = d'.entryAt place := by
  have same := clearing.sources sound linkless straight artifact differ opens
  have units : b.renewed d' = b.renewed d := congrArg (List.map _) same
  have list : b.ignored d' = b.ignored d := by rw [ignored, ignored, same]
  have sound' := clearing.change.sound
  have linkless' := linkless.mono clearing.change
  have tidy : ∀ u ∈ b.renewed d, u.Tidy := by
    intro u member
    obtain ⟨f, _, rfl⟩ := List.mem_map.mp member
    exact UnitId.tidy_ofRelative _ _
  obtain ⟨none, left⟩ := invalidateAll_cleared artifact tidy sound' clearing.cleared
  obtain ⟨opened, place, serial, found⟩ := clearing.list
  obtain ⟨d'', wrote, entries⟩ := writeIgnoreList_again sound' (linkless'.plain _) opened found
  have change := changes_writeIgnoreList sound' (linkless'.plain b.layout.cache) (b.ignored d)
  rw [wrote] at change
  have back : Changes (fun _ => False) d'' d' :=
    ⟨sound', change.here.symm, fun place folder => by rwa [entries] at folder,
      fun place target linked => by rwa [entries], fun place => .inl (by rw [leafAt, leafAt, entries])⟩
  have swept : d''.Swept b.layout.staging b.layout.naming.artifactExt := by
    intro names inside carries
    have inside' := mem_of_fewer sound' linkless' (linkless'.mono change) change.sound back
      (fun place file => file.congr (by rw [leafAt, leafAt, entries])) inside
    refine (clearing.swept names inside' carries).mono change fun there => ?_
    rwa [leafAt, entries] at there
  have last := sweep_swept change.sound swept
  refine ⟨⟨(b.ignored d).size, (b.invalidateAll d' (b.renewed d)).1,
    (b.invalidateAll d' (b.renewed d)).2.1, 0, b.cache.ignoreListPath⟩, d'', ?_, ?_, none, rfl,
    entries⟩
  · simp only [prepare_eq, units, list, left, wrote, last]
  · rw [IgnoreList.size, entries_ignored straight, List.length_map]

end Clearing

end

/-- A preparation lists the primary sources, leaves none of their artifacts and no stray artifact,
counts what it removes and touches nothing else. A second one finds nothing more to do. -/
theorem prepare_settles {config : Config} {project : Path} (accepted : config.check = .ok ())
    (layout : b.layout = .resolve project config) (sound : d.Sound) (linkless : d.Linkless)
    (straight : ∀ f ∈ b.primarySources d, '\\' ∉ f.relative.text.toList)
    (opens : ∀ folder ∈ [b.layout.primary, b.layout.cache], d.Opens folder)
    (stores : ∀ device, d.entryAt (d.placeOf b.layout.cache ++ [IgnoreList.fileName]) ≠
      some (.device device))
    {report : Preparation} (prepared : b.prepare d = (.ok report, d')) :
    b.Prepared d report d' ∧ ∃ again d'', b.prepare d' = (.ok again, d'') ∧
      again.ignored = report.ignored ∧ again.invalidated = 0 ∧ again.staleRemoved = 0 ∧
      ∀ place, d''.entryAt place = d'.entryAt place := by
  obtain ⟨_, artifact, differ⟩ := Config.extensions_of_check accepted
  have naming : config.naming = b.layout.naming := by rw [layout]; rfl
  rw [naming] at artifact differ
  have primary := opens b.layout.primary (by simp)
  obtain ⟨first, second, clearing, path, ignored, invalidated, stale⟩ :=
    prepare_clearing sound linkless straight artifact (opens b.layout.cache (by simp)) stores prepared
  refine ⟨clearing.prepared sound linkless straight artifact differ primary path ignored invalidated
    stale, ?_⟩
  rw [ignored]
  exact clearing.again sound linkless straight artifact differ primary


/-- A project with an artifact of an earlier build and a stray one. -/
def usedFiles : List (String × String) :=
  [("/p/src/A.php", "a"), ("/p/src/App/B.php", "b"), ("/p/gen/A.phb", "BC:a"),
    ("/p/src/App/Old.PHB", "old")]

theorem prepare_settles_used : ∃ report d', sample.prepare (ofFiles usedFiles) = (.ok report, d') ∧
    report.ignored = 2 ∧ report.invalidated = 1 ∧ report.staleRemoved = 1 ∧
    sample.Prepared (ofFiles usedFiles) report d' := by
  have seen : (sample.prepare (ofFiles usedFiles)).1.toOption.map (fun report =>
        (report.ignored, report.invalidated, report.staleRemoved)) = some (2, 1, 1) ∧
      sampleConfig.check = .ok () ∧
      (∀ folder ∈ [sample.layout.primary, sample.layout.cache],
        (ofFiles usedFiles).isFolder folder = true) ∧
      (∀ f ∈ sample.primarySources (ofFiles usedFiles), '\\' ∉ f.relative.text.toList) ∧
      ((ofFiles usedFiles).entryAt
        ((ofFiles usedFiles).placeOf sample.layout.cache ++ [IgnoreList.fileName])).isNone = true := by
    decide +kernel
  obtain ⟨told, accepted, opens, straight, free⟩ := seen
  rw [Option.isNone_iff_eq_none] at free
  rcases prepared : sample.prepare (ofFiles usedFiles) with ⟨e | report, d'⟩
  · simp [prepared, Except.toOption] at told
  simp only [prepared, Except.toOption, Option.map_some, Option.some.injEq, Prod.mk.injEq] at told
  have layout : sample.layout = .resolve ⟨"/p"⟩ sampleConfig := rfl
  have sound : (ofFiles usedFiles).Sound := (changes_ofFiles usedFiles).sound
  have stores : ∀ device, (ofFiles usedFiles).entryAt
      ((ofFiles usedFiles).placeOf sample.layout.cache ++ [IgnoreList.fileName]) ≠
        some (.device device) := by simp [free]
  exact ⟨report, d', rfl, told.1, told.2.1, told.2.2, (prepare_settles accepted layout sound
    (linkless_ofFiles usedFiles) straight (fun folder member _ => opens folder member) stores
    prepared).1⟩

/-- A project whose cache folder cannot be opened before a folder `a` is made. -/
def detourConfig : Config := ⟨"p", "", {}, some "a/../b", {}, none, [], []⟩

def detour : Builder := ⟨.resolve ⟨"/p"⟩ detourConfig, Scripted.service, .absent⟩

def detourFiles : List (String × String) := [("/p/b/X.phb", "old"), ("/p/src/X.php", "x")]

/-- An artifact is missed while the cache folder cannot be opened, and left to a second
preparation. -/
theorem prepare_misses_unreachable : detourConfig.check = .ok () ∧ (ofFiles detourFiles).Linkless ∧
    ∃ report d' again d'', detour.prepare (ofFiles detourFiles) = (.ok report, d') ∧
      listed detour.layout.primary ["X.php"] ∈ detour.primarySources (ofFiles detourFiles) ∧
      detour.cache.contains d' (.ofRelative ⟨"X.php"⟩ "php") = true ∧
      detour.prepare d' = (.ok again, d'') ∧ again.invalidated = 1 := by
  have seen : detourConfig.check = .ok () ∧
      (detour.prepare (ofFiles detourFiles)).1.toOption.isSome = true ∧
      (detour.prepare (detour.prepare (ofFiles detourFiles)).2).1.toOption.map (·.invalidated) = some 1 ∧
      detour.cache.contains (detour.prepare (ofFiles detourFiles)).2 (.ofRelative ⟨"X.php"⟩ "php") = true ∧
      listed detour.layout.primary ["X.php"] ∈ detour.primarySources (ofFiles detourFiles) := by
    decide +kernel
  obtain ⟨accepted, first, second, there, source⟩ := seen
  refine ⟨accepted, linkless_ofFiles detourFiles, ?_⟩
  rcases ran : detour.prepare (ofFiles detourFiles) with ⟨e | report, d'⟩
  · simp [ran, Except.toOption] at first
  rw [ran] at second there
  rcases twice : detour.prepare d' with ⟨e | again, d''⟩
  · simp [twice, Except.toOption] at second
  simp only [twice, Except.toOption, Option.map_some, Option.some.injEq] at second
  exact ⟨report, d', again, d'', rfl, source, there, twice, second⟩

end Builder
end LayerCache
