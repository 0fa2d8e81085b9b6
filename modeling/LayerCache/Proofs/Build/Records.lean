import LayerCache.Proofs.Build.Registration

/-! The records of a build and the cache. Whatever is recorded, whether it was compiled, found in the
cache or taken over from an earlier build, lies in the cache under its name, and the digest on
record is that of its content. -/
namespace LayerCache

open Disk

namespace Disk

variable {d d' : Disk} {place : Place} {p : Path} {content : ByteArray}

/-- What is read at a place. -/
def readAt (d : Disk) (place : Place) : Option ByteArray :=
  match d.leafAt place with
  | some (.file _ content) => some content
  | some (.program _) => some code
  | some (.device device) => some device.content
  | _ => none

theorem readAt_congr (same : d'.leafAt place = d.leafAt place) : d'.readAt place = d.readAt place := by
  simp only [readAt, same]

theorem readAt_of_read (sound : d.Sound) (plain : d.Plain p) (read : d.read p = .ok content) :
    d.readAt (d.placeOf p) = some content := by
  simp only [Disk.read] at read
  split at read
  all_goals try cases read
  all_goals
    rename_i found
    have entry := stat_entry sound found
    rw [stat_place plain found] at entry
    simp [readAt, leafAt, entry]

theorem isFileAt_of_readAt (read : d.readAt place = some content)
    (stores : ∀ device, d.leafAt place ≠ some (.device device)) : d.IsFileAt place := by
  simp only [readAt] at read
  split at read
  · rename_i there
    exact .inl ⟨_, _, (leafAt_eq_some (by simp)).mp there⟩
  · rename_i there
    exact .inr ⟨_, (leafAt_eq_some (by simp)).mp there⟩
  · rename_i there
    exact absurd there (stores _)
  · cases read

theorem Wrote.file (wrote : Wrote content place d d')
    (stores : ∀ device, d.entryAt place ≠ some (.device device)) :
    ∃ serial, d'.entryAt place = some (.file serial content) := by
  obtain ⟨made, p, above, plain, rfl, written⟩ := wrote
  have free : ∀ device, made.entryAt (made.placeOf p) ≠ some (.device device) := by
    intro device there
    have kept := (above.leaves (made.placeOf p)).resolve_right id
    rw [← leafAt_eq_some (by simp), kept, leafAt_eq_some (by simp)] at there
    exact stores device there
  obtain ⟨found, serial, sought, entry⟩ := write_file above.sound plain free written
  rw [find_place plain sought] at entry
  exact ⟨serial, entry⟩

end Disk

section

variable {plan : Plan} {before : Disk} {archives : Archives} {c : Candidate}

/-- No source, and no entry of an archive, has a base name of nothing but dots. -/
structure Plan.Spelled (plan : Plan) (before : Disk) (archives : Archives) : Prop where
  sources : ∀ root ∈ plan.roots.roots, ∀ names, plan.roots.Holds before root names →
    ∀ last, names.getLast? = some last → ¬ UnitId.IsDots plan.roots.ending last
  entries : ∀ archive held, archives.settled archive = some held → ∀ v entry, (v, entry) ∈ held →
    ∀ last, (segmentsOf entry).getLast? = some last → ¬ UnitId.IsDots plan.roots.ending last

theorem Candidate.Known.clean (bare : IsBare plan.roots.ending)
    (kept : archives.Kept plan.roots.ending)
    (straight : ∀ root ∈ plan.roots.roots, ∀ names, plan.roots.Holds before root names →
      ∀ name ∈ names, '\\' ∉ name.toList)
    (spelled : plan.Spelled before archives) (known : c.Known plan before archives) :
    c.unit.Clean := by
  cases known with
  | @source root names listed holds =>
    obtain ⟨front, name, head, old, rfl, parts, same⟩ := holds.1.extended
    exact UnitId.clean_ofRelative holds.1.proper (straight root listed _ holds) parts same
      (spelled.sources root listed _ holds name (by simp))
  | @entry r v held settled member =>
    have owned := kept.owned settled
    have filled := owned.filled v r.entry member
    rw [owned.named v r.entry member] at filled
    exact UnitId.clean_ofEntry filled bare (spelled.entries r.archive held settled v r.entry member)

/-- Generated sources lie in the folder of the cache. -/
def Plan.AtHome (plan : Plan) (d : Disk) : Prop :=
  ∀ root ∈ plan.roots.roots, root.generated = true → d.placeOf root.path = d.placeOf plan.cache.folder

/-- What is written for a unit is written where its artifact lies, beside its source or not. -/
theorem Job.Goes.home {t : Job} {place : Place} (proper : plan.Proper) (home : plan.AtHome before)
    (straight : ∀ root ∈ plan.roots.roots, ∀ names, plan.roots.Holds before root names →
      ∀ name ∈ names, '\\' ∉ name.toList)
    (known : t.candidate.Known plan before archives) (goes : t.Goes plan before place) :
    place = plan.cache.placeFor before t.candidate.unit := by
  cases goes with
  | cached => rfl
  | @beside root front name head old listed generated named parts same source =>
    rw [source] at known ⊢
    have holds := known.holds proper listed named
    have segments := UnitId.segments_ofRelative named (straight root listed _ holds) parts same
    rw [ArtifactCache.placeFor, Candidate.unit_ofSource, Roots.unit_below, segments,
      UnitId.fileNames_concat, home root listed generated]

end

namespace ArtifactCache

variable {c : ArtifactCache} {d : Disk} {u : UnitId}

theorem isArtifact_placeFor (bare : IsBare c.ending) (tidy : u.Tidy) (d : Disk) :
    IsArtifactIn d c.ending c.folder (c.placeFor d u) := by
  rw [← placeOf_pathOf bare tidy]
  exact isArtifact_pathOf bare tidy d

theorem readAt_of_cached (bare : IsBare c.ending) (tidy : u.Tidy) (sound : d.Sound)
    (plain : d.Plain c.folder) {artifact : ByteArray} (cached : c.read d u = some artifact) :
    d.readAt (c.placeFor d u) = some artifact := by
  rw [← placeOf_pathOf bare tidy]
  refine readAt_of_read sound (plain_pathOf bare tidy plain) ?_
  simp only [read] at cached
  rcases content : d.read (c.pathOf u) with fault | artifact'
  · simp [content, Except.toOption] at cached
  · simpa [content, Except.toOption] using cached

end ArtifactCache

theorem Log.compiled_of_other {events : List Event} {last : Event} (other : last.outcome ≠ .compiled) :
    ∀ e ∈ events ++ [last], e.outcome = .compiled → e ∈ events := by
  intro e told outcome
  rcases List.mem_append.mp told with old | new
  · exact old
  · rw [List.mem_singleton.mp new] at outcome
    exact absurd outcome other

/-- What a pass has on record is what lies in the cache, and what was put there is on record. -/
structure Recorded (plan : Plan) (before : Disk) (p : Pass) : Prop where
  records : ∀ logical r, p.manifest.units.find? logical = some r →
    (UnitId.ofLogical logical).Clean ∧ ∃ content,
      p.disk.readAt (plan.cache.placeFor before (.ofLogical logical)) = some content ∧
        r.checksum = .ofContent content
  compiled : ∀ e ∈ p.log.events, e.outcome = .compiled → ∃ r, p.manifest.units.find? e.unit = some r
  written : ∀ place, IsArtifactIn before plan.cache.ending plan.cache.folder place →
    p.disk.leafAt place = before.leafAt place ∨
      ∃ logical r, p.manifest.units.find? logical = some r ∧
        place = plan.cache.placeFor before (.ofLogical logical)
  stores : ∀ names device,
    p.disk.entryAt (before.placeOf plan.cache.folder ++ names) ≠ some (.device device)

namespace Recorded

variable {plan : Plan} {points : List String} {before : Disk} {p q : Pass} {m next : Stage}

/-- Folders may be made. -/
theorem congr (recorded : Recorded plan before p) (change : Changes (fun _ => False) p.disk q.disk)
    (manifest : q.manifest = p.manifest)
    (events : ∀ e ∈ q.log.events, e.outcome = .compiled → e ∈ p.log.events) :
    Recorded plan before q := by
  have leaves := fun place => (change.leaves place).resolve_right id
  constructor
  · intro logical r found
    rw [manifest] at found
    simpa only [readAt_congr (leaves _)] using recorded.records logical r found
  · intro e told outcome
    rw [manifest]
    exact recorded.compiled e (events e told outcome) outcome
  · intro place artifact
    rw [manifest, leaves]
    exact recorded.written place artifact
  · intro names device there
    rw [← leafAt_eq_some (by simp), leaves, leafAt_eq_some (by simp)] at there
    exact recorded.stores names device there

/-- A unit is recorded whose artifact is there, and no other artifact is changed. -/
theorem record (recorded : Recorded plan before p) {u : UnitId} (clean : u.Clean)
    (bare : IsBare plan.cache.ending) {r : ArtifactRecord} {content : ByteArray}
    (manifest : q.manifest = p.manifest.record u.logical r)
    (here : q.disk.readAt (plan.cache.placeFor before u) = some content)
    (checksum : r.checksum = .ofContent content)
    (others : ∀ place, IsArtifactIn before plan.cache.ending plan.cache.folder place →
      place ≠ plan.cache.placeFor before u → q.disk.leafAt place = p.disk.leafAt place)
    (events : ∀ e ∈ q.log.events, e.outcome = .compiled → e ∈ p.log.events ∨ e.unit = u.logical)
    (stores : ∀ names device,
      q.disk.entryAt (before.placeOf plan.cache.folder ++ names) ≠ some (.device device)) :
    Recorded plan before q := by
  have own : q.manifest.units.find? u.logical = some r := by
    rw [manifest]
    exact Dict.find?_insert_self ..
  have kept : ∀ logical, (∃ old, p.manifest.units.find? logical = some old) →
      ∃ other, q.manifest.units.find? logical = some other := by
    intro logical found
    rw [manifest]
    exact Manifest.find?_record_of_find? found
  constructor
  · intro logical other found
    rw [manifest] at found
    rcases Manifest.find?_record_cases found with ⟨rfl, rfl⟩ | ⟨differ, old⟩
    · rw [UnitId.ofLogical_logical]
      exact ⟨clean, content, here, checksum⟩
    · obtain ⟨named, artifact, read, digest⟩ := recorded.records logical other old
      refine ⟨named, artifact, ?_, digest⟩
      rw [readAt_congr (others _ (ArtifactCache.isArtifact_placeFor bare named.tidy before) ?_)]
      · exact read
      · intro same
        exact differ (ArtifactCache.logical_of_placeFor same).symm
  · intro e told outcome
    rcases events e told outcome with old | new
    · exact kept _ (recorded.compiled e old outcome)
    · exact ⟨r, by rw [new, own]⟩
  · intro place artifact
    by_cases same : place = plan.cache.placeFor before u
    · exact .inr ⟨u.logical, r, own, by rw [same, UnitId.ofLogical_logical]⟩
    · rw [others place artifact same]
      rcases recorded.written place artifact with still | ⟨logical, old, found, there⟩
      · exact .inl still
      · obtain ⟨other, found⟩ := kept logical ⟨old, found⟩
        exact .inr ⟨logical, other, found, there⟩
  · exact stores

/-- An artifact that is delivered is recorded. -/
theorem delivered (proper : plan.Proper) (plain : plan.Plain before) {t : Job} {ts : List Job}
    {ss : List (SourceRoot × SourceFile)} {es : List EntryRef}
    (frame : Frame plan before ⟨p, t :: ts, ss, es⟩) (clean : t.candidate.unit.Clean)
    (home : ∀ place, t.Goes plan before place → place = plan.cache.placeFor before t.candidate.unit)
    (recorded : Recorded plan before p) (artifact : ByteArray) :
    Recorded plan before (p.deliver plan t.candidate t.goal artifact) := by
  have lawful := frame.jobs t (by simp)
  have since := frame.changes
  rcases p.deliver_cases plan t.candidate t.goal artifact with
    ⟨e, d, stored, delivered⟩ | ⟨d, stored, delivered⟩
  all_goals rw [delivered]
  · rcases stored_cases proper plain since lawful stored with ⟨_, folders⟩ | ⟨ok, _⟩
    · refine recorded.congr folders rfl ?_
      simp only [Pass.fail, Pass.setDisk, Log.events_addError]
      exact Log.compiled_of_other (by simp)
    · cases ok
  rcases stored_cases proper plain since lawful stored with ⟨⟨e, error⟩, _⟩ | ⟨_, place, goes, wrote⟩
  · cases error
  obtain rfl := home place goes
  have written := wrote.additions
  have reached : before.Changes (fun _ => True) d :=
    (since.mono fun _ _ => trivial).trans (written.changes.mono fun _ _ => trivial)
  have removed : d.Changes (fun place => Carries plan.roots.ending place)
      ((p.setDisk d).removeSource t.candidate.origin t.goal).disk :=
    changes_removeSource plain reached lawful
  have gone : Removals d ((p.setDisk d).removeSource t.candidate.origin t.goal).disk :=
    removals_removeSource plain reached lawful
  generalize ((p.setDisk d).removeSource t.candidate.origin t.goal).disk = after at removed gone ⊢
  have kept : ∀ place, IsArtifactIn before plan.cache.ending plan.cache.folder place →
      after.leafAt place = d.leafAt place :=
    fun place artifact => (removed.leaves place).resolve_right fun carries =>
      not_isArtifactIn proper.artifact proper.differ carries artifact
  obtain ⟨serial, entry⟩ := wrote.file (recorded.stores _)
  have stands : after.readAt (plan.cache.placeFor before t.candidate.unit) = some artifact := by
    rw [readAt_congr (kept _ (ArtifactCache.isArtifact_placeFor proper.artifact clean.tidy before))]
    simp [readAt, leafAt, entry]
  refine recorded.record (r := ⟨t.candidate.origin.kind, toString t.candidate.origin, .ofContent artifact⟩)
    clean proper.artifact rfl stands rfl ?_ ?_ ?_
  · intro place there other
    rw [kept place there]
    exact (written.leaves place).resolve_right fun here => other here.1
  · intro e told _
    simp only [Log.events_addCompiled, List.mem_append, List.mem_singleton] at told
    exact told.imp_right fun same => by rw [same]
  · intro names device there
    rw [← leafAt_eq_some (by simp)] at there
    rcases gone.leaves (before.placeOf plan.cache.folder ++ names) with same | absent
    · rw [same] at there
      rcases written.leaves (before.placeOf plan.cache.folder ++ names) with old | ⟨here, _⟩
      · rw [old, leafAt_eq_some (by simp)] at there
        exact recorded.stores names device there
      · rw [here, leafAt_eq_some (by simp), entry] at there
        cases there
    · rw [absent] at there
      cases there

theorem move (proper : plan.Proper) (plain : plan.Plain before) (quiet : plan.service.Quiet)
    (home : plan.AtHome before)
    (straight : ∀ root ∈ plan.roots.roots, ∀ names, plan.roots.Holds before root names →
      ∀ name ∈ names, '\\' ∉ name.toList)
    (kept : m.pass.archives.Kept plan.roots.ending)
    (spelled : plan.Spelled before m.pass.archives) (frame : Frame plan before m)
    (sourced : Sourced plan before m) (recorded : Recorded plan before m.pass)
    (move : Move plan points m next) : Recorded plan before next.pass := by
  have clean : ∀ c : Candidate, c.Known plan before m.pass.archives → c.unit.Clean :=
    fun c known => known.clean proper.source kept straight spelled
  have still : m.pass.disk.Changes (fun _ => False) m.pass.disk := .refl frame.changes.sound
  cases move with
  | check | search | list | unpack | begin | call => exact recorded.congr still rfl fun _ told _ => told
  | pass | yield => exact recorded.congr still rfl (Log.compiled_of_other (by simp))
  | unread | reject =>
    refine recorded.congr still rfl ?_
    simp only [Pass.fail, Log.events_addError]
    exact Log.compiled_of_other (by simp)
  | replace loud => exact absurd quiet loud
  | @keep p ss es r artifact listed fresh cached =>
    have named := clean _ (sourced.entries r listed)
    have there := ArtifactCache.readAt_of_cached proper.artifact named.tidy frame.changes.sound
      (frame.changes.plain (plain _ (.inl rfl))) cached
    rw [ArtifactCache.placeFor_congr frame.changes] at there
    exact recorded.record named proper.artifact rfl there rfl (fun _ _ _ => rfl)
      (fun e told outcome => .inl (Log.compiled_of_other (by simp) e told outcome)) recorded.stores
  | @deliver p c goal s ts ss es artifact ends =>
    have known := sourced.jobs ⟨c, goal, some s⟩ (by simp)
    exact delivered proper plain frame (clean _ known)
      (fun place goes => goes.home proper home straight known) recorded artifact

theorem after (proper : plan.Proper) (plain : plan.Plain before) (quiet : plan.service.Quiet)
    (clear : ∀ root ∈ plan.roots.roots, before.Plain root.path) (home : plan.AtHome before)
    (straight : ∀ root ∈ plan.roots.roots, ∀ names, plan.roots.Holds before root names →
      ∀ name ∈ names, '\\' ∉ name.toList)
    {last : Stage} (course : Course plan points m last)
    (distinct : (m.pass.archives.paths.map Archive.key).Nodup)
    (kept : m.pass.archives.Kept plan.roots.ending)
    (spelled : plan.Spelled before last.pass.archives) (frame : Frame plan before m)
    (sourced : Sourced plan before m) (recorded : Recorded plan before m.pass) :
    Recorded plan before last.pass := by
  suffices all : Frame plan before last ∧ Sourced plan before last ∧ Recorded plan before last.pass
    from all.2.2
  refine course.invariant_between
    (fun m => Frame plan before m ∧ Sourced plan before m ∧ Recorded plan before m.pass) ?_
    ⟨frame, sourced, recorded⟩
  rintro here next since rest ⟨frame, sourced, recorded⟩ move
  have paths : (here.pass.archives.paths.map Archive.key).Nodup := by rwa [since.paths]
  have later := (Onward.of_move move).trans (Onward.of_course rest)
  have known : plan.Spelled before here.pass.archives := ⟨spelled.sources,
    fun archive held settled => spelled.entries archive held (later.settled archive held settled)⟩
  exact ⟨frame.move proper plain quiet move, sourced.move proper clear paths frame move,
    recorded.move proper plain quiet home straight (kept.after since) known frame sourced move⟩

end Recorded

/-- A manifest that is loaded lies in a folder that can be opened. -/
theorem Manifest.opened_of_load {d : Disk} {folder : Path} {m : Manifest} (plain : d.Plain folder)
    (filled : folder.text ≠ "") (loaded : load d folder = .ok (some m)) :
    d.stat folder = .ok (d.placeOf folder, .folder) := by
  rcases found : d.stat (pathIn folder) with fault | ⟨place, entry⟩
  · simp only [load, readText, Disk.read, found] at loaded
    split at loaded
    · rename_i text
      cases text
    · cases loaded
    · cases loaded
  · exact stat_of_joinName plain isName_manifest filled found

/-- Where the artifacts are those of some units, the names of these are listed. -/
theorem ArtifactCache.list_eq {c : ArtifactCache} {d : Disk} {names : List String} (sound : d.Sound)
    (opened : d.stat c.folder = .ok (d.placeOf c.folder, .folder)) (bare : IsBare c.ending)
    (sorted : names.Pairwise (· < ·)) (clean : ∀ logical ∈ names, (UnitId.ofLogical logical).Clean)
    (there : ∀ logical ∈ names, d.IsFileAt (c.placeFor d (.ofLogical logical)))
    (only : ∀ way, Carries c.ending way → d.IsFileAt (d.placeOf c.folder ++ way) →
      ∃ logical ∈ names, way = UnitId.fileNames c.ending (UnitId.ofLogical logical).segments) :
    c.list d = names := by
  have file : ∀ f ∈ c.files d, ∃ logical ∈ names, f = listed c.folder
      (UnitId.fileNames c.ending (UnitId.ofLogical logical).segments) ∧
        Text.slashes (f.relative.withExtension "").text = logical := by
    intro f member
    obtain ⟨place, way, here, carries, stands, rfl⟩ := (mem_filesWithExtension sound).mp member
    rw [opened] at here
    cases here
    obtain ⟨logical, known, rfl⟩ := only way carries stands
    exact ⟨logical, known, rfl, (clean logical known).file_name bare⟩
  have apart : ((c.files d).map fun f => Text.slashes (f.relative.withExtension "").text).Nodup := by
    refine List.Nodup.map_on ?_ ?_
    · intro f first g second same
      obtain ⟨one, _, rfl, name⟩ := file f first
      obtain ⟨two, _, rfl, other⟩ := file g second
      rw [name, other] at same
      rw [same]
    · refine List.Nodup.filter _ (List.Nodup.map_on ?_ (nodup_filesUnder sound))
      have proper : ∀ way ∈ d.filesUnder c.folder, ∀ name ∈ way, IsName name := by
        intro way member name inside
        obtain ⟨place, _, _, stands⟩ := (mem_filesUnder sound).mp member
        exact stands.proper sound name (List.mem_append_right _ inside)
      intro one first two second same
      have ways := congrArg (fun f : Listed => f.relative.names) same
      simpa only [listed, Path.names_relativePath (proper _ first),
        Path.names_relativePath (proper _ second)] using ways
  have same : ∀ name, name ∈ ((c.files d).map fun f =>
      Text.slashes (f.relative.withExtension "").text) ↔ name ∈ names := by
    intro name
    constructor
    · intro member
      obtain ⟨f, inside, rfl⟩ := List.mem_map.mp member
      obtain ⟨logical, known, _, equal⟩ := file f inside
      rwa [equal]
    · intro known
      have named := clean name known
      refine List.mem_map.mpr ⟨_, (mem_filesWithExtension sound).mpr ⟨_, _, opened,
        named.carries bare, there name known, rfl⟩, named.file_name bare⟩
  have distinct : names.Nodup := by
    refine List.Pairwise.imp (fun {a b} less => ?_) sorted
    rintro rfl
    exact String.lt_irrefl a less
  have perm := (List.mergeSort_perm _ fun a b : String => a ≤ b).trans
    ((List.perm_ext_iff_of_nodup apart distinct).mpr same)
  exact perm.eq_of_pairwise (fun _ _ _ _ => String.le_antisymm) (Text.sorted_mergeSort _)
    (sorted.imp Std.le_of_lt)

theorem Manifest.fileName_eq : Manifest.fileName = ".strata-manifest" ++ "." ++ "json" := by decide

/-- The manifest is no artifact of a unit. -/
theorem ArtifactCache.placeFor_ne_manifest {c : ArtifactCache} {d : Disk} {u : UnitId}
    (bare : IsBare c.ending) (other : c.ending ≠ "json") :
    c.placeFor d u ≠ d.placeOf c.folder ++ [Manifest.fileName] := by
  intro same
  obtain ⟨front, last, _, names⟩ := u.fileNames_eq c.ending
  rw [placeFor, List.append_cancel_left_eq, names] at same
  have text := List.singleton_inj.mp (List.append_inj' (same.trans (List.nil_append _).symm) rfl).2
  exact other (lastDot_unique text.symm bare.dotless Manifest.fileName_eq (by decide)).2

theorem not_isArtifactIn_manifest {d : Disk} {ending : String} {folder : Path} (bare : IsBare ending)
    (other : Text.sameIgnoringCase "json" ending = false) :
    ¬ IsArtifactIn d ending folder (d.placeOf folder ++ [Manifest.fileName]) := by
  rintro ⟨front, name, same, head, old, text, alike⟩
  rw [List.append_cancel_left_eq] at same
  have here := List.singleton_inj.mp (List.append_inj' ((List.nil_append _).trans same) rfl).2
  have dotless : '.' ∉ old.toList := by
    rw [← Text.mem_lower (by decide) (by decide), Text.sameIgnoringCase_iff.mp alike,
      Text.mem_lower (by decide) (by decide)]
    exact bare.dotless
  have ends := (lastDot_unique (here.trans text) dotless Manifest.fileName_eq (by decide)).2
  rw [ends, other] at alike
  cases alike

namespace Builder

variable {b : Builder} {env : Environment} {heard : Bool} {cancel : Cancel} {s s' : Site}
  {summary : Summary}

theorem recorded_start (b : Builder) (env : Environment) (heard : Bool) (cancel : Cancel)
    (sound : s.disk.Sound) (stores : ∀ names device,
      s.disk.entryAt (s.disk.placeOf b.layout.cache ++ names) ≠ some (.device device)) :
    Recorded (b.plan env cancel) (b.cache.ensureFolder s.disk).2 (b.start env heard s) := by
  have ensured := b.ensured sound
  refine ⟨by simp [start, opening, Manifest.new], by simp [start, opening, Log.start],
    fun _ _ => .inl rfl, fun names device there => ?_⟩
  rw [ensured.placeOf, ← leafAt_eq_some (by simp)] at there
  have kept := (ensured.leaves (s.disk.placeOf b.layout.cache ++ names)).resolve_right id
  rw [show (b.start env heard s).disk = (b.cache.ensureFolder s.disk).2 from rfl] at there
  exact stores names device ((leafAt_eq_some (by simp)).mp (kept ▸ there))

theorem settled_recorded {config : Config} {project : Path} (accepted : config.check = .ok ())
    (layout : b.layout = .resolve project config) (quiet : b.service.Quiet) (sound : s.disk.Sound)
    (plain : b.layout.Plain s.disk) (clear : ∀ root ∈ (b.roots env).roots, s.disk.Plain root.path)
    (home : s.disk.placeOf b.layout.generated = s.disk.placeOf b.layout.cache)
    (straight : ∀ root ∈ (b.roots env).roots, ∀ names, (b.roots env).Holds s.disk root names →
      ∀ name ∈ names, '\\' ∉ name.toList)
    (stores : ∀ names device,
      s.disk.entryAt (s.disk.placeOf b.layout.cache ++ names) ≠ some (.device device))
    (spelled : (b.plan env cancel).Spelled s.disk (b.settled env heard cancel s).archives) :
    Recorded (b.plan env cancel) (b.cache.ensureFolder s.disk).2 (b.settled env heard cancel s) := by
  have ensured := b.ensured sound
  obtain ⟨source, artifact, differ⟩ := config.extensions_of_check accepted
  have proper : (b.plan env cancel).Proper := by
    refine plan_proper ?_ ?_ ?_ <;> rw [layout] <;> assumption
  have outputs : (b.plan env cancel).Plain (b.cache.ensureFolder s.disk).2 :=
    plan_plain (plain.mono ensured)
  have roots : ∀ root ∈ (b.plan env cancel).roots.roots,
      (b.cache.ensureFolder s.disk).2.Plain root.path := fun root known => ensured.plain (clear root known)
  have near : (b.plan env cancel).AtHome (b.cache.ensureFolder s.disk).2 := by
    intro root known generated
    have path := Roots.mem_ofPaths known
    rw [if_pos generated] at path
    rw [ensured.placeOf, ensured.placeOf, ← Option.some.inj path]
    exact home
  obtain ⟨distinct, kept⟩ := Archives.fresh_ofPaths b.layout.archives b.layout.naming.sourceExt
    b.layout.naming.reserved
  obtain ⟨ss, es, course⟩ := b.settled_course env heard cancel s
  have plainly : ∀ root ∈ (b.plan env cancel).roots.roots, ∀ names,
      (b.plan env cancel).roots.Holds (b.cache.ensureFolder s.disk).2 root names →
        ∀ name ∈ names, '\\' ∉ name.toList :=
    fun root known names holds => straight root known names ((Roots.Holds.mono ensured).mp holds)
  have named : (b.plan env cancel).Spelled (b.cache.ensureFolder s.disk).2
      (b.settled env heard cancel s).archives :=
    ⟨fun root known names holds =>
      spelled.sources root known names ((Roots.Holds.mono ensured).mp holds), spelled.entries⟩
  have after := Recorded.after proper outputs quiet roots near plainly course distinct kept named
    (.opening b env heard ensured.sound s.called []) ⟨by simp, by simp, by simp⟩
    (b.recorded_start env heard cancel sound stores)
  exact after

/-- Records that were taken over describe the cache as well. -/
theorem filled_recorded (artifact : IsBare b.layout.naming.artifactExt) {before : Disk}
    (plain : before.Plain b.layout.cache) {within : Place → Prop}
    (since : before.Changes within (b.settled env heard cancel s).disk)
    (earlier : ∀ m, b.previous s = some m → ∀ logical ∈ m.units.keys, (UnitId.ofLogical logical).Clean)
    (recorded : Recorded (b.plan env cancel) before (b.settled env heard cancel s)) {logical : String}
    {r : ArtifactRecord} (found : (b.filled env heard cancel s).units.find? logical = some r) :
    (UnitId.ofLogical logical).Clean ∧ ∃ content, (b.settled env heard cancel s).disk.readAt
      (b.cache.placeFor before (.ofLogical logical)) = some content ∧
        r.checksum = .ofContent content := by
  have member := (b.sorted_filled env heard cancel s).find?_eq.mp found
  rcases filled_cases member with here | ⟨m, loaded, old, holds⟩
  · exact recorded.records logical r ((b.sorted_settled env heard cancel s).find?_eq.mpr here)
  · have clean := earlier m loaded logical (List.mem_map_of_mem old)
    refine ⟨clean, ?_⟩
    have named : UnitId.ofSymbol logical = .ofLogical logical := clean.ofSymbol_logical
    simp only [Pass.stillHolds, named, Bool.and_eq_true, Option.any_eq_true, beq_iff_eq] at holds
    obtain ⟨_, content, cached, digest⟩ := holds
    have there := ArtifactCache.readAt_of_cached artifact clean.tidy since.sound (since.plain plain) cached
    rw [ArtifactCache.placeFor_congr since] at there
    exact ⟨content, there, digest.symm⟩

theorem settled_changes (proper : (b.plan env cancel).Proper) (quiet : b.service.Quiet)
    (sound : s.disk.Sound) (plain : b.layout.Plain s.disk) :
    (b.cache.ensureFolder s.disk).2.Changes (fun _ => True) (b.settled env heard cancel s).disk := by
  have ensured := b.ensured sound
  have outputs : (b.plan env cancel).Plain (b.cache.ensureFolder s.disk).2 :=
    plan_plain (plain.mono ensured)
  obtain ⟨ss, es, course⟩ := b.settled_course env heard cancel s
  have start : Frame (b.plan env cancel) _ ⟨b.start env heard s, [], [], []⟩ :=
    .opening b env heard ensured.sound s.called []
  exact (start.after proper outputs quiet course).changes.mono fun _ _ => trivial

/-- The manifest that a build has saved is read back. -/
theorem compile_loads (proper : (b.plan env cancel).Proper) (quiet : b.service.Quiet)
    (sound : s.disk.Sound) (plain : b.layout.Plain s.disk)
    (free : ∀ device, (b.settled env heard cancel s).disk.entryAt
      ((b.settled env heard cancel s).disk.placeOf b.layout.cache ++ [Manifest.fileName]) ≠
        some (.device device))
    (built : b.compile env heard cancel s = (.ok summary, s')) (ran : summary.ran = true)
    (saved : ((b.filled env heard cancel s).save (b.settled env heard cancel s).disk
      b.layout.cache).1 = .ok ()) :
    Manifest.load s'.disk b.layout.cache = .ok (some (b.filled env heard cancel s)) := by
  have since : Changes _ _ (b.settled env heard cancel s).disk :=
    settled_changes proper quiet sound plain
  have written : (b.filled env heard cancel s).save (b.settled env heard cancel s).disk
      b.layout.cache = (.ok (), s'.disk) := by
    rw [compile_saves built ran]
    exact Prod.ext saved rfl
  exact Manifest.load_of_save since.sound
    (since.plain ((b.ensured sound).plain (plain b.layout.cache (by simp))))
    (b.sorted_filled env heard cancel s) free written

/-- The manifest that a build has saved describes the cache: what is on record lies there under its
name with the content it was recorded for, and whatever was compiled is on record. Where the cache
held no artifact before, the names on record are those of all artifacts. -/
theorem compile_records {config : Config} {project : Path} (accepted : config.check = .ok ())
    (layout : b.layout = .resolve project config) (quiet : b.service.Quiet) (sound : s.disk.Sound)
    (plain : b.layout.Plain s.disk) (clear : ∀ root ∈ (b.roots env).roots, s.disk.Plain root.path)
    (home : s.disk.placeOf b.layout.generated = s.disk.placeOf b.layout.cache)
    (other : b.layout.naming.artifactExt ≠ "json")
    (straight : ∀ root ∈ (b.roots env).roots, ∀ names, (b.roots env).Holds s.disk root names →
      ∀ name ∈ names, '\\' ∉ name.toList)
    (stores : ∀ names device,
      s.disk.entryAt (s.disk.placeOf b.layout.cache ++ names) ≠ some (.device device))
    (spelled : (b.plan env cancel).Spelled s.disk (b.settled env heard cancel s).archives)
    (earlier : ∀ m, b.previous s = some m → ∀ logical ∈ m.units.keys, (UnitId.ofLogical logical).Clean)
    (built : b.compile env heard cancel s = (.ok summary, s')) (ran : summary.ran = true)
    (saved : ((b.filled env heard cancel s).save (b.settled env heard cancel s).disk
      b.layout.cache).1 = .ok ()) : ∃ m, Manifest.load s'.disk b.layout.cache = .ok (some m) ∧
    (∀ logical r, m.units.find? logical = some r → (UnitId.ofLogical logical).Clean ∧
      ∃ content, s'.disk.readAt (s'.disk.placeOf (b.cache.pathOf (.ofLogical logical))) =
        some content ∧ r.checksum = .ofContent content) ∧
    (∀ e ∈ summary.events, e.outcome = .compiled → ∃ r, m.units.find? e.unit = some r) ∧
    (Text.sameIgnoringCase "json" b.layout.naming.artifactExt = false → b.layout.cache.text ≠ "" →
      (∀ names, Carries b.layout.naming.artifactExt names →
        ¬ s.disk.IsFileAt (s.disk.placeOf b.layout.cache ++ names)) →
      b.cache.list s'.disk = m.units.keys) := by
  obtain ⟨events, _⟩ := compile_settled built ran
  have ensured := b.ensured sound
  have recorded : Recorded (b.plan env cancel) _ (b.settled env heard cancel s) :=
    settled_recorded accepted layout quiet sound plain clear home straight stores spelled
  obtain ⟨source, artifact, differ⟩ := config.extensions_of_check accepted
  have proper : (b.plan env cancel).Proper := by
    refine plan_proper ?_ ?_ ?_ <;> rw [layout] <;> assumption
  have since : Changes _ _ (b.settled env heard cancel s).disk :=
    settled_changes proper quiet sound plain
  have sure := plain b.layout.cache (by simp)
  have disk := compile_saves built ran
  have place := since.placeOf b.layout.cache
  have loaded : Manifest.load s'.disk b.layout.cache = .ok (some (b.filled env heard cancel s)) := by
    refine compile_loads proper quiet sound plain ?_ built ran saved
    rw [place]
    exact recorded.stores [Manifest.fileName]
  have added := changes_save (b.filled env heard cancel s) since.sound
    (since.plain (ensured.plain sure))
  rw [← disk] at added
  have whole : Changes (fun _ => True) (b.cache.ensureFolder s.disk).2 s'.disk :=
    since.trans (added.changes.mono fun _ _ => trivial)
  rw [place] at added
  have kept : ∀ place, place ≠ (b.cache.ensureFolder s.disk).2.placeOf b.layout.cache ++
      [Manifest.fileName] → s'.disk.leafAt place = (b.settled env heard cancel s).disk.leafAt place :=
    fun place apart => (added.leaves place).resolve_right fun here => apart here.1
  have apart : ∀ u, b.cache.placeFor (b.cache.ensureFolder s.disk).2 u ≠
      (b.cache.ensureFolder s.disk).2.placeOf b.layout.cache ++ [Manifest.fileName] :=
    fun u => ArtifactCache.placeFor_ne_manifest (c := b.cache) proper.artifact other
  have described : ∀ logical r, (b.filled env heard cancel s).units.find? logical = some r →
      (UnitId.ofLogical logical).Clean ∧ ∃ content,
        s'.disk.readAt (b.cache.placeFor (b.cache.ensureFolder s.disk).2 (.ofLogical logical)) =
          some content ∧ r.checksum = .ofContent content := by
    intro logical r found
    rw [readAt_congr (kept _ (apart _))]
    exact filled_recorded proper.artifact (ensured.plain sure) since earlier recorded found
  refine ⟨_, loaded, ?_, ?_, ?_⟩
  · intro logical r found
    obtain ⟨clean, there⟩ := described logical r found
    rw [ArtifactCache.placeOf_pathOf (c := b.cache) proper.artifact clean.tidy,
      ArtifactCache.placeFor_congr whole]
    exact ⟨clean, there⟩
  · intro e told outcome
    rw [events] at told
    obtain ⟨r, found⟩ := recorded.compiled e told outcome
    exact ⟨r, find?_filled found⟩
  intro unlike named none
  have known : ∀ logical ∈ (b.filled env heard cancel s).units.keys,
      ∃ r, (b.filled env heard cancel s).units.find? logical = some r := by
    intro logical member
    obtain ⟨pair, inside, rfl⟩ := List.mem_map.mp member
    exact ⟨pair.2, (b.sorted_filled env heard cancel s).find?_eq.mpr inside⟩
  refine ArtifactCache.list_eq (c := b.cache) whole.sound
    (Manifest.opened_of_load (whole.plain (ensured.plain sure)) named loaded) proper.artifact
    (b.sorted_filled env heard cancel s) ?_ ?_ ?_
  · intro logical member
    obtain ⟨r, found⟩ := known logical member
    exact (described logical r found).1
  · intro logical member
    obtain ⟨r, found⟩ := known logical member
    obtain ⟨_, content, there, _⟩ := described logical r found
    rw [ArtifactCache.placeFor_congr whole]
    refine isFileAt_of_readAt there fun device here => ?_
    rw [kept _ (apart _), leafAt_eq_some (by simp)] at here
    exact recorded.stores _ device here
  · intro way carries stands
    rw [whole.placeOf] at stands
    have lies : IsArtifactIn (b.cache.ensureFolder s.disk).2 b.cache.ending b.cache.folder
        ((b.cache.ensureFolder s.disk).2.placeOf b.layout.cache ++ way) :=
      isArtifactIn_of_carries _ _ carries
    have same := kept ((b.cache.ensureFolder s.disk).2.placeOf b.layout.cache ++ way) fun here => by
      rw [here] at lies
      exact not_isArtifactIn_manifest proper.artifact unlike lies
    rcases recorded.written _ lies with old | ⟨logical, r, found, there⟩
    · have early := stands.congr (old.symm.trans same.symm)
      have first := early.congr ((ensured.leaves _).resolve_right id).symm
      rw [ensured.placeOf] at first
      exact absurd first (none way carries)
    · exact ⟨logical, List.mem_map_of_mem ((b.sorted_filled env heard cancel s).find?_eq.mp
        (find?_filled found)), List.append_cancel_left there⟩

/-- Names that start with a dot can be looked for among all entries. -/
theorem spelled_of_entries {plan : Plan} {d : Disk} {archives : Archives} (sound : d.Sound)
    (shown : ∀ pair ∈ d.entries.pairs, ∀ name ∈ pair.1, name.toList.head? ≠ some '.')
    (empty : ∀ archive held, archives.settled archive = some held → held = []) :
    plan.Spelled d archives := by
  refine ⟨?_, fun archive held settled v entry member => ?_⟩
  · rintro root _ names ⟨carries, file⟩ last named dots
    have member : last ∈ names := List.mem_of_getLast? named
    have filled : d.placeOf root.path ++ names ≠ [] := by simp [carries.filled]
    rcases file with ⟨_, _, there⟩ | ⟨_, there⟩
    · exact shown _ ((sound.mem_pairs filled).mpr there) last (by simp [member]) dots.hidden
    · exact shown _ ((sound.mem_pairs filled).mpr there) last (by simp [member]) dots.hidden
  · rw [empty archive held settled] at member
    cases member

theorem stores_of_entries {d : Disk} (sound : d.Sound)
    (none : ∀ pair ∈ d.entries.pairs, (pair.2 matches .device _) = false) (place : Place) (device : Device) :
    d.entryAt place ≠ some (.device device) := by
  intro there
  by_cases filled : place = []
  · rw [filled] at there
    cases there
  · have absent := none _ ((sound.mem_pairs filled).mpr there)
    cases absent

theorem ok_of_toOption {ε α : Type} {result : Except ε α} {a : α} (some : result.toOption = .some a) :
    result = .ok a := by
  cases result with
  | error e => cases some
  | ok b => rw [Option.some.inj some]

theorem compile_records_sample : ∃ summary s' m,
    sample.compile .prod true .never sampleSite = (.ok summary, s') ∧
      Manifest.load s'.disk sample.layout.cache = .ok (some m) ∧
      sample.cache.list s'.disk = m.units.keys ∧
      ∃ e ∈ summary.events, ∃ r, m.units.find? e.unit = some r := by
  obtain ⟨summary, s', built, ran, _⟩ := sample_runs
  obtain ⟨_, _, _, _, told, none, _, fresh, saved, _⟩ := sample_settled
  have accepted : sampleConfig.check = .ok () := by decide +kernel
  have layout : sample.layout = .resolve ⟨"/p"⟩ sampleConfig := rfl
  have sound : sampleSite.disk.Sound := sound_siteOf sampleFiles
  have spelled : (sample.plan .prod .never).Spelled sampleSite.disk
      (sample.settled .prod true .never sampleSite).archives := by
    refine spelled_of_entries sound (by decide +kernel) fun archive held settled => ?_
    rw [Archives.settled_of_none none] at settled
    exact (Option.some.inj settled).symm
  have home : sampleSite.disk.placeOf sample.layout.generated =
      sampleSite.disk.placeOf sample.layout.cache := by rw [layout]; rfl
  obtain ⟨m, loaded, _, compiled, listed⟩ := compile_records accepted layout
    quiet_scripted sound (fun folder _ => plain_siteOf sampleFiles folder)
    (fun root _ => plain_siteOf sampleFiles root.path) home (by decide +kernel)
    (Roots.straight_of_entries sound (by decide +kernel))
    (fun names => stores_of_entries sound (by decide +kernel) _) spelled
    (by simp [Option.isNone_iff_eq_none.mp fresh]) built ran (ok_of_toOption saved)
  obtain ⟨events, _⟩ := compile_settled built ran
  simp only [← events, List.any_eq_true, beq_iff_eq] at told
  obtain ⟨e, member, outcome⟩ := told
  exact ⟨summary, s', m, built, loaded, listed (by decide +kernel) (by decide +kernel)
    (fun names => carries_none_of_entries sound (by decide +kernel) _ names), e, member,
    compiled e member outcome⟩

/-- A project whose artifacts have the extension of the manifest, in capitals. -/
def loudConfig : Config := ⟨"p", "", {}, none, { artifactExt := "JSON" }, none, [], []⟩

def loud : Builder := ⟨.resolve ⟨"/p"⟩ loudConfig, Scripted.service, .absent⟩

def loudFiles : List (String × String) := [("/p/src/A.php", "a")]

def loudSite : Site := siteOf loudFiles

/-- The manifest itself is listed as an artifact then. -/
theorem compile_lists_manifest : loudConfig.check = .ok () ∧ loud.layout.naming.artifactExt ≠ "json" ∧
    loud.layout.cache = loud.layout.generated ∧ loud.service.Quiet ∧ loudSite.disk.Sound ∧
    (∀ p, loudSite.disk.Plain p) ∧ (∀ pair ∈ loudSite.disk.entries.pairs, ∀ name ∈ pair.1,
      '\\' ∉ name.toList ∧ name.toList.head? ≠ some '.') ∧
    (∀ names, Carries loud.layout.naming.artifactExt names →
      ¬ loudSite.disk.IsFileAt (loudSite.disk.placeOf loud.layout.cache ++ names)) ∧
    loud.previous loudSite = none ∧
    ∃ summary s' m, loud.compile .prod true .never loudSite = (.ok summary, s') ∧
      summary.ran = true ∧ Manifest.load s'.disk loud.layout.cache = .ok (some m) ∧
      m.units.keys = ["A"] ∧ ".strata-manifest" ∈ loud.cache.list s'.disk := by
  have sound : loudSite.disk.Sound := sound_siteOf loudFiles
  have seen : (((loud.cache.files ((loud.filled .prod true .never loudSite).save
        (loud.settled .prod true .never loudSite).disk loud.layout.cache).2).map
          fun file => Text.slashes (file.relative.withExtension "").text).contains ".strata-manifest",
      (loud.previous loudSite).isNone) = (true, true) ∧
      (((loud.settled .prod true .never loudSite).disk.entryAt
        ((loud.settled .prod true .never loudSite).disk.placeOf loud.layout.cache ++
          [Manifest.fileName])).isNone,
      ((loud.filled .prod true .never loudSite).save
        (loud.settled .prod true .never loudSite).disk loud.layout.cache).1.toOption,
      (loud.filled .prod true .never loudSite).units.keys,
      (loud.cache.ensureFolder loudSite.disk).1.toOption) = (true, some (), ["A"], some ()) := by
    decide +kernel
  simp only [Prod.mk.injEq] at seen
  obtain ⟨⟨listed, none⟩, free, saved, keys, opened⟩ := seen
  have accepted : loudConfig.check = .ok () := by decide +kernel
  obtain ⟨source, artifact, differ⟩ := loudConfig.extensions_of_check accepted
  have proper : (loud.plan .prod .never).Proper := plan_proper source artifact differ
  obtain ⟨summary, s', built, ran, _⟩ :=
    @compile_runs loud .prod true .never loudSite rfl opened
  rw [← compile_saves built ran] at listed
  have loaded := compile_loads proper quiet_scripted sound
    (fun folder _ => plain_siteOf loudFiles folder)
    (fun device => by rw [Option.isNone_iff_eq_none.mp free]; exact fun absurd => by cases absurd)
    built ran (ok_of_toOption saved)
  exact ⟨accepted, by decide +kernel, rfl, quiet_scripted, sound,
    fun p => plain_siteOf loudFiles p, by decide +kernel,
    fun names => carries_none_of_entries sound (by decide +kernel) _ names,
    Option.isNone_iff_eq_none.mp none, summary, s', _, built, ran, loaded, keys,
    List.mem_mergeSort.mpr (List.contains_iff_mem.mp listed)⟩

end Builder
end LayerCache
