import LayerCache.Proofs.Build.Coverage
import LayerCache.Proofs.Build.Delivery

/-! What a build leaves of earlier builds where it fails. The artifacts of the primary sources are
taken out of the cache before any unit is compiled, and only a unit that is compiled puts its
artifact back; an artifact of any other unit that fails now stays as it was. -/
namespace LayerCache

open Disk

/-- A folder that is there can be opened. -/
def Disk.Opens (d : Disk) (p : Path) : Prop :=
  d.entryAt (d.placeOf p) = some .folder → d.isFolder p = true

namespace ArtifactCache

variable {c : ArtifactCache} {d d' : Disk} {u : UnitId}

/-- An artifact that could be invalidated is not there any more. -/
theorem absent_of_invalidate {there : Bool} (bare : IsBare c.ending) (tidy : u.Tidy)
    (sound : d.Sound) (plain : d.Plain c.folder) (opened : d.isFolder c.folder = true)
    (done : c.invalidate d u = (.ok there, d')) : d'.leafAt (c.placeFor d u) = none := by
  have clear := plain_pathOf bare tidy plain
  simp only [invalidate, removeIfThere] at done
  split at done
  · rename_i removed
    cases done
    rw [← placeOf_pathOf bare tidy]
    exact (changes_remove sound clear removed).2
  · rename_i missed
    cases done
    rw [pathOf, tidy.pathIn_eq bare] at missed
    have absent := remove_absent sound plain opened (tidy.proper bare)
      (u.fileNames_ne_nil c.ending) missed
    rw [leafAt, placeFor, absent]
  · cases done

end ArtifactCache

namespace Builder

variable {b : Builder} {d d' : Disk} {units : List UnitId} {u : UnitId}

theorem removals_invalidateAll (bare : IsBare b.layout.naming.artifactExt)
    (tidy : ∀ u ∈ units, u.Tidy) (sound : d.Sound) (plain : d.Plain b.layout.cache) :
    Removals d (b.invalidateAll d units).2.2 := by
  induction units generalizing d with
  | nil => exact .refl sound
  | cons u rest ih =>
    rw [invalidateAll_disk]
    have first : Removals d (b.cache.invalidate d u).2 := removals_removeIfThere sound
      (ArtifactCache.plain_pathOf (c := b.cache) bare (tidy u (by simp)) plain)
    exact first.trans (ih (fun v member => tidy v (by simp [member])) first.sound (first.plain plain))

theorem removals_removeAll {paths : List Path} (sound : d.Sound) (plain : ∀ p ∈ paths, d.Plain p) :
    Removals d (removeAll d paths).2 := by
  induction paths generalizing d with
  | nil => exact .refl sound
  | cons p rest ih =>
    simp only [removeAll]
    split
    · rename_i removed
      have first := removals_remove sound (plain p (by simp)) removed
      exact first.trans (ih first.sound fun q member => first.plain (plain q (by simp [member])))
    · exact ih sound fun q member => plain q (by simp [member])

/-- Where nothing failed, no invalidated artifact is left. -/
theorem absent_of_invalidateAll (bare : IsBare b.layout.naming.artifactExt)
    (tidy : ∀ u ∈ units, u.Tidy) (sound : d.Sound) (plain : d.Plain b.layout.cache)
    (opened : d.isFolder b.layout.cache = true) (none : (b.invalidateAll d units).2.1 = 0)
    (member : u ∈ units) :
    (b.invalidateAll d units).2.2.leafAt (b.cache.placeFor d u) = Option.none := by
  induction units generalizing d with
  | nil => cases member
  | cons v rest ih =>
    have others : ∀ u ∈ rest, u.Tidy := fun u member => tidy u (by simp [member])
    have first : Removals d (b.cache.invalidate d v).2 := removals_removeIfThere sound
      (ArtifactCache.plain_pathOf (c := b.cache) bare (tidy v (by simp)) plain)
    have clear := first.plain plain
    rcases done : b.cache.invalidate d v with ⟨e | there, after⟩
    · simp [invalidateAll, done] at none
    rw [done] at first clear
    have fewer : (b.invalidateAll after rest).2.1 = 0 := by
      simpa only [invalidateAll, done] using none
    have same : (b.invalidateAll d (v :: rest)).2.2 = (b.invalidateAll after rest).2.2 := by
      rw [invalidateAll_disk, done]
    rw [same]
    rcases List.mem_cons.mp member with rfl | later
    · exact (removals_invalidateAll bare others first.sound clear).absent
        (ArtifactCache.absent_of_invalidate (c := b.cache) bare (tidy u (by simp)) sound plain opened
          done)
    · have gone := ih others first.sound clear (first.isFolder sound plain opened) fewer later
      rwa [ArtifactCache.placeFor_congr first] at gone

/-- The units whose artifacts are taken out before a build. -/
def renewed (b : Builder) (d : Disk) : List UnitId :=
  (d.filesWithExtension b.layout.primary b.layout.naming.sourceExt).map fun f =>
    .ofRelative f.relative b.layout.naming.sourceExt

/-- The artifacts of the primary sources are gone once a preparation has met no failure. -/
theorem absent_of_prepare (bare : IsBare b.layout.naming.artifactExt) (sound : d.Sound)
    (plain : b.layout.Plain d) (opens : d.Opens b.layout.cache) {preparation : Preparation}
    (prepared : b.prepare d = (.ok preparation, d')) (none : preparation.failed = 0)
    (known : u ∈ b.renewed d ∨ d.leafAt (b.cache.placeFor d u) = Option.none)
    (free : b.cache.placeFor d u ≠ d.placeOf b.layout.cache ++ [IgnoreList.fileName]) :
    d'.leafAt (b.cache.placeFor d u) = Option.none := by
  have cached := plain b.layout.cache (by simp)
  have tidy : ∀ u ∈ b.renewed d, u.Tidy := by
    intro u member
    obtain ⟨f, _, rfl⟩ := List.mem_map.mp member
    exact UnitId.tidy_ofRelative _ _
  have removed := removals_invalidateAll bare tidy sound cached
  have first : (b.invalidateAll d (b.renewed d)).2.1 = 0 →
      (b.invalidateAll d (b.renewed d)).2.2.leafAt (b.cache.placeFor d u) = Option.none := by
    intro none
    rcases known with member | absent
    · by_cases there : d.entryAt (d.placeOf b.layout.cache) = some .folder
      · exact absent_of_invalidateAll bare tidy sound cached (opens there) none member
      · refine removed.absent ?_
        have missing : d.entryAt (b.cache.placeFor d u) = Option.none :=
          Decidable.byContradiction fun inside =>
            there (sound.above inside (u.fileNames_ne_nil b.cache.ending))
        rw [leafAt, missing]
    · exact removed.absent absent
  have listed : (d.filesWithExtension b.layout.primary b.layout.naming.sourceExt).map
      (fun f => UnitId.ofRelative f.relative b.layout.naming.sourceExt) = b.renewed d := rfl
  simp only [prepare, listed] at prepared
  generalize b.invalidateAll d (b.renewed d) = taken at removed first prepared
  generalize List.foldl _ _ _ = list at prepared
  have listing := changes_writeIgnoreList removed.sound (removed.plain cached) list
  rw [removed.placeOf] at listing
  rcases wrote : b.cache.writeIgnoreList taken.2.2 list with ⟨e | path, after⟩
  · rw [wrote] at prepared
    cases (Prod.mk.inj prepared).1
  rw [wrote] at listing prepared
  simp only [Prod.mk.injEq, Except.ok.injEq] at prepared
  obtain ⟨rfl, rfl⟩ := prepared
  have before := (listing.leaves (b.cache.placeFor d u)).resolve_right free
  refine (removals_removeAll listing.sound ?_).absent (before.trans (first none))
  intro p member
  obtain ⟨file, stale, rfl⟩ := List.mem_map.mp member
  obtain ⟨_, names, _, carries, _, rfl⟩ := (mem_filesWithExtension listing.sound).mp stale
  exact (listing.plain (removed.plain (plain b.layout.staging (by simp)))).join carries.proper

end Builder

/-- What a stage of a build has made of artifacts: one that is not as it was before is that of a
unit that was compiled. -/
structure Made (plan : Plan) (before : Disk) (m : Stage) : Prop where
  units : ∀ u ∈ m.pass.tracker.units, u.Tidy ∧ u.Straight
  artifacts : ∀ u : UnitId, u.Tidy → u.Straight →
    m.pass.disk.leafAt (plan.cache.placeFor before u) =
      before.leafAt (plan.cache.placeFor before u) ∨
    ∃ e ∈ m.pass.log.events, e.outcome = .compiled ∧ e.unit = u.logical

namespace Made

variable {plan : Plan} {points : List String} {before : Disk} {p q : Pass} {ts ts' : List Job}
  {ss ss' : List (SourceRoot × SourceFile)} {es es' : List EntryRef} {m next : Stage}

/-- What was made so far, said of the build alone. -/
theorem of_pass (made : Made plan before ⟨p, ts, ss, es⟩) :
    (∀ u ∈ p.tracker.units, u.Tidy ∧ u.Straight) ∧ ∀ u : UnitId, u.Tidy → u.Straight →
      p.disk.leafAt (plan.cache.placeFor before u) = before.leafAt (plan.cache.placeFor before u) ∨
        ∃ e ∈ p.log.events, e.outcome = .compiled ∧ e.unit = u.logical :=
  ⟨made.units, made.artifacts⟩

/-- No artifact is changed, or only places where none lies are. -/
theorem congr {within : Place → Prop} (made : Made plan before ⟨p, ts, ss, es⟩)
    (tracker : q.tracker = p.tracker) (events : p.log.events ⊆ q.log.events)
    (change : p.disk.Changes within q.disk)
    (none : ∀ u : UnitId, u.Tidy → ¬ within (plan.cache.placeFor before u)) :
    Made plan before ⟨q, ts', ss', es'⟩ := by
  refine ⟨fun u member => made.units u (tracker ▸ member), fun u tidy straight => ?_⟩
  have same := (change.leaves (plan.cache.placeFor before u)).resolve_right (none u tidy)
  rcases made.artifacts u tidy straight with kept | ⟨e, told, rest⟩
  · exact .inl (same.trans kept)
  · exact .inr ⟨e, events told, rest⟩

theorem same (made : Made plan before ⟨p, ts, ss, es⟩) (sound : p.disk.Sound)
    (disk : q.disk = p.disk) (tracker : q.tracker = p.tracker)
    (events : p.log.events ⊆ q.log.events) : Made plan before ⟨q, ts', ss', es'⟩ :=
  made.congr tracker events (show Changes (fun _ => False) p.disk q.disk by
    rw [disk]; exact .refl sound) fun _ _ h => h

theorem delivered (proper : plan.Proper) (plain : plan.Plain before) (homed : plan.Homed before)
    {t : Job} (frame : Frame plan before ⟨p, t :: ts, ss, es⟩)
    (made : Made plan before ⟨p, t :: ts, ss, es⟩) (artifact : ByteArray) :
    Made plan before ⟨p.deliver plan t.candidate t.goal artifact, ts, ss, es⟩ := by
  have lawful := frame.jobs t (by simp)
  have since := frame.changes
  rcases p.deliver_cases plan t.candidate t.goal artifact with
    ⟨e, d, stored, delivered⟩ | ⟨d, stored, delivered⟩
  all_goals rw [delivered]
  · rcases stored_cases proper plain since lawful stored with ⟨_, folders⟩ | ⟨ok, _⟩
    · exact made.congr (q := (p.setDisk d).fail t.candidate e.message none) rfl
        (by simp [Pass.fail, Pass.setDisk]) folders fun _ _ h => h
    · cases ok
  · rcases stored_cases proper plain since lawful stored with ⟨⟨e, error⟩, _⟩ | ⟨_, place, goes, wrote⟩
    · cases error
    have written := wrote.additions
    have reached : before.Changes (fun _ => True) d :=
      (since.mono fun _ _ => trivial).trans (written.changes.mono fun _ _ => trivial)
    have removed : d.Changes (fun place => Carries plan.roots.ending place)
        ((p.setDisk d).removeSource t.candidate.origin t.goal).disk :=
      changes_removeSource plain reached lawful
    refine ⟨made.units, fun u tidy straight => ?_⟩
    have kept := (removed.leaves (plan.cache.placeFor before u)).resolve_right
      (ArtifactCache.not_carries_placeFor proper.artifact proper.differ before tidy)
    rcases written.leaves (plan.cache.placeFor before u) with same | ⟨here, _⟩
    · rcases made.artifacts u tidy straight with still | ⟨e, told, rest⟩
      · exact .inl (kept.trans (same.trans still))
      · exact .inr ⟨e, by simp [told], rest⟩
    · rw [← here] at goes
      exact .inr ⟨⟨t.candidate.unit.logical, .compiled, t.candidate.name⟩, by simp, rfl,
        goes.logical proper homed straight⟩

theorem move (proper : plan.Proper) (plain : plan.Plain before) (homed : plan.Homed before)
    (quiet : plan.service.Quiet) (frame : Frame plan before m) (made : Made plan before m)
    (move : Move plan points m next) : Made plan before next := by
  have sound := frame.changes.sound
  cases move with
  | check | search | list | unpack => exact made.same sound rfl rfl (fun _ h => h)
  | pass | yield | keep => exact made.same sound rfl rfl (by simp [Pass.skip, Pass.record])
  | @begin p ts ss es c goal archives offer fresh =>
    have lawful := frame.offered proper offer
    refine ⟨fun u member => ?_, made.artifacts⟩
    simp only [Tracker.mark_fresh fresh, List.mem_append, List.mem_singleton] at member
    rcases member with old | rfl
    · exact made.units u old
    · exact ⟨lawful.tidy, lawful.straight⟩
  | unread => exact made.same sound rfl rfl (by simp [Pass.fail])
  | call => exact made.same sound rfl rfl (fun _ h => h)
  | replace loud => exact absurd quiet loud
  | reject => exact made.same sound rfl rfl (by simp [Pass.fail])
  | deliver => exact made.delivered proper plain homed frame _

theorem after (proper : plan.Proper) (plain : plan.Plain before) (homed : plan.Homed before)
    (quiet : plan.service.Quiet) {last : Stage} (frame : Frame plan before m)
    (made : Made plan before m) (course : Course plan points m last) : Made plan before last :=
  (course.invariant (fun m => Frame plan before m ∧ Made plan before m)
    (fun _ _ both move => ⟨both.1.move proper plain quiet move,
      both.2.move proper plain homed quiet both.1 move⟩) ⟨frame, made⟩).2

end Made

namespace Site

/-- A site where somebody has written a file. -/
def edit (s : Site) (path text : String) : Site :=
  { s with disk := s.disk.provide ⟨path⟩ text.toUTF8 }

theorem disk_edit (s : Site) (path text : String) :
    (s.edit path text).disk = s.disk.provide ⟨path⟩ text.toUTF8 := rfl

end Site

namespace Builder

variable {b : Builder} {env : Environment} {heard : Bool} {cancel : Cancel} {s s' : Site}
  {report : Report} {summary : Summary}

theorem closing_made {d : Disk} (proper : (b.plan env cancel).Proper) (plain : b.layout.Plain d)
    (homed : b.layout.Homed d) (quiet : b.service.Quiet) (sound : d.Sound)
    (called : List UnitSource) : ∃ ss es, Made (b.plan env cancel) d
      ⟨b.closing env heard cancel d called, [], ss, es⟩ := by
  obtain ⟨ss, es, _, course⟩ := b.closing_leads env heard cancel d called [] []
  have start : Made (b.plan env cancel) d ⟨b.opening env heard d called, [], [], []⟩ :=
    ⟨by simp [opening, Tracker.empty], fun _ _ _ => .inl rfl⟩
  exact ⟨ss, es, start.after proper (plan_plain plain) (plan_homed homed) quiet
    (Frame.opening b env heard sound called []) course⟩

/-- A unit that fails in a compilation has the artifact it had before. -/
theorem compile_keeps_failed (source : IsBare b.layout.naming.sourceExt)
    (artifact : IsBare b.layout.naming.artifactExt)
    (differ : Text.sameIgnoringCase b.layout.naming.sourceExt b.layout.naming.artifactExt = false)
    (quiet : b.service.Quiet) (sound : s.disk.Sound) (plain : b.layout.Plain s.disk)
    (homed : b.layout.Homed s.disk) (built : b.compile env heard cancel s = (.ok summary, s'))
    {e : Event} (told : e ∈ summary.events) (failed : e.outcome = .error)
    (free : b.cache.placeFor s.disk e.identity ≠
      s.disk.placeOf b.layout.cache ++ [Manifest.fileName]) :
    e.identity.Tidy ∧
      s'.disk.leafAt (b.cache.placeFor s.disk e.identity) =
        s.disk.leafAt (b.cache.placeFor s.disk e.identity) ∧
      (b.cache.contains s.disk e.identity = true → b.cache.contains s'.disk e.identity = true) := by
  rcases compile_cases built with ⟨rfl, _, _⟩ | ⟨d, ensured, rfl, disk, _⟩
  · cases told
  have folders := b.ensured sound
  rw [ensured] at folders
  have proper : (b.plan env cancel).Proper := plan_proper source artifact differ
  have clear := plain.mono folders
  have home : b.layout.Homed d := by
    intro front back
    rw [folders.placeOf, folders.placeOf]
    exact homed front back
  obtain ⟨_, _, made⟩ : ∃ ss es, Made (b.plan env cancel) d
      ⟨b.closing env heard cancel d s.called, [], ss, es⟩ :=
    closing_made proper clear home quiet folders.sound s.called
  obtain ⟨units, artifacts⟩ := made.of_pass
  obtain ⟨_, _, account⟩ := Account.fill b env heard cancel d s.called
  have final : e ∈ finals (b.fill env heard cancel d s.called).log.events := by
    simp only [finals, List.mem_filter]
    exact ⟨told, by simp [Event.isFinal, failed]⟩
  have known := account.finals_perm.symm.subset (List.mem_map.mpr ⟨e, final, rfl⟩)
  obtain ⟨v, tracked, same⟩ := List.mem_map.mp known
  rw [fill_eq, Pass.carryOver_rest] at tracked
  dsimp only at tracked
  have identity : e.identity = v := by rw [Event.identity, ← same, UnitId.ofLogical_logical]
  obtain ⟨tidy, straight⟩ := units v tracked
  rw [identity] at free ⊢
  obtain ⟨_, _, frame⟩ : ∃ ss es, Frame (b.plan env cancel) d
      ⟨b.closing env heard cancel d s.called, [], ss, es⟩ :=
    closing_frame proper (plan_plain clear) quiet folders.sound s.called
  have saved := changes_save (b.fill env heard cancel d s.called).manifest frame.changes.sound
    (frame.changes.plain (clear b.layout.cache (by simp)))
  rw [← disk] at saved
  have whole : s.disk.Changes (fun _ => True) s'.disk :=
    ((folders.mono fun _ h => h.elim).trans (frame.changes.mono fun _ _ => trivial)).trans
      (saved.changes.mono fun _ _ => trivial)
  rw [frame.changes.placeOf, folders.placeOf] at saved
  have last := (saved.leaves (b.cache.placeFor s.disk v)).resolve_right fun here => free here.1
  have place : (b.plan env cancel).cache.placeFor d v = b.cache.placeFor s.disk v :=
    ArtifactCache.placeFor_congr folders v
  have first := (folders.leaves (b.cache.placeFor s.disk v)).resolve_right id
  have kept : s'.disk.leafAt (b.cache.placeFor s.disk v) =
      s.disk.leafAt (b.cache.placeFor s.disk v) := by
    rcases artifacts v tidy straight with kept | ⟨other, also, compiled, unit⟩
    · rw [place] at kept
      exact last.trans (kept.trans first)
    · rw [← fill_log b env heard cancel d s.called] at also
      have ended : other ∈ finals (b.fill env heard cancel d s.called).log.events := by
        simp only [finals, List.mem_filter]
        exact ⟨also, by simp [Event.isFinal, compiled]⟩
      have digest : other.identity.digest = e.identity.digest := by
        rw [identity, Event.identity, unit, UnitId.ofLogical_logical]
      have equal := List.inj_on_of_nodup_map account.finals_distinct ended final digest
      rw [← equal, compiled] at failed
      cases failed
  refine ⟨tidy, kept, fun there => ?_⟩
  have spot := ArtifactCache.placeOf_pathOf (c := b.cache) artifact tidy s.disk
  exact whole.isFile sound (ArtifactCache.plain_pathOf (c := b.cache) artifact tidy
    (plain b.layout.cache (by simp))) there (by rw [spot, kept])

/-- A unit that fails leaves no artifact of an earlier build behind, if it has a source in the
primary folder or had no artifact before. -/
theorem build_clears_failed {config : Config} {project : Path} (accepted : config.check = .ok ())
    (layout : b.layout = .resolve project config) (quiet : b.service.Quiet) (sound : s.disk.Sound)
    (plain : b.layout.Plain s.disk) (homed : b.layout.Homed s.disk)
    (opens : s.disk.Opens b.layout.cache)
    (built : b.build env heard cancel s = (.ok report, s')) (removed : report.preparation.failed = 0)
    {e : Event} (told : e ∈ report.summary.events) (failed : e.outcome = .error)
    (free : ∀ name ∈ [IgnoreList.fileName, Manifest.fileName],
      b.cache.pathOf e.identity ≠ b.layout.cache.joinName name)
    (known : e.identity ∈ b.renewed s.disk ∨
      s.disk.leafAt (b.cache.placeFor s.disk e.identity) = none) :
    b.cache.contains s'.disk e.identity = false := by
  have naming : b.layout.naming = config.naming := by rw [layout, Layout.resolve]
  obtain ⟨source, artifact, differ⟩ := Config.extensions_of_check accepted
  rw [← naming] at source artifact differ
  have apart : ∀ name ∈ [IgnoreList.fileName, Manifest.fileName],
      b.cache.placeFor s.disk e.identity ≠ s.disk.placeOf b.layout.cache ++ [name] := by
    intro name member same
    apply free name member
    have names : UnitId.fileNames b.cache.ending e.identity.segments = [name] :=
      List.append_cancel_left same
    rw [ArtifactCache.pathOf, UnitId.pathIn, names]
    rfl
  have all := build_changes source artifact differ quiet sound plain built
  rcases prepared : b.prepare s.disk with ⟨e | preparation, prior⟩
  all_goals simp only [build, prepared] at built
  · cases (Prod.mk.inj built).1
  rcases compiled : b.compile env heard cancel { s with disk := prior } with ⟨e | summary, after⟩
  all_goals rw [compiled] at built
  · cases (Prod.mk.inj built).1
  obtain ⟨equal, rfl⟩ := Prod.mk.inj built
  cases equal
  have gone := absent_of_prepare artifact sound plain opens prepared removed known
    (apart _ (by simp))
  have change := changes_prepare artifact sound plain
  rw [prepared] at change
  have home : b.layout.Homed prior := by
    intro front back
    rw [change.placeOf, change.placeOf]
    exact homed front back
  have place := ArtifactCache.placeFor_congr (c := b.cache) change e.identity
  have manifest := apart Manifest.fileName (by simp)
  rw [← place, ← change.placeOf] at manifest
  obtain ⟨tidy, kept, _⟩ := compile_keeps_failed source artifact differ quiet change.sound
    (plain.mono change) home compiled told failed manifest
  rw [place] at kept
  have clear := ArtifactCache.plain_pathOf (c := b.cache) artifact tidy
    (all.plain (plain b.layout.cache (by simp)))
  refine Bool.eq_false_iff.mpr fun there => ?_
  have leaf := (isFile_spec all.sound clear there).leaf
  rw [ArtifactCache.placeOf_pathOf artifact tidy, ArtifactCache.placeFor_congr all, kept] at leaf
  exact leaf gone

/-- An earlier build has left an artifact of a source that is rejected now. -/
def renewedFiles : List (String × String) := sampleFiles ++ [("/p/gen/Bad.phb", "BC:")]

def renewedSite : Site := siteOf renewedFiles

theorem build_clears_failed_renewed : ∃ report s',
    sample.build .prod true .never renewedSite = (.ok report, s') ∧
      sample.cache.contains renewedSite.disk (.ofLogical "Bad") = true ∧
      sample.cache.contains s'.disk (.ofLogical "Bad") = false := by
  have seen : ((sample.prepare renewedSite.disk).1.toOption.map (·.failed),
      (sample.settled .prod true .never
        { renewedSite with disk := (sample.prepare renewedSite.disk).2 }).log.events[0]?,
      (sample.cache.ensureFolder (sample.prepare renewedSite.disk).2).1.toOption,
      sample.cache.contains renewedSite.disk (.ofLogical "Bad")) =
        (some 0, some ⟨"Bad", .error, "syntax error"⟩, some (), true) := by decide +kernel
  rcases prepared : sample.prepare renewedSite.disk with ⟨_ | preparation, prior⟩
  · simp [prepared, Except.toOption] at seen
  simp only [prepared, Except.toOption, Option.map_some, Prod.mk.injEq, Option.some.injEq] at seen
  obtain ⟨none, first, opened, there⟩ := seen
  obtain ⟨summary, s', built, compiled, ran⟩ :=
    @build_runs sample .prod true .never renewedSite _ _ prepared rfl opened
  obtain ⟨events, _⟩ := compile_settled compiled ran
  rw [← events] at first
  refine ⟨⟨preparation, summary⟩, s', built, there, ?_⟩
  have accepted : sampleConfig.check = .ok () := by decide +kernel
  have layout : sample.layout = .resolve ⟨"/p"⟩ sampleConfig := rfl
  have sound : renewedSite.disk.Sound := sound_siteOf renewedFiles
  have plain : sample.layout.Plain renewedSite.disk := fun folder _ =>
    plain_siteOf renewedFiles folder
  have generated : sample.layout.generated = sample.layout.cache := rfl
  have homed : sample.layout.Homed renewedSite.disk := by
    intro front back same
    rw [generated] at same
    exact List.append_cancel_left same
  have opens : renewedSite.disk.Opens sample.layout.cache := fun _ => by decide +kernel
  have free : ∀ name ∈ [IgnoreList.fileName, Manifest.fileName],
      sample.cache.pathOf (.ofLogical "Bad") ≠ sample.layout.cache.joinName name := by
    decide +kernel
  have known : UnitId.ofLogical "Bad" ∈ sample.renewed renewedSite.disk := by
    refine List.mem_map.mpr ⟨listed sample.layout.primary ["Bad.php"], by decide +kernel, ?_⟩
    exact congrArg UnitId.ofLogical (by decide +kernel : logicalName _ _ = "Bad")
  exact build_clears_failed (e := ⟨"Bad", .error, "syntax error"⟩) accepted layout
    quiet_scripted sound plain homed opens built none (List.mem_of_getElem? first) rfl free (.inl known)

/-- A project with a root that is not the primary one. -/
def sideConfig : Config :=
  ⟨"p", "", { generated := "gen", roots := ["src", "lib"] }, none, {}, none, [], []⟩

def side : Builder := ⟨.resolve ⟨"/p"⟩ sideConfig, Scripted.service, .absent⟩

def sideFiles : List (String × String) := [("/p/lib/B.php", "ok")]

def sideFirst : Site := siteOf sideFiles

/-- It was built, and then its one source was broken. -/
def sideSite : Site := (side.build .prod true .never sideFirst).2.edit "/p/lib/B.php" "fail"

theorem side_accepted : sideConfig.check = .ok () := by decide +kernel

theorem changes_sideSite : sideFirst.disk.Changes (fun _ => True) sideSite.disk := by
  have quiet : side.service.Quiet := quiet_scripted
  have sound : sideFirst.disk.Sound := sound_siteOf sideFiles
  have plain : side.layout.Plain sideFirst.disk := fun folder _ => plain_siteOf sideFiles folder
  have layout : side.layout = .resolve ⟨"/p"⟩ sideConfig := rfl
  have first : sideFirst.disk.Changes (fun _ => True) (side.build .prod true .never sideFirst).2.disk :=
    changes_built side_accepted layout quiet sound plain
  rw [sideSite, Site.disk_edit]
  exact first.trans (changes_provide first.sound _ _)

/-- A unit outside the primary folder that fails keeps the artifact of an earlier build. -/
theorem build_serves_stale : sideConfig.check = .ok () ∧ ∃ report s' e,
    side.build .prod true .never sideSite = (.ok report, s') ∧ report.summary.ran = true ∧
      report.summary.cancelled = false ∧ report.preparation.failed = 0 ∧
      e ∈ report.summary.events ∧ e.outcome = .error ∧
      side.cache.contains s'.disk e.identity = true := by
  refine ⟨side_accepted, ?_⟩
  obtain ⟨source, artifact, differ⟩ := Config.extensions_of_check side_accepted
  have naming : side.layout.naming = sideConfig.naming := rfl
  rw [← naming] at source artifact differ
  have quiet : side.service.Quiet := quiet_scripted
  have plain : side.layout.Plain sideSite.disk :=
    fun folder _ => changes_sideSite.plain (plain_siteOf sideFiles folder)
  have change := changes_prepare artifact changes_sideSite.sound plain
  have told : ((side.prepare sideSite.disk).1.toOption.map (·.failed),
      (side.settled .prod true .never
        { sideSite with disk := (side.prepare sideSite.disk).2 }).log.events,
      (side.settled .prod true .never
        { sideSite with disk := (side.prepare sideSite.disk).2 }).cancelled,
      side.cache.contains (side.prepare sideSite.disk).2 (.ofLogical "B"),
      (side.cache.ensureFolder (side.prepare sideSite.disk).2).1.toOption,
      (wanted .prod { sideSite with disk := (side.prepare sideSite.disk).2 }).1.toOption) =
        (some 0, [⟨"B", .error, "syntax error"⟩], false, true, some (), some true) := by
    decide +kernel
  rcases prepared : side.prepare sideSite.disk with ⟨_ | preparation, prior⟩
  · simp [prepared, Except.toOption] at told
  rw [prepared] at change told
  simp only [Prod.mk.injEq] at told
  obtain ⟨none, events, calm, there, opened, asked⟩ := told
  obtain ⟨summary, s', built, compiled, ran⟩ :=
    @build_runs side .prod true .never sideSite _ _ prepared asked opened
  obtain ⟨told, _, cancelled, _⟩ := compile_settled compiled ran
  have member : ⟨"B", .error, "syntax error"⟩ ∈ summary.events := by
    rw [told, events]
    exact List.mem_singleton_self _
  have homed : side.layout.Homed prior := fun _ _ same => List.append_cancel_left same
  have free : side.cache.placeFor prior (Event.identity ⟨"B", .error, "syntax error"⟩) ≠
      prior.placeOf side.layout.cache ++ [Manifest.fileName] := by
    intro same
    exact absurd (List.append_cancel_left same) (by decide +kernel)
  obtain ⟨_, _, kept⟩ := compile_keeps_failed
    (e := ⟨"B", .error, "syntax error"⟩) source artifact differ quiet change.sound
    (plain.mono change) homed compiled member rfl free
  refine ⟨⟨preparation, summary⟩, s', ⟨"B", .error, "syntax error"⟩, built, ran,
    cancelled.trans calm, ?_, member, rfl, kept there⟩
  simpa [Except.toOption] using none

end Builder
end LayerCache
