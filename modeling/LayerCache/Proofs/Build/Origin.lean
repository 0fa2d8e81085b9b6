import LayerCache.Proofs.Build.Coverage
import LayerCache.Proofs.Build.Delivery
import LayerCache.Proofs.Manifest
import LayerCache.Proofs.Lookup

/-! Where the sources of a unit come from. What the compiler is called with and what is recorded of
it has the origin that the unit was offered with. -/
namespace LayerCache

/-- A unit that is asked for is that of a source in a root, or else of an entry that was found. -/
theorem Pass.locate_spec {plan : Plan} {u : UnitId} {p after : Pass} {c : Candidate}
    (located : p.locate plan u = (some c, after)) :
    (∃ f, plan.roots.resolve p.disk u = some f ∧ c = .ofSource f) ∨
      plan.roots.resolve p.disk u = none ∧ ∃ r, (p.archives.find p.disk u).1 = some r ∧
        c = .ofEntry plan.roots.ending r ∧ after.archives = (p.archives.find p.disk u).2 := by
  simp only [locate] at located
  split at located
  · rename_i f found
    exact .inl ⟨f, found, (Option.some.inj (Prod.mk.inj located).1).symm⟩
  · rename_i missing
    obtain ⟨entry, rest⟩ := Prod.mk.inj located
    obtain ⟨r, found, same⟩ := Option.map_eq_some_iff.mp entry
    exact .inr ⟨missing, r, found, same.symm, (congrArg Pass.archives rest).symm⟩

/-- What a build comes upon: a source the roots held at first, or an entry of an opened archive. -/
inductive Candidate.Known (plan : Plan) (before : Disk) (archives : Archives) : Candidate → Prop where
  | source {root names} (listed : root ∈ plan.roots.roots)
      (holds : plan.roots.Holds before root names) :
      Known plan before archives (.ofSource (plan.roots.below root names))
  | entry {r v held} (settled : archives.settled r.archive = some held)
      (member : (v, r.entry) ∈ held) : Known plan before archives (.ofEntry plan.roots.ending r)

/-- All that is in hand or listed at a stage of a build is known. -/
structure Sourced (plan : Plan) (before : Disk) (m : Stage) : Prop where
  jobs : ∀ t ∈ m.jobs, t.candidate.Known plan before m.pass.archives
  sources : ∀ root f, (root, f) ∈ m.sources →
    (Candidate.ofSource f).Known plan before m.pass.archives
  entries : ∀ r ∈ m.entries,
    (Candidate.ofEntry plan.roots.ending r).Known plan before m.pass.archives

section

variable {plan : Plan} {points : List String} {before : Disk} {m next : Stage}

theorem Candidate.Known.mono {archives later : Archives} {c : Candidate}
    (known : c.Known plan before archives)
    (settled : ∀ p held, archives.settled p = some held → later.settled p = some held) :
    c.Known plan before later := by
  cases known with
  | source listed holds => exact .source listed holds
  | entry here member => exact .entry (settled _ _ here) member

/-- The source of a candidate that is known was there when the build began. -/
theorem Candidate.Known.holds (proper : plan.Proper) {root : SourceRoot} {names : List String}
    (declared : root ∈ plan.roots.roots) (named : ∀ name ∈ names, IsName name)
    {archives : Archives}
    (known : (Candidate.ofSource (plan.roots.below root names)).Known plan before archives) :
    plan.roots.Holds before root names := by
  generalize same : Candidate.ofSource (plan.roots.below root names) = c at known
  cases known with
  | @source other others listed holds =>
    have origin := congrArg Candidate.origin same
    simp only [Candidate.origin_ofSource, Roots.rank_below, Roots.path_below, Origin.root.injEq] at origin
    obtain rfl := proper.ranks root declared other listed origin.1
    have ways := congrArg Path.names origin.2
    rw [Path.names_joinRelative named, Path.names_joinRelative holds.1.proper,
      List.append_cancel_left_eq] at ways
    rwa [ways]
  | entry =>
    have origin := congrArg Candidate.origin same
    cases origin

namespace Sourced

variable {p q : Pass} {ts ts' : List Job} {ss : List (SourceRoot × SourceFile)} {es : List EntryRef}

theorem congr (sourced : Sourced plan before ⟨p, ts, ss, es⟩) (fewer : ∀ t ∈ ts', ∃ t' ∈ ts,
    t'.candidate = t.candidate) (settled : ∀ path held, p.archives.settled path = some held →
      q.archives.settled path = some held) : Sourced plan before ⟨q, ts', ss, es⟩ := by
  refine ⟨?_, fun root f member => (sourced.sources root f member).mono settled,
    fun r member => (sourced.entries r member).mono settled⟩
  intro t member
  obtain ⟨t', old, same⟩ := fewer t member
  rw [← same]
  exact (sourced.jobs t' old).mono settled

/-- Whatever is offered is known. -/
theorem offered (proper : plan.Proper) (plain : ∀ root ∈ plan.roots.roots, before.Plain root.path)
    (distinct : (m.pass.archives.paths.map Archive.key).Nodup) (frame : Frame plan before m)
    (sourced : Sourced plan before m) {c : Candidate} {goal : Destination} {archives : Archives}
    (offer : Offer plan points m c goal archives) : c.Known plan before archives := by
  cases offer with
  | @asked p _ _ _ _ _ symbol _ named _ located =>
    rcases p.locate_spec located with ⟨f, found, rfl⟩ | ⟨_, r, found, rfl, same⟩
    · have filled : ∀ segment ∈ (UnitId.ofSymbol symbol).segments, segment ≠ "" :=
        fun segment member => (UnitId.isName_of_ofSymbol named member).filled
      obtain ⟨root, listed, names, holds, rfl, _⟩ := Roots.holds_of_resolve frame.changes.sound
        (fun root member => frame.changes.plain (plain root member)) (UnitId.tidy_ofSymbol symbol)
        proper.source filled found
      exact .source listed (frame.holds_before proper holds)
    · obtain ⟨_, _, _, _, held, settled, inside⟩ := Archives.find_first distinct found
      obtain ⟨v, member, _⟩ := EntryName.mem_of_entryIn inside
      rw [← same] at settled
      exact .entry settled member
  | source listed | generated listed => exact sourced.sources _ _ listed
  | entry listed => exact sourced.entries _ listed

theorem move (proper : plan.Proper) (plain : ∀ root ∈ plan.roots.roots, before.Plain root.path)
    (distinct : (m.pass.archives.paths.map Archive.key).Nodup) (frame : Frame plan before m)
    (sourced : Sourced plan before m) (move : Move plan points m next) :
    Sourced plan before next := by
  have settled := (Onward.of_move move).settled
  cases move with
  | check | search | pass | yield | keep | replace =>
    exact sourced.congr (fun t member => ⟨t, member, rfl⟩) settled
  | unread | reject | deliver =>
    exact sourced.congr (fun t member => ⟨t, List.mem_cons_of_mem _ member, rfl⟩) settled
  | call =>
    refine sourced.congr (fun t member => ?_) settled
    rcases List.mem_cons.mp member with rfl | old
    · exact ⟨_, List.mem_cons_self .., rfl⟩
    · exact ⟨t, List.mem_cons_of_mem _ old, rfl⟩
  | @list p ss es root known =>
    refine ⟨sourced.jobs, ?_, sourced.entries⟩
    intro other f member
    rcases List.mem_append.mp member with old | new
    · exact sourced.sources other f old
    · obtain ⟨file, swept, same⟩ := List.mem_map.mp new
      cases same
      obtain ⟨names, holds, rfl⟩ := Roots.holds_of_mem_sweep frame.changes.sound
        (frame.changes.plain (plain root known)) swept
      exact .source known (frame.holds_before proper holds)
  | @unpack p ss es archive known =>
    obtain ⟨held, here, names⟩ := p.archives.entries_settles p.disk archive
    refine ⟨by simp, fun other f member => (sourced.sources other f member).mono settled, ?_⟩
    intro r member
    rcases List.mem_append.mp member with old | new
    · exact (sourced.entries r old).mono settled
    · obtain ⟨name, listed, rfl⟩ := List.mem_map.mp new
      rw [names, Archives.sortedEntries, List.mem_mergeSort] at listed
      obtain ⟨⟨v, entry⟩, inside, rfl⟩ := List.mem_map.mp listed
      exact .entry here inside
  | @begin p ts ss es c goal archives offer fresh =>
    have known := sourced.offered proper plain distinct frame offer
    refine ⟨?_, fun root f member => (sourced.sources root f member).mono settled,
      fun r member => (sourced.entries r member).mono settled⟩
    intro t member
    rcases List.mem_cons.mp member with rfl | old
    · exact known
    · exact (sourced.jobs t old).mono settled

end Sourced

end
/-- Which origins are good ones at a point of a build. -/
abbrev Standard := Pass → Origin → Prop

variable {plan : Plan} {points : List String} {u : UnitId} {good : Standard}
  {before : List UnitSource} {m next : Stage}

/-- The origins of a unit that was taken up since earlier calls of the compiler are good ones. -/
structure Drawn (u : UnitId) (good : Standard) (before : List UnitSource) (m : Stage) : Prop where
  jobs : ∀ t ∈ m.jobs, (t.candidate.unit == u) = true → good m.pass t.candidate.origin
  calls : ∃ calls, m.pass.called = before ++ calls ∧
    ∀ call ∈ calls, (call.unit == u) = true → good m.pass call.origin

namespace Drawn

variable {p q : Pass} {ts ts' : List Job} {ss ss' : List (SourceRoot × SourceFile)}
  {es es' : List EntryRef}

theorem congr (drawn : Drawn u good before ⟨p, ts, ss, es⟩) (fewer : ts' ⊆ ts)
    (called : q.called = p.called) (grows : ∀ origin, good p origin → good q origin) :
    Drawn u good before ⟨q, ts', ss', es'⟩ := by
  obtain ⟨calls, all, origins⟩ := drawn.calls
  exact ⟨fun t member same => grows _ (drawn.jobs t (fewer member) same),
    calls, called.trans all, fun call member same => grows _ (origins call member same)⟩

theorem move (drawn : Drawn u good before m) (move : Move plan points m next)
    (grows : ∀ origin, good m.pass origin → good next.pass origin)
    (offers : ∀ c goal archives, Offer plan points m c goal archives →
      m.pass.tracker.has c.unit = false → (c.unit == u) = true →
        good { m.pass with archives, tracker := (m.pass.tracker.mark c.unit).2 } c.origin) :
    Drawn u good before next := by
  cases move with
  | check | search | list | unpack | pass | yield | keep | replace =>
    exact drawn.congr (fun _ h => h) rfl grows
  | @begin p ts _ _ c goal archives offer fresh =>
    obtain ⟨calls, all, origins⟩ := drawn.calls
    refine ⟨?_, calls, all, fun call member same => grows _ (origins call member same)⟩
    intro t member same
    rcases List.mem_cons.mp member with rfl | old
    · exact offers c goal archives offer fresh same
    · exact grows _ (drawn.jobs t old same)
  | unread | reject => exact drawn.congr (fun _ h => by simp [h]) rfl grows
  | @call p c goal ts _ _ content archives loaded =>
    obtain ⟨calls, all, origins⟩ := drawn.calls
    have here := drawn.jobs ⟨c, goal, none⟩ (by simp)
    have added : p.called ++ [⟨c.unit, c.origin, content⟩] =
        before ++ (calls ++ [⟨c.unit, c.origin, content⟩]) := by
      rw [← List.append_assoc, ← all]
    refine ⟨?_, _, added, ?_⟩
    · intro t member same
      rcases List.mem_cons.mp member with rfl | old
      · exact grows _ (here same)
      · exact grows _ (drawn.jobs t (by simp [old]) same)
    · intro call member same
      rcases List.mem_append.mp member with old | new
      · exact grows _ (origins call old same)
      · rw [List.mem_singleton.mp new] at same ⊢
        exact grows _ (here same)
  | @deliver p c goal _ _ _ _ artifact _ =>
    rcases p.deliver_cases plan c goal artifact with ⟨_, _, _, h⟩ | ⟨_, _, h⟩
    · rw [h] at grows ⊢
      exact drawn.congr (fun _ h => by simp [h]) rfl grows
    · rw [h] at grows ⊢
      exact drawn.congr (fun _ h => by simp [h]) rfl grows

end Drawn

/-- An event under a unit's name is about the unit. -/
theorem Event.identity_logical (u : UnitId) (outcome : Outcome) (message : String) :
    Event.identity ⟨u.logical, outcome, message⟩ = u := u.ofLogical_logical

/-- Why the artifact of an archive's entry is not made again. -/
def Event.IsCached (e : Event) : Prop := e.outcome = .skipped ∧ e.message = "already cached"

/-- No entry of a unit was passed over for an artifact that was cached. -/
def Pass.Renews (p : Pass) (u : UnitId) : Prop :=
  ∀ e ∈ p.log.events, e.IsCached → (e.identity == u) = false

/-- The records of a unit are those of its compilation, from a good origin. -/
def Booked (u : UnitId) (good : Standard) (p : Pass) : Prop :=
  ∀ pair ∈ p.manifest.units.pairs, (UnitId.ofLogical pair.1 == u) = true →
    (∃ e ∈ p.log.events, e.outcome = .compiled ∧ e.unit = pair.1) ∧
    ∃ origin, good p origin ∧ pair.2.origin = origin.kind ∧ pair.2.source = toString origin

namespace Booked

variable {p q : Pass}

theorem congr (booked : Booked u good p) (manifest : q.manifest = p.manifest)
    (told : p.log.events ⊆ q.log.events) (grows : ∀ origin, good p origin → good q origin) :
    Booked u good q := by
  intro pair member same
  rw [manifest] at member
  obtain ⟨⟨e, known, rest⟩, origin, fine, record⟩ := booked pair member same
  exact ⟨⟨e, told known, rest⟩, origin, grows _ fine, record⟩

theorem move (drawn : Drawn u good before m) (booked : Booked u good m.pass)
    (move : Move plan points m next)
    (grows : ∀ origin, good m.pass origin → good next.pass origin) (renews : next.pass.Renews u) :
    Booked u good next.pass := by
  have told := (Onward.of_move move).told
  cases move with
  | check | search | list | unpack | pass | yield | begin | unread | call | replace | reject =>
    exact booked.congr rfl told grows
  | @keep p _ _ r artifact listed fresh cached =>
    intro pair member same
    rcases Manifest.mem_record member with rfl | old
    · have new := renews ⟨(Candidate.ofEntry plan.roots.ending r).unit.logical, .skipped,
        "already cached"⟩ (by simp [Pass.skip, Pass.record]) ⟨rfl, rfl⟩
      rw [Event.identity, same] at new
      cases new
    · obtain ⟨⟨e, known, rest⟩, origin, fine, record⟩ := booked pair old same
      exact ⟨⟨e, told known, rest⟩, origin, grows _ fine, record⟩
  | @deliver p c goal s _ _ _ artifact _ =>
    have here := drawn.jobs ⟨c, goal, some s⟩ (by simp)
    rcases p.deliver_cases plan c goal artifact with ⟨_, _, _, h⟩ | ⟨_, _, h⟩
    · rw [h] at grows told ⊢
      exact booked.congr rfl told grows
    · rw [h] at grows told ⊢
      intro pair member same
      rcases Manifest.mem_record member with rfl | old
      · rw [UnitId.ofLogical_logical] at same
        refine ⟨⟨⟨c.unit.logical, .compiled, c.name⟩, by simp, rfl, rfl⟩, c.origin, ?_, rfl, rfl⟩
        exact grows _ (here same)
      · obtain ⟨⟨e, known, rest⟩, origin, fine, record⟩ := booked pair old same
        exact ⟨⟨e, told known, rest⟩, origin, grows _ fine, record⟩

end Booked

namespace Manifest

/-- A move records one unit at most. -/
theorem sorted_move (sorted : m.pass.manifest.Sorted) (move : Move plan points m next) :
    next.pass.manifest.Sorted := by
  cases move with
  | keep => exact sorted.record _ _
  | @deliver p c goal _ _ _ _ artifact _ =>
    rcases p.deliver_cases plan c goal artifact with ⟨_, _, _, h⟩ | ⟨_, _, h⟩
    · rw [h]
      exact sorted
    · rw [h]
      exact sorted.record _ _
  | _ => exact sorted

end Manifest

namespace Pass

variable {p : Pass} {previous : Option Manifest}

theorem carryOver_cases {pair : String × ArtifactRecord}
    (member : pair ∈ (p.carryOver plan previous).manifest.units.pairs) :
    pair ∈ p.manifest.units.pairs ∨ ∃ m, previous = some m ∧ pair ∈ m.units.pairs ∧
      p.stillHolds plan pair.1 pair.2 = true := by
  rcases previous with _ | m
  · exact .inl member
  · rcases Manifest.carryOver_cases member with here | ⟨old, holds⟩
    · exact .inl here
    · exact .inr ⟨m, rfl, old, holds⟩

theorem find?_carryOver {logical : String} {r : ArtifactRecord}
    (found : p.manifest.units.find? logical = some r) :
    (p.carryOver plan previous).manifest.units.find? logical = some r := by
  rcases previous with _ | m
  · exact found
  · exact Manifest.find?_carryOver found

theorem sorted_carryOver (sorted : p.manifest.Sorted) :
    (p.carryOver plan previous).manifest.Sorted := by
  rcases previous with _ | m
  · exact sorted
  · exact sorted.carryOver

end Pass

namespace Builder

variable {b : Builder} {env : Environment} {heard : Bool} {cancel : Cancel} {s s' : Site}
  {summary : Summary}

theorem drawn_start (b : Builder) (env : Environment) (heard : Bool) (s : Site) (u : UnitId)
    (good : Standard) : Drawn u good s.called ⟨b.start env heard s, [], [], []⟩ :=
  ⟨by simp, [], by simp [start, opening], by simp⟩

theorem booked_start (b : Builder) (env : Environment) (heard : Bool) (s : Site) (u : UnitId)
    (good : Standard) : Booked u good (b.start env heard s) :=
  fun _ member => by cases member

theorem settled_course (b : Builder) (env : Environment) (heard : Bool) (cancel : Cancel)
    (s : Site) : ∃ ss es, Course (b.plan env cancel) b.layout.naming.entryPoints
      ⟨b.start env heard s, [], [], []⟩ ⟨b.settled env heard cancel s, [], ss, es⟩ := by
  have last : b.closing env heard cancel (b.cache.ensureFolder s.disk).2 s.called =
      b.settled env heard cancel s := rfl
  obtain ⟨ss, es, _, course⟩ :=
    b.closing_leads env heard cancel (b.cache.ensureFolder s.disk).2 s.called [] []
  rw [last] at course
  exact ⟨ss, es, course⟩

theorem account_settled (b : Builder) (env : Environment) (heard : Bool) (cancel : Cancel)
    (s : Site) : ∃ ss es, Account heard s.called ⟨b.settled env heard cancel s, [], ss, es⟩ := by
  obtain ⟨ss, es, course⟩ := b.settled_course env heard cancel s
  exact ⟨ss, es, (Account.opening ..).after course⟩

/-- A record is one of this build, or one of an earlier build that still holds. -/
theorem filled_cases {pair : String × ArtifactRecord}
    (member : pair ∈ (b.filled env heard cancel s).units.pairs) :
    pair ∈ (b.settled env heard cancel s).manifest.units.pairs ∨
      ∃ m, b.previous s = some m ∧ pair ∈ m.units.pairs ∧
        (b.settled env heard cancel s).stillHolds (b.plan env cancel) pair.1 pair.2 = true :=
  Pass.carryOver_cases member

theorem find?_filled {logical : String} {r : ArtifactRecord}
    (found : (b.settled env heard cancel s).manifest.units.find? logical = some r) :
    (b.filled env heard cancel s).units.find? logical = some r := Pass.find?_carryOver found

theorem sorted_settled (b : Builder) (env : Environment) (heard : Bool) (cancel : Cancel)
    (s : Site) : (b.settled env heard cancel s).manifest.Sorted := by
  obtain ⟨ss, es, course⟩ := b.settled_course env heard cancel s
  have sorted := course.invariant (fun m => m.pass.manifest.Sorted)
    (fun _ _ sorted move => Manifest.sorted_move sorted move) (Manifest.sorted_new version env)
  exact sorted

theorem sorted_filled (b : Builder) (env : Environment) (heard : Bool) (cancel : Cancel)
    (s : Site) : (b.filled env heard cancel s).Sorted := by
  exact Pass.sorted_carryOver (b.sorted_settled env heard cancel s)

end Builder

end LayerCache

/-! What a lookup in the roots finds while a build goes on: the source a unit had at first in the
first root that held it, unless the unit was taken up, as long as the build puts no rival beside the
names on the way to a source. -/
namespace LayerCache

section

variable {plan : Plan} {before : Disk} {heard : Bool} {earlier : List UnitSource} {m : Stage}
  {root : SourceRoot} {names : List String} {u : UnitId}

namespace Frame

/-- A source that is there is as it was from the beginning. -/
theorem leaf_of_holds (proper : plan.Proper) (frame : Frame plan before m)
    (holds : plan.roots.Holds m.pass.disk root names) :
    m.pass.disk.leafAt (before.placeOf root.path ++ names) =
      before.leafAt (before.placeOf root.path ++ names) := by
  obtain ⟨carries, file⟩ := holds
  rw [frame.changes.placeOf] at file
  rcases frame.changes.leaves (before.placeOf root.path ++ names) with
    same | ⟨⟨folder, _, artifact⟩, _⟩ | consumed
  · exact same
  · exact absurd artifact (not_isArtifactIn proper.artifact proper.differ
      (carries.append (file.proper frame.changes.sound)))
  · exact absurd consumed.1 file.leaf

/-- A source that is still there is found, if nothing has come to rival it. -/
theorem namesIn_of_holds (ground : plan.Grounded before) (frame : Frame plan before m)
    (legible : plan.roots.Legible before) (clear : plan.roots.Clear before m.pass.disk)
    (known : root ∈ plan.roots.roots) (holds : plan.roots.Holds m.pass.disk root names) (tidy : u.Tidy)
    (spelled : names.map Text.lower =
      (UnitId.fileNames plan.roots.ending u.segments).map Text.lower) :
    plan.roots.namesIn m.pass.disk u root = some names := by
  have stood := frame.holds_before ground.proper holds
  have plain := ground.orderly.plain root known
  have openable := frame.changes.isFolder ground.sound plain
    (ground.orderly.reachable root known names stood)
  have file := frame.changes.isFile ground.sound (plain.joinNames holds.1.proper)
    (legible.opened root known names stood)
    (by rw [Disk.placeOf_joinNames holds.1.proper]; exact frame.leaf_of_holds ground.proper holds)
  refine Roots.namesIn_of_holds frame.changes.sound (frame.changes.plain plain) tidy
    ground.proper.source openable file ?_ holds spelled
  rw [frame.changes.placeOf]
  exact clear root known names stood

end Frame

/-- What roots held at first of a unit that was not taken up is found, or something before it. -/
theorem Midway.found_first (ground : plan.Grounded before) (midway : Midway plan before heard earlier m)
    (ordered : plan.roots.roots.Pairwise fun a b => a.rank < b.rank)
    (legible : plan.roots.Legible before) (clear : plan.roots.Clear before m.pass.disk)
    (tidy : u.Tidy) (filled : ∀ segment ∈ u.segments, segment ≠ "")
    (known : root ∈ plan.roots.roots) (holds : plan.roots.Holds before root names)
    (alike : Text.lower (plan.roots.below root names).unit.logical = Text.lower u.logical)
    (fresh : m.pass.tracker.has u = false) :
    ∃ winner, plan.roots.resolve m.pass.disk u = some winner ∧ winner.rank ≤ root.rank := by
  have straight := ground.orderly.straight root known names holds
  have untracked : m.pass.tracker.has (plan.roots.below root names).unit = false := by
    rw [Tracker.has_congr (UnitId.beq_of_lower_eq alike)]
    exact fresh
  rcases midway.frame.stands_or_tracked ground.proper ground.orderly midway.account ground.sound known
    holds with stands | tracked
  · have here := midway.frame.namesIn_of_holds ground legible clear known stands tidy
      ((Roots.spells_iff holds straight).mp alike)
    rcases found : plan.roots.resolve m.pass.disk u with _ | winner
    · exact absurd found (Roots.resolve_ne_none (UnitId.named_of_filled filled) known here)
    · exact ⟨winner, rfl, Roots.resolve_first ordered found known here⟩
  · rw [untracked] at tracked
    cases tracked

end
end LayerCache
