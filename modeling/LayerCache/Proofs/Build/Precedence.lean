import LayerCache.Proofs.Build.Calls
import LayerCache.Proofs.Build.Registration
import LayerCache.Proofs.Build.Origin

/-! Which source a unit is compiled from: that of the first root that held the unit when the build
began, and an entry of an archive only if no root held it. The build itself must not put anything
beside the names that lead to a source and differ from them in case alone. -/
namespace LayerCache

theorem UnitId.beq_self (u : UnitId) : (u == u) = true := UnitId.beq_iff.mpr rfl

namespace Roots

/-- Where a unit is to be taken from: the first root that holds it, or else an archive. -/
def Prefers (r : Roots) (d : Disk) (u : UnitId) : Origin → Prop
  | .root rank path => ∃ root ∈ r.roots, ∃ names, r.Holds d root names ∧ root.rank = rank ∧
      (r.below root names).path = path ∧ ((r.below root names).unit == u) = true ∧
      ∀ other ∈ r.roots, ∀ others, r.Holds d other others →
        ((r.below other others).unit == u) = true → rank ≤ other.rank
  | .archive _ => ∀ root ∈ r.roots, ∀ names, r.Holds d root names →
      ((r.below root names).unit == u) = false

/-- Digests tell the sources apart from each other and from symbols that are asked for. -/
structure Unmistaken (r : Roots) (d : Disk) (asked : String → Prop) : Prop where
  sources : ∀ a ∈ r.roots, ∀ front, r.Holds d a front → ∀ b ∈ r.roots, ∀ back, r.Holds d b back →
    ((r.below a front).unit == (r.below b back).unit) = true →
      Text.lower (r.below a front).unit.logical = Text.lower (r.below b back).unit.logical
  symbols : ∀ root ∈ r.roots, ∀ names, r.Holds d root names → ∀ symbol, asked symbol →
    ((r.below root names).unit == .ofSymbol symbol) = true →
      Text.lower (r.below root names).unit.logical = Text.lower (UnitId.ofSymbol symbol).logical

variable {r : Roots} {d d' : Disk} {u v : UnitId} {origin : Origin} {asked : String → Prop}

theorem Prefers.congr (same : (u == v) = true) (prefers : r.Prefers d u origin) :
    r.Prefers d v origin := by
  have equal := UnitId.beq_iff.mp same
  have alike : ∀ w : UnitId, (w == u) = (w == v) := by
    intro w
    rw [Bool.eq_iff_iff, UnitId.beq_iff, UnitId.beq_iff, equal]
  cases origin with
  | root rank path =>
    obtain ⟨root, known, names, holds, first, place, unit, least⟩ := prefers
    exact ⟨root, known, names, holds, first, place, by rwa [← alike],
      fun other inside others stood at_ => least other inside others stood (by rwa [alike])⟩
  | archive entry => exact fun root known names holds => by rw [← alike]; exact prefers root known names holds

/-- The source below a root, if no root before it holds the unit. -/
theorem prefers_source {root : SourceRoot} (known : root ∈ r.roots) {names : List String}
    (holds : r.Holds d root names) (same : ((r.below root names).unit == u) = true)
    (least : ∀ other ∈ r.roots, ∀ others, r.Holds d other others →
      ((r.below other others).unit == u) = true → root.rank ≤ other.rank) :
    r.Prefers d u (Candidate.ofSource (r.below root names)).origin :=
  ⟨root, known, names, holds, rfl, rfl, same, least⟩

theorem Prefers.mono (change : d.Changes (fun _ => False) d') :
    r.Prefers d' u origin ↔ r.Prefers d u origin := by
  cases origin <;> simp only [Prefers, Holds.mono change]

theorem Unmistaken.imp {fewer : String → Prop} (unmistaken : r.Unmistaken d asked)
    (less : ∀ symbol, fewer symbol → asked symbol) : r.Unmistaken d fewer :=
  ⟨unmistaken.sources, fun root known names holds symbol asks =>
    unmistaken.symbols root known names holds symbol (less symbol asks)⟩

theorem Unmistaken.mono (change : d.Changes (fun _ => False) d') (unmistaken : r.Unmistaken d asked) :
    r.Unmistaken d' asked := by
  constructor
  · simpa only [Holds.mono change] using unmistaken.sources
  · simpa only [Holds.mono change] using unmistaken.symbols

theorem Legible.mono (legible : r.Legible d) (sound : d.Sound)
    (plain : ∀ root ∈ r.roots, d.Plain root.path) (change : d.Changes (fun _ => False) d')
    (clear : r.Clear d d') : r.Legible d' := by
  constructor
  · intro root known names holds
    have held := (Holds.mono change).mp holds
    exact change.isFile sound ((plain root known).joinNames held.1.proper)
      (legible.opened root known names held) ((change.leaves _).resolve_right id)
  · intro root known names holds
    rw [change.placeOf]
    exact clear root known names ((Holds.mono change).mp holds)

/-- Digests can be compared for all sources that are listed. -/
theorem unmistaken_of_sweeps (sound : d.Sound) (orderly : r.Orderly d) {asked : String → Prop}
    {symbols : List String} (all : ∀ symbol, asked symbol → symbol ∈ symbols)
    (apart : ∀ u ∈ (r.roots.flatMap (r.sweep d)).map (·.unit),
      ∀ v ∈ (r.roots.flatMap (r.sweep d)).map (·.unit) ++ symbols.map .ofSymbol,
        (u == v) = true → Text.lower u.logical = Text.lower v.logical) : r.Unmistaken d asked := by
  have listed : ∀ root ∈ r.roots, ∀ names, r.Holds d root names →
      (r.below root names).unit ∈ (r.roots.flatMap (r.sweep d)).map (·.unit) := by
    intro root known names holds
    have member := mem_sweep_of_holds sound (orderly.plain root known)
      (orderly.reachable root known names holds) holds
    exact List.mem_map.mpr ⟨_, List.mem_flatMap.mpr ⟨root, known, member⟩, rfl⟩
  constructor
  · intro a first front holds b second back held
    exact apart _ (listed a first front holds) _
      (List.mem_append_left _ (listed b second back held))
  · intro root known names holds symbol asks
    exact apart _ (listed root known names holds) _
      (List.mem_append_right _ (List.mem_map.mpr ⟨symbol, all symbol asks, rfl⟩))

end Roots

/-- A listed source was there when the build began. -/
theorem Sourced.listed {plan : Plan} {before : Disk} {m : Stage} (proper : plan.Proper)
    (frame : Frame plan before m) (sourced : Sourced plan before m) {root : SourceRoot}
    {f : SourceFile} (member : (root, f) ∈ m.sources) : root ∈ plan.roots.roots ∧
      ∃ names, plan.roots.Holds before root names ∧ f = plan.roots.below root names := by
  obtain ⟨known, names, carries, rfl⟩ := frame.sources root f member
  exact ⟨known, names, (sourced.sources root _ member).holds proper known carries.proper, rfl⟩

/-- What is known of a build at any of its stages. -/
structure Underway (plan : Plan) (before : Disk) (heard : Bool) (earlier : List UnitSource)
    (m : Stage) : Prop where
  midway : Midway plan before heard earlier m
  sourced : Sourced plan before m
  distinct : (m.pass.archives.paths.map Archive.key).Nodup
  kept : m.pass.archives.Kept plan.roots.ending

section

variable {plan : Plan} {points : List String} {before : Disk} {heard : Bool}
  {earlier : List UnitSource} {m next last : Stage} {u : UnitId}

namespace Underway

theorem move (ground : plan.Grounded before) (underway : Underway plan before heard earlier m)
    (move : Move plan points m next) : Underway plan before heard earlier next where
  midway := underway.midway.after ground (.of move)
  sourced := underway.sourced.move ground.proper ground.orderly.plain underway.distinct
    underway.midway.frame move
  distinct := by
    rw [(Course.of move).paths]
    exact underway.distinct
  kept := underway.kept.after (.of move)

theorem after (ground : plan.Grounded before) (underway : Underway plan before heard earlier m)
    (course : Course plan points m last) : Underway plan before heard earlier last :=
  course.invariant _ (fun _ _ underway move => underway.move ground move) underway

end Underway

/-- What is offered comes from where the unit is to be taken from, as long as no entries are listed
before all sources are taken up. -/
theorem Offer.prefers (ground : plan.Grounded before)
    (ordered : plan.roots.roots.Pairwise fun a b => a.rank < b.rank)
    (first : ∀ root ∈ plan.roots.roots, root.generated = true → root.rank = 0)
    (legible : plan.roots.Legible before)
    (unmistaken : plan.roots.Unmistaken before (plan.Asks points))
    (underway : Underway plan before heard earlier m)
    (clear : plan.roots.Clear before m.pass.disk)
    (turn : m.entries = [] ∨ ∀ root ∈ plan.roots.roots, ∀ names, plan.roots.Holds before root names →
      m.pass.tracker.has (plan.roots.below root names).unit = true)
    {c : Candidate} {goal : Destination} {archives : Archives}
    (offer : Offer plan points m c goal archives) (fresh : m.pass.tracker.has c.unit = false) :
    plan.roots.Prefers before c.unit c.origin := by
  have straight := ground.orderly.straight
  obtain ⟨midway, sourced, distinct, kept⟩ := underway
  cases offer with
  | @asked p ts ss es c archives symbol known named untracked located =>
    have filled := UnitId.filled_of_ofSymbol named
    have tidy := UnitId.tidy_ofSymbol symbol
    -- A root that holds the unit is not passed over, since the unit was not taken up.
    have found : ∀ other ∈ plan.roots.roots, ∀ others, plan.roots.Holds before other others →
        ((plan.roots.below other others).unit == .ofSymbol symbol) = true →
        ∃ winner, plan.roots.resolve p.disk (.ofSymbol symbol) = some winner ∧
          winner.rank ≤ other.rank := by
      intro other inside others stood same
      have alike := unmistaken.symbols other inside others stood symbol known same
      have reached := midway.found_first (u := .ofSymbol symbol) ground ordered legible clear tidy
        filled inside stood alike untracked
      exact reached
    rcases Pass.locate_spec located with ⟨f, resolved, rfl⟩ | ⟨missed, r, entry, rfl, _⟩
    · obtain ⟨root, inside, names, stands, rfl, spelled⟩ := Roots.holds_of_resolve
        midway.frame.changes.sound (fun root inside => midway.frame.changes.plain
          (ground.orderly.plain root inside)) tidy ground.proper.source filled resolved
      have stood := midway.frame.holds_before ground.proper stands
      have same : ((plan.roots.below root names).unit == .ofSymbol symbol) = true :=
        UnitId.beq_of_lower_eq ((Roots.spells_iff stood (straight root inside names stood)).mpr spelled)
      refine Roots.prefers_source inside stood (UnitId.beq_self _) ?_
      intro other among others held at_
      have wanted := UnitId.beq_iff.mpr ((UnitId.beq_iff.mp at_).trans (UnitId.beq_iff.mp same))
      obtain ⟨winner, again, least⟩ := found other among others held wanted
      rw [resolved] at again
      cases again
      exact least
    · -- The entry that is found is of the unit, which no root holds then.
      have entered : ((Candidate.ofEntry plan.roots.ending r).unit == .ofSymbol symbol) = true :=
        (Archives.find_first distinct entry).unit kept.find
      intro root inside names held
      by_contra at_
      have owned := UnitId.beq_iff.mp ((Bool.not_eq_false _).mp at_)
      have same : ((plan.roots.below root names).unit == .ofSymbol symbol) = true :=
        UnitId.beq_iff.mpr (owned.trans (UnitId.beq_iff.mp entered))
      obtain ⟨winner, again, _⟩ := found root inside names held same
      rw [missed] at again
      cases again
  | @source p ss es root f listed declared least =>
    obtain ⟨inside, names, held, rfl⟩ := sourced.listed ground.proper midway.frame listed
    refine Roots.prefers_source inside held (UnitId.beq_self _) ?_
    intro other among others stood same
    have tidy := UnitId.tidy_ofRelative (Disk.relativePath names) plan.roots.ending
    have filled := UnitId.filled_ofRelative held.1 (straight root inside names held)
    obtain ⟨winner, found, below⟩ := midway.found_first ground ordered legible clear tidy filled among
      stood (unmistaken.sources other among others stood root inside names held same) fresh
    exact (least winner found).trans below
  | @generated p ss es root f listed marked =>
    obtain ⟨inside, names, held, rfl⟩ := sourced.listed ground.proper midway.frame listed
    refine Roots.prefers_source inside held (UnitId.beq_self _) ?_
    intro other _ _ _ _
    rw [first root inside marked]
    exact Nat.zero_le _
  | @entry p ss es r listed missing =>
    intro root inside names held
    by_contra same
    have some : es ≠ [] := List.ne_nil_of_mem listed
    have tracked := turn.resolve_left some root inside names held
    rw [Tracker.has_congr (by simpa using same), fresh] at tracked
    cases tracked

/-- The origin of a unit, if it is taken up, is where it is to be taken from. -/
def Roots.Preferred (r : Roots) (d : Disk) (u : UnitId) : Standard := fun _ => r.Prefers d u

theorem Course.prefers {a b : Stage} (course : Course plan points a b) (ground : plan.Grounded before)
    (ordered : plan.roots.roots.Pairwise fun a b => a.rank < b.rank)
    (first : ∀ root ∈ plan.roots.roots, root.generated = true → root.rank = 0)
    (legible : plan.roots.Legible before)
    (unmistaken : plan.roots.Unmistaken before (plan.Asks points))
    (clear : ∀ m, Course plan points a m → Course plan points m b →
      plan.roots.Clear before m.pass.disk)
    (turn : b.entries = [] ∨ ∀ root ∈ plan.roots.roots, ∀ names, plan.roots.Holds before root names →
      a.pass.tracker.has (plan.roots.below root names).unit = true)
    (underway : Underway plan before heard earlier a)
    (drawn : Drawn u (plan.roots.Preferred before u) earlier a) :
    Drawn u (plan.roots.Preferred before u) earlier b := by
  suffices both : Underway plan before heard earlier b ∧
      Drawn u (plan.roots.Preferred before u) earlier b from both.2
  refine course.invariant_between (fun m => Underway plan before heard earlier m ∧
    Drawn u (plan.roots.Preferred before u) earlier m) ?_ ⟨underway, drawn⟩
  rintro m next since rest ⟨here, drawn⟩ move
  refine ⟨here.move ground move, drawn.move move (fun _ good => good) ?_⟩
  intro c goal archives offer fresh same
  have remaining : Course plan points m b := (Course.of move).trans rest
  refine Roots.Prefers.congr same (offer.prefers ground ordered first legible unmistaken here
    (clear m since remaining) ?_ fresh)
  rcases turn with none | all
  · exact .inl (List.eq_nil_of_subset_nil (none ▸ remaining.entries_subset))
  · exact .inr fun root known names holds =>
      (Onward.of_course since).tracked _ (all root known names holds)

theorem Disk.leafAt_eq {d : Disk} {place : Place} (leaf : d.entryAt place ≠ some .folder) :
    d.leafAt place = d.entryAt place := by
  unfold Disk.leafAt
  split
  · rename_i folder
    exact absurd folder leaf
  · rfl

theorem Disk.entryAt_of_leafAt {d : Disk} {place : Place} (leaf : d.leafAt place ≠ none) :
    d.entryAt place ≠ none := by
  intro absent
  simp [Disk.leafAt, absent] at leaf

/-- A build may be looked at from any of its stages on. -/
theorem Frame.restart (frame : Frame plan before m) : Frame plan m.pass.disk m :=
  ⟨.refl frame.changes.sound, frame.jobs, frame.sources⟩

/-- What stands somewhere in between stood there at first or stands there in the end. -/
theorem Frame.entry_lasts (ground : plan.Grounded before) (frame : Frame plan before m)
    (course : Course plan points m last) {place : Place} (there : m.pass.disk.entryAt place ≠ none) :
    before.entryAt place ≠ none ∨ last.pass.disk.entryAt place ≠ none := by
  have plain : plan.Plain m.pass.disk :=
    fun folder output => frame.changes.plain (ground.outputs folder output)
  have later := frame.restart.after ground.proper plain ground.quiet course
  by_cases folder : m.pass.disk.entryAt place = some .folder
  · exact .inr (by simp [later.changes.folders place folder])
  have leaf : m.pass.disk.leafAt place ≠ none := by rwa [Disk.leafAt_eq folder]
  rcases later.changes.leaves place with same | ⟨_, written⟩ | ⟨_, root, _, _, names, carries, rfl, _⟩
  · exact .inr (Disk.entryAt_of_leafAt (by rwa [same]))
  · exact .inr (Disk.entryAt_of_leafAt written)
  · -- A source that goes away was there from the beginning.
    rcases frame.changes.leaves (m.pass.disk.placeOf root.path ++ names) with
      same | ⟨⟨folder, _, artifact⟩, _⟩ | ⟨gone, _⟩
    · exact .inl (Disk.entryAt_of_leafAt (by rwa [← same]))
    · exact absurd artifact (not_isArtifactIn ground.proper.artifact ground.proper.differ
        (carries.append (frame.changes.sound.names there)))
    · exact absurd gone leaf

/-- So there are no rivals in between if there are none at first and none in the end. -/
theorem Frame.clear_between (ground : plan.Grounded before) (frame : Frame plan before m)
    (course : Course plan points m last) (first : plan.roots.Clear before before)
    (final : plan.roots.Clear before last.pass.disk) : plan.roots.Clear before m.pass.disk := by
  intro root known names holds front name back parts other there alike
  rcases frame.entry_lasts ground course there with early | late
  · exact first root known names holds front name back parts other early alike
  · exact final root known names holds front name back parts other late alike

end

namespace Scripted

/-- The symbols that the lines of a source ask for. -/
def uses (lines : List String) : List String :=
  lines.filterMap fun line => (Text.afterStart? "use " (Text.trim line)).map Text.trim

theorem mem_uses_of_asks {u : UnitSource} {n : Nat} {lines : List String} {symbol : String}
    (asks : (follow u n lines).Asks symbol) : symbol ∈ uses lines := by
  induction lines generalizing n with
  | nil => cases asks
  | cons line rest ih =>
    simp only [follow] at asks
    simp only [uses, List.filterMap_cons]
    rcases order : Text.afterStart? "use " (Text.trim line) with _ | name
    · simp only [order] at asks
      split at asks
      · cases asks
      split at asks
      · cases asks
      · exact ih asks
    · simp only [order] at asks
      cases asks with
      | now => exact List.mem_cons_self
      | resolve later => exact List.mem_cons_of_mem _ (ih later)

end Scripted

namespace Builder

variable {b : Builder} {env : Environment} {heard : Bool} {cancel : Cancel} {s s' : Site}
  {summary : Summary}

/-- A symbol that a build had to resolve, by the calls that were made. -/
def Asked (b : Builder) (called : List UnitSource) (symbol : String) : Prop :=
  symbol ∈ b.layout.naming.entryPoints ∨
    ∃ n u, called[n]? = some u ∧ (b.service n u).Asks symbol

/-- A build is the same with a compiler that speaks in the calls of that build only. -/
theorem heeding (b : Builder) (env : Environment) (heard : Bool) (cancel : Cancel) (s : Site) :
    ∃ service : Service, (b.withService service).settled env heard cancel s =
        b.settled env heard cancel s ∧ b.service.Concurs service (b.settled env heard cancel s) ∧
      (∀ n u, service n u = .finish .empty ∨ service n u = b.service n u) ∧
      ∀ symbol, ((b.withService service).plan env cancel).Asks b.layout.naming.entryPoints symbol →
        b.Asked (b.settled env heard cancel s).called symbol := by
  refine ⟨b.service.within (b.settled env heard cancel s).called,
    settled_withService (b.service.concurs_within _), b.service.concurs_within _, fun n u => ?_,
    fun symbol asks => ?_⟩
  · exact (b.service.within_cases _ n u).imp_right And.right
  · generalize (b.settled env heard cancel s).called = called at asks ⊢
    rcases asks with entered | ⟨n, u, asks⟩
    · exact .inl entered
    · change (b.service.within called n u).Asks symbol at asks
      rcases b.service.within_cases called n u with silent | ⟨made, same⟩
      · rw [silent] at asks
        cases asks
      · rw [same] at asks
        exact .inr ⟨n, u, made, asks⟩

theorem ranks (b : Builder) (env : Environment) :
    (b.roots env).roots.Pairwise fun x y => x.rank < y.rank := Roots.ranks_ofPaths _ _ _

/-- The folder of generated sources comes first. -/
theorem rank_generated {root : SourceRoot} (known : root ∈ (b.roots env).roots)
    (generated : root.generated = true) : root.rank = 0 := by
  obtain ⟨⟨⟨path, marked⟩, rank⟩, inside, rfl⟩ := List.mem_map.mp known
  have place := List.mem_zipIdx_iff_getElem?.mp inside
  rcases rank with _ | rank
  · rfl
  · simp only [Option.map_some, Option.toList_some, List.singleton_append,
      List.getElem?_cons_succ, List.getElem?_map, Option.map_eq_some_iff, Prod.mk.injEq] at place
    obtain ⟨_, _, _, unmarked⟩ := place
    rw [← unmarked] at generated
    cases generated

theorem underway_start (b : Builder) (env : Environment) (heard : Bool) (cancel : Cancel)
    (sound : s.disk.Sound) : Underway (b.plan env cancel) (b.cache.ensureFolder s.disk).2 heard
      s.called ⟨b.start env heard s, [], [], []⟩ := by
  obtain ⟨distinct, kept⟩ := Archives.fresh_ofPaths b.layout.archives b.layout.naming.sourceExt
    b.layout.naming.reserved
  exact ⟨b.midway_start env heard cancel sound, ⟨by simp, by simp, by simp⟩, distinct, kept⟩

/-- All that comes after the passes is to write the manifest. -/
theorem settled_saves (plain : s.disk.Plain b.layout.cache) (sound : s.disk.Sound)
    (ground : (b.plan env cancel).Grounded (b.cache.ensureFolder s.disk).2)
    (built : b.compile env heard cancel s = (.ok summary, s')) (ran : summary.ran = true) :
    Disk.Additions (· = (b.settled env heard cancel s).disk.placeOf b.layout.cache ++
      [Manifest.fileName]) (b.settled env heard cancel s).disk s'.disk := by
  obtain ⟨_, _, course⟩ := b.settled_course env heard cancel s
  have frame := ((b.midway_start env heard cancel sound).after ground course).frame
  rw [compile_saves built ran]
  exact changes_save _ frame.changes.sound (frame.changes.plain ((b.ensured sound).plain plain))

/-- What stands at the beginning of a build, with the cache folder made, or at its end stands there
before or after the whole. -/
theorem clear_of_ends (plain : s.disk.Plain b.layout.cache) (sound : s.disk.Sound)
    (ground : (b.plan env cancel).Grounded (b.cache.ensureFolder s.disk).2)
    (built : b.compile env heard cancel s = (.ok summary, s')) (ran : summary.ran = true)
    (first : (b.roots env).Clear s.disk s.disk) (final : (b.roots env).Clear s.disk s'.disk) :
    (b.roots env).Clear s.disk (b.cache.ensureFolder s.disk).2 ∧
      (b.roots env).Clear s.disk (b.settled env heard cancel s).disk := by
  have ensured := b.ensured sound
  obtain ⟨_, _, course⟩ := b.settled_course env heard cancel s
  have frame := ((b.midway_start env heard cancel sound).after ground course).frame
  have saved := settled_saves plain sound ground built ran
  constructor
  · intro root known names holds front name back parts other there alike
    by_cases folder : (b.cache.ensureFolder s.disk).2.entryAt
        (s.disk.placeOf root.path ++ front ++ [other]) = some .folder
    · have later := saved.lasts (by rw [frame.changes.folders _ folder]; simp)
      exact final root known names holds front name back parts other later alike
    · have leaf := (ensured.leaves (s.disk.placeOf root.path ++ front ++ [other])).resolve_right id
      rw [Disk.leafAt_eq folder] at leaf
      rw [leaf] at there
      exact first root known names holds front name back parts other (Disk.entryAt_of_leafAt there)
        alike
  · intro root known names holds front name back parts other there alike
    exact final root known names holds front name back parts other (saved.lasts there) alike

theorem settled_prefers {config : Config} {project : Path} (accepted : config.check = .ok ())
    (layout : b.layout = .resolve project config) (quiet : b.service.Quiet)
    (sound : s.disk.Sound) (plain : s.disk.Plain b.layout.cache)
    (orderly : (b.roots env).Orderly s.disk) (legible : (b.roots env).Legible s.disk)
    (unmistaken : (b.roots env).Unmistaken s.disk
      ((b.plan env cancel).Asks b.layout.naming.entryPoints))
    (calm : (b.settled env heard cancel s).cancelled = false)
    (early : (b.roots env).Clear s.disk (b.cache.ensureFolder s.disk).2)
    (late : (b.roots env).Clear s.disk (b.settled env heard cancel s).disk) (u : UnitId) :
    Drawn u ((b.roots env).Preferred s.disk u) s.called
      ⟨b.settled env heard cancel s, [], [], []⟩ := by
  have ensured := b.ensured sound
  have ground : (b.plan env cancel).Grounded (b.cache.ensureFolder s.disk).2 :=
    grounded accepted layout quiet ensured.sound (ensured.plain plain) (orderly.mono sound ensured)
  have ready : (b.roots env).Legible (b.cache.ensureFolder s.disk).2 :=
    legible.mono sound orderly.plain ensured early
  have told : (b.roots env).Unmistaken (b.cache.ensureFolder s.disk).2 _ := unmistaken.mono ensured
  have final : (b.roots env).Clear (b.cache.ensureFolder s.disk).2 (b.settled env heard cancel s).disk := by
    intro root known names holds
    rw [ensured.placeOf]
    exact late root known names ((Roots.Holds.mono ensured).mp holds)
  have start := b.underway_start env heard cancel sound
  have rest := b.swept_onward env heard cancel s
  -- First the roots are swept, and no entry is listed.
  have rooted : Leads (b.plan env cancel) b.layout.naming.entryPoints False (b.start env heard s)
      (b.swept env heard cancel s) := Pass.sweepSources_leads _ _
  obtain ⟨ss, es, listing, first⟩ := rooted [] []
  obtain rfl := listing.resolve_right id
  -- Then the archives are, when all sources have been taken up.
  have archived : Leads (b.plan env cancel) b.layout.naming.entryPoints True
      (b.swept env heard cancel s) (b.settled env heard cancel s) := Pass.sweepArchives_leads _ _
  obtain ⟨ss', es', _, second⟩ := archived ss []
  have halfway := start.after ground first
  have covered : ∀ root ∈ (b.roots env).roots, ∀ names,
      (b.roots env).Holds (b.cache.ensureFolder s.disk).2 root names →
        (b.swept env heard cancel s).tracker.has ((b.roots env).below root names).unit = true :=
    fun root known names holds => Pass.sweepSources_covers ground
      (b.midway_start env heard cancel sound) (rest.calm calm) known holds
  have drawn := first.prefers ground (b.ranks env) (fun _ => rank_generated) ready told
    (fun m since later => (start.after ground since).midway.frame.clear_between ground
      (later.trans second) ready.clear final) (.inl rfl) start
    (b.drawn_start env heard s u _)
  have whole := second.prefers ground (b.ranks env) (fun _ => rank_generated) ready told
    (fun m since later => (halfway.after ground since).midway.frame.clear_between ground
      later ready.clear final) (.inr covered) halfway drawn
  obtain ⟨calls, called, good⟩ := whole.calls
  exact ⟨by simp, calls, called, fun call member same =>
    (Roots.Prefers.mono ensured).mp (good call member same)⟩

/-- Layers over a whole build: each unit that a root holds is taken up once, and what the compiler
is given of it is the source in the first root that holds it; what it is given of an archive no root
holds. The build must not put anything beside a source, or the folders it lies in, whose name
differs in case alone. -/
theorem compile_prefers {config : Config} {project : Path} (accepted : config.check = .ok ())
    (layout : b.layout = .resolve project config) (quiet : b.service.Quiet)
    (sound : s.disk.Sound) (plain : s.disk.Plain b.layout.cache)
    (orderly : (b.roots env).Orderly s.disk) (legible : (b.roots env).Legible s.disk)
    (unmistaken : (b.roots env).Unmistaken s.disk (b.Asked s'.called))
    (built : b.compile env heard cancel s = (.ok summary, s')) (ran : summary.ran = true)
    (calm : summary.cancelled = false) (clear : (b.roots env).Clear s.disk s'.disk) :
    (∀ root ∈ (b.roots env).roots, ∀ names, (b.roots env).Holds s.disk root names →
      summary.Covers ((b.roots env).below root names).unit) ∧
    ∃ calls, s'.called = s.called ++ calls ∧
      ∀ call ∈ calls, (b.roots env).Prefers s.disk call.unit call.origin := by
  obtain ⟨_, _, cancelled, called, _⟩ := compile_settled built ran
  rw [cancelled] at calm
  have ensured := b.ensured sound
  have moved := orderly.mono sound ensured
  have ground : (b.plan env cancel).Grounded (b.cache.ensureFolder s.disk).2 :=
    grounded accepted layout quiet ensured.sound (ensured.plain plain) moved
  obtain ⟨early, late⟩ := clear_of_ends plain sound ground built ran legible.clear clear
  constructor
  · intro root known names holds
    have rest := b.swept_onward env heard cancel s
    have tracked := Pass.sweepSources_covers ground (b.midway_start env heard cancel sound)
      (rest.calm calm) known ((Roots.Holds.mono ensured).mpr holds)
    exact covers_of_tracked built ran (rest.tracked _ tracked)
  rw [called] at unmistaken ⊢
  obtain ⟨service, same, _, speaks, asked⟩ := b.heeding env heard cancel s
  have silent : service.Quiet := by
    intro n u
    rcases speaks n u with none | said
    · rw [none]
      trivial
    · rw [said]
      exact quiet n u
  have drawn := fun u => @settled_prefers (b.withService service) env heard cancel s _ _ accepted layout
    silent sound plain orderly legible (unmistaken.imp asked) (by rw [same]; exact calm) early
    (by rw [same]; exact late) u
  rw [same] at drawn
  obtain ⟨calls, all, _⟩ := (drawn (.ofLogical "")).calls
  refine ⟨calls, all, fun call member => ?_⟩
  obtain ⟨others, again, good⟩ := (drawn call.unit).calls
  obtain rfl := List.append_cancel_left (all.symm.trans again)
  exact good call member (UnitId.beq_self _)

/-- What a build with the scripted compiler asks for stands in the sources. -/
theorem asked_scripted (scripted : b.service = Scripted.service) {called : List UnitSource}
    {symbol : String} (asked : b.Asked called symbol) : symbol ∈ b.layout.naming.entryPoints ++
      called.flatMap fun u => Scripted.uses (Text.lines (Utf8.decodeLossy u.content)) := by
  rw [List.mem_append]
  refine asked.imp_right ?_
  rintro ⟨n, u, made, asks⟩
  rw [scripted] at asks
  exact List.mem_flatMap.mpr ⟨u, List.mem_of_getElem? made, Scripted.mem_uses_of_asks asks⟩

/-- What the entries of a disk show of the sources of some roots, all of which can be looked up. -/
def Surveyed (r : Roots) (d : Disk) : Prop :=
  ((∀ a ∈ r.roots, ∀ b ∈ r.roots, d.placeOf a.path <+: d.placeOf b.path →
      d.placeOf a.path = d.placeOf b.path) ∧
    (∀ pair ∈ d.entries.pairs, ∀ name ∈ pair.1, '\\' ∉ name.toList) ∧
    ∀ root ∈ r.roots, (∃ pair ∈ d.entries.pairs, d.placeOf root.path <+: pair.1) →
      d.isFolder root.path = true) ∧
  (∀ root ∈ r.roots, ∀ x ∈ d.entries.pairs, d.placeOf root.path <+: x.1 → (d.leafAt x.1).isSome →
    d.isFile ((x.1.drop (d.placeOf root.path).length).foldl Path.joinName root.path) = true) ∧
  ∀ x ∈ d.entries.pairs, ∀ y ∈ d.entries.pairs, x.1.dropLast = y.1.dropLast →
    x.1.map Text.lower = y.1.map Text.lower → x.1 = y.1

instance (r : Roots) (d : Disk) : Decidable (Surveyed r d) :=
  inferInstanceAs (Decidable (_ ∧ _ ∧ _))

theorem Surveyed.orderly {r : Roots} {files : List (String × String)}
    (seen : Surveyed r (siteOf files).disk) : r.Orderly (siteOf files).disk := orderly_siteOf seen.1

theorem Surveyed.legible {r : Roots} {files : List (String × String)}
    (seen : Surveyed r (siteOf files).disk) : r.Legible (siteOf files).disk :=
  Roots.legible_of_entries (sound_siteOf files) seen.2.1 seen.2.2

theorem compile_prefers_sample : ∃ summary s',
    sample.compile .prod true .never sampleSite = (.ok summary, s') ∧ s'.called.length = 3 ∧
      ∀ call ∈ s'.called, (sample.roots .prod).Prefers sampleSite.disk call.unit call.origin := by
  obtain ⟨summary, s', built, ran, calm⟩ := sample_runs
  obtain ⟨_, _, _, _, _, _, contents, _, _, places⟩ := sample_settled
  rw [← (compile_summarizes built ran).2.1] at contents
  rw [← compile_saves built ran] at places
  have accepted : sampleConfig.check = .ok () := by decide +kernel
  have surveyed : Surveyed (sample.roots .prod) sampleSite.disk := by decide +kernel
  have orderly : (sample.roots .prod).Orderly sampleSite.disk := surveyed.orderly
  have layout : sample.layout = .resolve ⟨"/p"⟩ sampleConfig := rfl
  have sound : sampleSite.disk.Sound := sound_siteOf sampleFiles
  have plain : sampleSite.disk.Plain sample.layout.cache := plain_siteOf sampleFiles _
  have ensured := sample.ensured sound
  have ground : (sample.plan .prod .never).Grounded (sample.cache.ensureFolder sampleSite.disk).2 :=
    grounded accepted layout quiet_scripted ensured.sound (ensured.plain plain)
      (orderly.mono sound ensured)
  have later : s'.disk.Sound := (settled_saves plain sound ground built ran).sound
  -- Nothing was put beside a source.
  have apart : ∀ place ∈ s'.disk.entries.pairs.map (·.1), ∀ y ∈ sampleSite.disk.entries.pairs,
      place.dropLast = y.1.dropLast → place.map Text.lower = y.1.map Text.lower → place = y.1 := by
    rw [places]
    decide +kernel
  have clear : (sample.roots .prod).Clear sampleSite.disk s'.disk :=
    Roots.clear_of_entries sound later fun x member => apart x.1 (List.mem_map_of_mem member)
  have uses : (s'.called.flatMap fun u => Scripted.uses (Text.lines (Utf8.decodeLossy u.content))) =
      ["app/Gen", "Bad"] := by
    have lines := List.flatMap_map (fun u : UnitSource => Utf8.decodeLossy u.content)
      (fun text => Scripted.uses (Text.lines text)) s'.called
    rw [← lines, contents]
    decide +kernel
  -- No digest is of two units in play.
  have told : ∀ u ∈ ((sample.roots .prod).roots.flatMap ((sample.roots .prod).sweep sampleSite.disk)).map
        (·.unit),
      ∀ v ∈ ((sample.roots .prod).roots.flatMap ((sample.roots .prod).sweep sampleSite.disk)).map
          (·.unit) ++ (s'.called.flatMap fun u =>
            Scripted.uses (Text.lines (Utf8.decodeLossy u.content))).map .ofSymbol,
        (u == v) = true → Text.lower u.logical = Text.lower v.logical := by
    rw [uses]
    decide +kernel
  have unmistaken : (sample.roots .prod).Unmistaken sampleSite.disk (sample.Asked s'.called) :=
    Roots.unmistaken_of_sweeps sound orderly (fun symbol => asked_scripted (b := sample) rfl) told
  obtain ⟨_, calls, called, prefers⟩ := compile_prefers accepted layout quiet_scripted
    sound plain orderly surveyed.legible unmistaken built ran calm clear
  have three : s'.called.length = 3 := by simpa using congrArg List.length contents
  have none : sampleSite.called = [] := rfl
  rw [none, List.nil_append] at called
  exact ⟨summary, s', built, three, fun call member => prefers call (called ▸ member)⟩

/-- A project whose cache takes the place of its generated sources. -/
def shadeConfig : Config := ⟨"p", "", {}, none, {}, none, [], []⟩

def shade : Builder := ⟨.resolve ⟨"/p"⟩ shadeConfig, Scripted.service, .absent⟩

/-- A unit that is generated and declared, the folders of both differing in case. -/
def shadeFiles : List (String × String) :=
  [("/p/src_generated/app/X.php", "gen"), ("/p/src/App/Aaa.php", "aaa"), ("/p/src/App/X.php", "decl")]

def shadeSite : Site := siteOf shadeFiles

theorem shade_outcome : ∃ summary s', shade.compile .prod true .never shadeSite = (.ok summary, s') ∧
    summary.ran = true ∧ summary.cancelled = false ∧
      ∃ call ∈ s'.called, call.unit.logical = "App/X" ∧ call.origin = .root 1 ⟨"/p/src/App/X.php"⟩ := by
  have told : (shade.cache.ensureFolder shadeSite.disk).1.toOption = some () ∧
      (shade.settled .prod true .never shadeSite).cancelled = false ∧
      ∃ call ∈ (shade.settled .prod true .never shadeSite).called,
        call.unit.logical = "App/X" ∧ call.origin = .root 1 ⟨"/p/src/App/X.php"⟩ := by
    decide +kernel
  obtain ⟨opened, told⟩ := told
  obtain ⟨summary, s', built, ran, cancelled, _, called⟩ :=
    @compile_runs shade .prod true .never shadeSite rfl opened
  rw [← cancelled, ← called] at told
  exact ⟨summary, s', built, ran, told⟩

/-- The folder of an artifact comes to hide the generated source of another unit, which is compiled
from a later root. -/
theorem compile_reads_behind : ∃ summary s',
    shade.compile .prod true .never shadeSite = (.ok summary, s') ∧ summary.ran = true ∧
      summary.cancelled = false ∧ shade.service.Quiet ∧ shadeConfig.check = .ok () ∧
      shadeSite.disk.Sound ∧ (∀ p, shadeSite.disk.Plain p) ∧
      (shade.roots .prod).Orderly shadeSite.disk ∧ (shade.roots .prod).Legible shadeSite.disk ∧
      (∀ x ∈ shadeSite.disk.entries.pairs, ∀ y ∈ shadeSite.disk.entries.pairs,
        x.1.dropLast = y.1.dropLast → x.1.map Text.lower = y.1.map Text.lower → x.1 = y.1) ∧
      ∃ call ∈ s'.called, ¬ (shade.roots .prod).Prefers shadeSite.disk call.unit call.origin := by
  obtain ⟨summary, s', built, ran, calm, call, made, unit, origin⟩ := shade_outcome
  have sound : shadeSite.disk.Sound := sound_siteOf shadeFiles
  have seen : shadeConfig.check = .ok () ∧ Surveyed (shade.roots .prod) shadeSite.disk ∧
      ⟨⟨"/p/src_generated"⟩, 0, true⟩ ∈ (shade.roots .prod).roots ∧
      (shadeSite.disk.content? (shadeSite.disk.placeOf ⟨"/p/src_generated"⟩ ++
        ["app", "X.php"])).isSome = true := by
    decide +kernel
  obtain ⟨accepted, surveyed, generated, file⟩ := seen
  refine ⟨summary, s', built, ran, calm, quiet_scripted, accepted, sound,
    fun p => plain_siteOf shadeFiles p, surveyed.orderly, surveyed.legible, surveyed.2.2, call, made, ?_⟩
  rw [origin]
  rintro ⟨_, _, _, _, _, _, _, least⟩
  have same : (((shade.roots .prod).below ⟨⟨"/p/src_generated"⟩, 0, true⟩ ["app", "X.php"]).unit ==
      call.unit) = true := by
    refine UnitId.beq_of_lower_eq ?_
    rw [unit]
    decide +kernel
  exact absurd (least _ generated _
    (Roots.holds_of_content sound file (by decide +kernel)) same) (by decide)

end Builder
end LayerCache
