import LayerCache.Proofs.Build.Records
import Mathlib.Data.List.Pairwise

/-! A build that is asked to stop is the beginning of the one that is not. Whether to stop is asked
between two units only, and nothing else in a build depends on the answer: up to the first check
that says so two builds do the same, and from there on the one that stops does nothing. -/
namespace LayerCache

/-- The same plan with another way of asking to stop. -/
def Plan.until (plan : Plan) (cancel : Cancel) : Plan := { plan with cancel }

namespace Pass

/-- A pass with other notes about stopping. -/
def noting (checks : Nat) (cancelled : Bool) (p : Pass) : Pass := { p with checks, cancelled }

section

variable (plan : Plan) (cancel : Cancel) (checks : Nat) (cancelled : Bool) (p : Pass)

theorem locate_noting (u : UnitId) : (p.noting checks cancelled).locate (plan.until cancel) u =
    Prod.map id (noting checks cancelled) (p.locate plan u) := by
  have same : (plan.until cancel).roots.resolve (p.noting checks cancelled).disk u =
      plan.roots.resolve p.disk u := rfl
  simp only [locate, same]
  rcases plan.roots.resolve p.disk u with _ | f
  · rfl
  · rfl

theorem load_noting (origin : Origin) : (p.noting checks cancelled).load origin =
    Prod.map id (noting checks cancelled) (p.load origin) := by
  cases origin with
  | root rank path =>
    have same : (p.noting checks cancelled).disk.read path = p.disk.read path := rfl
    simp only [load, same]
    rcases p.disk.read path with fault | content
    · rfl
    · rfl
  | archive entry => rfl

theorem deliver_noting (c : Candidate) (goal : Destination) (artifact : ByteArray) :
    (p.noting checks cancelled).deliver (plan.until cancel) c goal artifact =
      (p.deliver plan c goal artifact).noting checks cancelled := by
  have same : (p.noting checks cancelled).store (plan.until cancel) c.unit goal artifact =
      Prod.map id (noting checks cancelled) (p.store plan c.unit goal artifact) := by
    cases goal with
    | cache =>
      simp only [store, Plan.until, noting]
      generalize plan.cache.store p.disk c.unit artifact = stored
      rfl
    | beside path =>
      simp only [store, noting]
      generalize ArtifactCache.writeArtifact p.disk path artifact = stored
      rfl
  simp only [deliver, same]
  rcases p.store plan c.unit goal artifact with ⟨e | _, q⟩
  · rfl
  · have removed : (q.noting checks cancelled).removeSource c.origin goal =
        (q.removeSource c.origin goal).noting checks cancelled := by
      unfold removeSource
      split <;> rfl
    simp only [Prod.map_apply, id, removed]
    rfl

end

end Pass

/-- Worlds that stand in a relation stay so while a conversation goes on. -/
theorem Session.run_map {σ : Type} {answer other : String → σ → Bool × σ} {f : σ → σ}
    {disk : σ → Disk} {setDisk : Disk → σ → σ}
    (answers : ∀ symbol q, other symbol (f q) = Prod.map id f (answer symbol q))
    (disks : ∀ q, disk (f q) = disk q) (sets : ∀ d q, setDisk d (f q) = f (setDisk d q))
    (s : Session) (q : σ) :
    s.run other disk setDisk (f q) = Prod.map id f (s.run answer disk setDisk q) := by
  induction s generalizing q with
  | finish | fail | breakdown => rfl
  | resolve symbol next ih =>
    simp only [run, answers]
    exact ih _ _
  | look next ih =>
    simp only [run, disks]
    exact ih _ _
  | replace d next ih =>
    simp only [run, sets]
    exact ih _

namespace Pass

section

variable {plan : Plan} {cancel : Cancel} {checks : Nat} {cancelled : Bool}

theorem compile_noting {answer other : String → Pass → Bool × Pass}
    (answers : ∀ symbol q, other symbol (q.noting checks cancelled) =
      Prod.map id (noting checks cancelled) (answer symbol q))
    (c : Candidate) (goal : Destination) (p : Pass) :
    (p.noting checks cancelled).compile (plan.until cancel) other c goal =
      (p.compile plan answer c goal).noting checks cancelled := by
  simp only [compile, load_noting]
  rcases p.load c.origin with ⟨e | content, q⟩
  · rfl
  · have disks : ∀ q : Pass, Pass.disk (q.noting checks cancelled) = q.disk := fun _ => rfl
    have sets : ∀ d q, setDisk d (noting checks cancelled q) =
      (setDisk d q).noting checks cancelled := fun _ _ => rfl
    have said : (q.noting checks cancelled).call (plan.until cancel) other c content =
        Prod.map id (noting checks cancelled) (q.call plan answer c content) :=
      Session.run_map answers disks sets (plan.service q.called.length ⟨c.unit, c.origin, content⟩)
        { q with called := q.called ++ [⟨c.unit, c.origin, content⟩] }
    simp only [Prod.map_apply, id, said]
    rcases q.call plan answer c content with ⟨e | artifact, r⟩
    · rfl
    · exact deliver_noting plan cancel checks cancelled r c goal artifact

/-- Whether a build is to stop makes no difference to a unit that was begun. -/
theorem resolve_noting (depth : Nat) (symbol : String) (p : Pass) :
    resolve (plan.until cancel) depth symbol (p.noting checks cancelled) =
      Prod.map id (noting checks cancelled) (resolve plan depth symbol p) := by
  induction depth generalizing symbol p with
  | zero => rfl
  | succ depth ih =>
    simp only [resolve, locate_noting]
    by_cases empty : (UnitId.ofSymbol symbol).isEmpty = true
    · simp only [if_pos empty]
      rfl
    by_cases known : p.tracker.has (.ofSymbol symbol) = true
    · have same : (p.noting checks cancelled).tracker.has (.ofSymbol symbol) = true := known
      simp only [if_neg empty, if_pos known, if_pos same]
      rfl
    · have same : ¬ (p.noting checks cancelled).tracker.has (.ofSymbol symbol) = true := known
      simp only [if_neg empty, if_neg known, if_neg same]
      rcases p.locate plan (.ofSymbol symbol) with ⟨_ | c, q⟩
      · rfl
      · by_cases begun : q.tracker.has c.unit = true
        · have still : (q.noting checks cancelled).tracker.has c.unit = true := begun
          simp only [Prod.map_apply, id, Tracker.mark, if_pos begun, if_pos still]
          rfl
        · have fresh : ¬ (q.noting checks cancelled).tracker.has c.unit = true := begun
          simp only [Prod.map_apply, id, Tracker.mark, if_neg begun, if_neg fresh]
          exact congrArg (Prod.mk true) (compile_noting ih c (plan.destination c.origin)
            { q with tracker := ⟨q.tracker.units ++ [c.unit]⟩ })

theorem take_noting (depth : Nat) (c : Candidate) (goal : Destination) (p : Pass) :
    (p.noting checks cancelled).take (plan.until cancel) depth c goal =
      (p.take plan depth c goal).noting checks cancelled :=
  compile_noting (resolve_noting depth) c goal { p with tracker := (p.tracker.mark c.unit).2 }

theorem skip_noting (u : UnitId) (reason : String) (p : Pass) :
    (p.noting checks cancelled).skip u reason = (p.skip u reason).noting checks cancelled := rfl

theorem record_noting (u : UnitId) (origin : Origin) (artifact : ByteArray) (p : Pass) :
    (p.noting checks cancelled).record u origin artifact =
      (p.record u origin artifact).noting checks cancelled := rfl

end

/-- What a sweep does about a source when it is not stopped. -/
def takeSource (plan : Plan) (depth : Nat) (f : SourceFile) (p : Pass) : Pass :=
  if p.tracker.has f.unit then p.skip f.unit alreadyResolved
  else match plan.roots.resolve p.disk f.unit with
    | some winner =>
      if winner.rank < f.rank then p.skip f.unit ("shadowed by root " ++ toString winner.rank)
      else p.take plan depth (.ofSource f) .cache
    | none => p.take plan depth (.ofSource f) .cache

theorem sweepSource_eq (plan : Plan) (depth : Nat) (f : SourceFile) (p : Pass) :
    p.sweepSource plan depth f = p.unlessStopped plan (takeSource plan depth f) := rfl

/-- What a sweep does about an entry when it is not stopped. -/
def takeEntry (plan : Plan) (depth : Nat) (c : Candidate) (p : Pass) : Pass :=
  if p.tracker.has c.unit then p.skip c.unit alreadyResolved
  else match plan.cache.read p.disk c.unit with
    | some artifact => (p.skip c.unit "already cached").record c.unit c.origin artifact
    | none => p.take plan depth c .cache

theorem sweepEntry_eq (plan : Plan) (depth : Nat) (archive : Path) (entry : String) (p : Pass) :
    p.sweepEntry plan depth archive entry =
      p.unlessStopped plan (takeEntry plan depth (.ofEntry plan.roots.ending ⟨archive, entry⟩)) := by
  simp only [sweepEntry, unlessStopped]
  generalize Candidate.ofEntry plan.roots.ending ⟨archive, entry⟩ = c
  split
  · rfl
  · rcases cached : plan.cache.read (p.check plan).2.disk c.unit with _ | artifact
    all_goals simp only [takeEntry, cached]

/-! Two builds side by side. -/

/-- All of a pass but what is known of archives and the notes about stopping. -/
structure Agrees (p q : Pass) : Prop where
  disk : p.disk = q.disk
  tracker : p.tracker = q.tracker
  log : p.log = q.log
  manifest : p.manifest = q.manifest
  called : p.called = q.called

namespace Agrees

variable {p q r : Pass}

theorem refl (p : Pass) : p.Agrees p := ⟨rfl, rfl, rfl, rfl, rfl⟩

theorem trans (first : p.Agrees q) (second : q.Agrees r) : p.Agrees r :=
  ⟨first.disk.trans second.disk, first.tracker.trans second.tracker, first.log.trans second.log,
    first.manifest.trans second.manifest, first.called.trans second.called⟩

end Agrees

theorem agrees_check (plan : Plan) (p : Pass) : (p.check plan).2.Agrees p :=
  ⟨rfl, rfl, rfl, rfl, rfl⟩

/-- Neither build was told to stop, and both are at the same point. -/
structure Abreast (p q : Pass) : Prop where
  same : p = q.noting p.checks false
  calm : q.cancelled = false

theorem Abreast.running {p q : Pass} (abreast : Abreast p q) : p.cancelled = false := by
  rw [abreast.same]
  rfl

theorem Abreast.agrees {p q : Pass} (abreast : Abreast p q) : p.Agrees q := by
  rw [abreast.same]
  exact ⟨rfl, rfl, rfl, rfl, rfl⟩

/-- A build keeps up with another, or was told to stop at one of the points that one passed. -/
def Shadows (stations : List Pass) (p q : Pass) : Prop :=
  Abreast p q ∨ p.cancelled = true ∧ ∃ r ∈ stations, p.Agrees r

/-- A part of a build as it goes when nobody stops it, and as it goes when somebody may; with the
points between units that the former passes. -/
structure Follows (full part : Pass → Pass) (stations : Pass → List Pass) : Prop where
  goes : ∀ p q, Abreast p q → Shadows (stations q) (part p) (full q)
  rests : ∀ p, p.cancelled = true → (part p).cancelled = true ∧ (part p).Agrees p

/-- The points passed on the way along a list, where those passed at each of its items are known. -/
def trail {α : Type} (visit : Pass → α → Pass) (inner : Pass → α → List Pass) :
    List α → Pass → List Pass
  | [], _ => []
  | x :: rest, p => inner p x ++ trail visit inner rest (visit p x)

/-- The points between the items of a list that are units. -/
abbrev pauses {α : Type} (visit : Pass → α → Pass) : List α → Pass → List Pass :=
  trail visit fun p _ => [p]

/-! The points between two units of a build. -/

def rootStations (plan : Plan) (depth : Nat) (p : Pass) (root : SourceRoot) : List Pass :=
  pauses (sweepSource plan depth) (plan.roots.sweep p.disk root) p

def rootsStations (plan : Plan) (depth : Nat) (p : Pass) : List Pass :=
  trail (sweepRoot plan depth) (rootStations plan depth)
    (plan.roots.roots.filter fun root => !root.generated) p

def generatedStations (plan : Plan) (depth : Nat) (p : Pass) : List Pass :=
  match plan.roots.roots.find? (·.generated) with
  | some root => pauses (sweepGeneratedSource plan depth) (plan.roots.sweep p.disk root) p
  | none => []

def archiveStations (plan : Plan) (depth : Nat) (p : Pass) (archive : Path) : List Pass :=
  let (entries, archives) := p.archives.entries p.disk archive
  pauses (sweepEntry plan depth archive) entries { p with archives }

def archivesStations (plan : Plan) (depth : Nat) (p : Pass) : List Pass :=
  trail (sweepArchive plan depth) (archiveStations plan depth) p.archives.paths p

/-- A build before each unit and at its end. -/
def stations (plan : Plan) (depth : Nat) (points : List String) (p : Pass) : List Pass :=
  let entered := points.foldl (enter plan depth) p
  let rooted := entered.sweepRoots plan depth
  let generated := rooted.sweepGenerated plan depth
  pauses (enter plan depth) points p ++ rootsStations plan depth entered ++
    generatedStations plan depth rooted ++ archivesStations plan depth generated ++
    [generated.sweepArchives plan depth]

namespace Follows

variable {full part full' part' : Pass → Pass} {stations stations' : Pass → List Pass}

theorem comp (first : Follows full part stations) (second : Follows full' part' stations') :
    Follows (fun p => full' (full p)) (fun p => part' (part p))
      (fun p => stations p ++ stations' (full p)) := by
  constructor
  · intro p q abreast
    rcases first.goes p q abreast with still | ⟨stopped, r, member, agrees⟩
    · rcases second.goes _ _ still with there | ⟨stopped, r, member, agrees⟩
      · exact .inl there
      · exact .inr ⟨stopped, r, List.mem_append_right _ member, agrees⟩
    · obtain ⟨stays, rests⟩ := second.rests _ stopped
      exact .inr ⟨stays, r, List.mem_append_left _ member, rests.trans agrees⟩
  · intro p stopped
    obtain ⟨stays, same⟩ := first.rests p stopped
    obtain ⟨rests, again⟩ := second.rests _ stays
    exact ⟨rests, again.trans same⟩

theorem foldl {α : Type} {visit visit' : Pass → α → Pass} {inner : Pass → α → List Pass}
    (all : List α) (follows : ∀ x, Follows (visit · x) (visit' · x) (inner · x)) :
    Follows (all.foldl visit ·) (all.foldl visit' ·) (trail visit inner all) := by
  induction all with
  | nil => exact ⟨fun _ _ abreast => .inl abreast, fun p stopped => ⟨stopped, .refl p⟩⟩
  | cons x rest ih => exact (follows x).comp ih

theorem unlessStopped {plan : Plan} (endless : plan.cancel = .never) (cancel : Cancel)
    (work : Plan → Pass → Pass) (steady : ∀ cancel checks cancelled q,
      work (plan.until cancel) (noting checks cancelled q) = (work plan q).noting checks cancelled) :
    Follows (fun p => p.unlessStopped plan (work plan))
      (fun p => p.unlessStopped (plan.until cancel) (work (plan.until cancel))) ([·]) := by
  constructor
  · intro p q abreast
    have went : q.unlessStopped plan (work plan) = work plan (q.check plan).2 := by
      simp [Pass.unlessStopped, check, endless, Cancel.never, abreast.calm]
    have running := abreast.running
    simp only [Pass.unlessStopped] at went ⊢
    rw [went]
    by_cases stop : (p.check (plan.until cancel)).1 = true
    · rw [if_pos stop]
      exact .inr ⟨stop, q, List.mem_singleton_self q, (agrees_check _ p).trans abreast.agrees⟩
    · rw [if_neg stop]
      left
      have told : (p.check (plan.until cancel)).2 = (q.check plan).2.noting (p.checks + 1) false := by
        have off : (p.cancelled || cancel p.log.lines.length p.checks) = false := by
          simpa [check, Plan.until] using stop
        simp only [check, Plan.until, off]
        rw [abreast.same]
        rfl
      have quiet : (q.check plan).2.cancelled = false := by
        simp [check, endless, Cancel.never, abreast.calm]
      have kept := congrArg Pass.cancelled
        (steady plan.cancel (q.check plan).2.checks (q.check plan).2.cancelled (q.check plan).2)
      rw [told, steady]
      exact ⟨rfl, kept.trans quiet⟩
  · intro p stopped
    have stop : (p.check (plan.until cancel)).1 = true := by simp [check, stopped]
    simp only [Pass.unlessStopped, if_pos stop]
    exact ⟨by simp [check, stopped], agrees_check _ p⟩

end Follows

section

variable {plan : Plan} (endless : plan.cancel = .never) (cancel : Cancel) (depth : Nat)

include endless

theorem enter_follows (symbol : String) : Follows (·.enter plan depth symbol)
    (·.enter (plan.until cancel) depth symbol) ([·]) :=
  .unlessStopped endless cancel (fun plan p => (resolve plan depth symbol p).2)
    fun cancel checks cancelled q => by rw [resolve_noting, Prod.map_snd]

theorem sweepSource_follows (f : SourceFile) : Follows (·.sweepSource plan depth f)
    (·.sweepSource (plan.until cancel) depth f) ([·]) := by
  simp only [sweepSource_eq]
  refine .unlessStopped endless cancel (fun plan => takeSource plan depth f)
    fun cancel checks cancelled q => ?_
  have taken := @take_noting plan cancel checks cancelled depth (.ofSource f) .cache q
  have tracker : (q.noting checks cancelled).tracker = q.tracker := rfl
  have found : (plan.until cancel).roots.resolve (q.noting checks cancelled).disk f.unit =
      plan.roots.resolve q.disk f.unit := rfl
  simp only [takeSource, tracker, found, taken]
  split
  · rfl
  split
  · split
    · rfl
    · rfl
  · rfl

theorem sweepGeneratedSource_follows (f : SourceFile) : Follows (·.sweepGeneratedSource plan depth f)
    (·.sweepGeneratedSource (plan.until cancel) depth f) ([·]) := by
  refine .unlessStopped endless cancel (fun plan p =>
    if p.tracker.has f.unit then p.skip f.unit alreadyResolved
    else p.take plan depth (.ofSource f) (.beside (plan.besideSource f.path)))
    fun cancel checks cancelled q => ?_
  have taken := @take_noting plan cancel checks cancelled depth (.ofSource f)
    (.beside (plan.besideSource f.path)) q
  have tracker : (q.noting checks cancelled).tracker = q.tracker := rfl
  have beside : (plan.until cancel).besideSource f.path = plan.besideSource f.path := rfl
  simp only [tracker, beside, taken]
  split
  · rfl
  · rfl

theorem sweepEntry_follows (archive : Path) (entry : String) :
    Follows (·.sweepEntry plan depth archive entry)
      (·.sweepEntry (plan.until cancel) depth archive entry) ([·]) := by
  simp only [sweepEntry_eq]
  refine .unlessStopped endless cancel (fun plan =>
    takeEntry plan depth (.ofEntry plan.roots.ending ⟨archive, entry⟩)) fun cancel checks cancelled q => ?_
  have roots : (plan.until cancel).roots = plan.roots := rfl
  rw [roots]
  generalize Candidate.ofEntry plan.roots.ending ⟨archive, entry⟩ = c
  have taken := @take_noting plan cancel checks cancelled depth c .cache q
  have tracker : (q.noting checks cancelled).tracker = q.tracker := rfl
  have cached : (plan.until cancel).cache.read (q.noting checks cancelled).disk =
      plan.cache.read q.disk := rfl
  simp only [takeEntry, tracker, cached, taken, skip_noting, record_noting]
  split
  · rfl
  split
  · rfl
  · rfl

theorem sweepRoot_follows (root : SourceRoot) : Follows (·.sweepRoot plan depth root)
    (·.sweepRoot (plan.until cancel) depth root) (rootStations plan depth · root) := by
  have swept := fun all => Follows.foldl all (sweepSource_follows endless cancel depth)
  constructor
  · intro p q abreast
    have same : (plan.until cancel).roots.sweep p.disk root = plan.roots.sweep q.disk root :=
      congrArg (plan.roots.sweep · root) abreast.agrees.disk
    simp only [sweepRoot, same]
    exact (swept _).goes p q abreast
  · exact fun p => (swept ((plan.until cancel).roots.sweep p.disk root)).rests p

theorem sweepRoots_follows : Follows (·.sweepRoots plan depth) (·.sweepRoots (plan.until cancel) depth)
    (rootsStations plan depth) :=
  .foldl _ (sweepRoot_follows endless cancel depth)

theorem sweepGenerated_follows : Follows (·.sweepGenerated plan depth)
    (·.sweepGenerated (plan.until cancel) depth) (generatedStations plan depth) := by
  have swept := fun all => Follows.foldl all (sweepGeneratedSource_follows endless cancel depth)
  have roots : (plan.until cancel).roots = plan.roots := rfl
  rcases found : plan.roots.roots.find? (·.generated) with _ | root
  · constructor
    · intro p q abreast
      simp only [sweepGenerated, roots, found]
      exact .inl abreast
    · intro p stopped
      simp only [sweepGenerated, roots, found]
      exact ⟨stopped, .refl p⟩
  · constructor
    · intro p q abreast
      simp only [sweepGenerated, generatedStations, roots, found, abreast.agrees.disk]
      exact (swept _).goes p q abreast
    · intro p stopped
      simp only [sweepGenerated, roots, found]
      exact (swept (plan.roots.sweep p.disk root)).rests p stopped

theorem sweepArchive_follows (archive : Path) : Follows (·.sweepArchive plan depth archive)
    (·.sweepArchive (plan.until cancel) depth archive) (archiveStations plan depth · archive) := by
  have swept := fun all => Follows.foldl all (sweepEntry_follows endless cancel depth archive)
  constructor
  · intro p q abreast
    have known : p.archives.entries p.disk archive = q.archives.entries q.disk archive := by
      rw [abreast.same]
      rfl
    simp only [sweepArchive, archiveStations, known]
    refine (swept _).goes _ _ ⟨?_, abreast.calm⟩
    rw [abreast.same]
    rfl
  · intro p stopped
    obtain ⟨stays, same⟩ := (swept (p.archives.entries p.disk archive).1).rests
      { p with archives := (p.archives.entries p.disk archive).2 } stopped
    exact ⟨stays, same.trans ⟨rfl, rfl, rfl, rfl, rfl⟩⟩

theorem sweepArchives_follows : Follows (·.sweepArchives plan depth)
    (·.sweepArchives (plan.until cancel) depth) (archivesStations plan depth) := by
  have swept := fun all => Follows.foldl all (sweepArchive_follows endless cancel depth)
  constructor
  · intro p q abreast
    have paths : p.archives.paths = q.archives.paths := by
      rw [abreast.same]
      rfl
    simp only [sweepArchives, archivesStations, paths]
    exact (swept _).goes p q abreast
  · exact fun p => (swept p.archives.paths).rests p

/-- A build that may be stopped ends where the other one ends or at a point that one passes. -/
theorem sweep_follows (points : List String) {p : Pass} (calm : p.cancelled = false) :
    Abreast (p.sweep (plan.until cancel) depth points) (p.sweep plan depth points) ∨
      (p.sweep (plan.until cancel) depth points).cancelled = true ∧
        ∃ r ∈ stations plan depth points p, (p.sweep (plan.until cancel) depth points).Agrees r := by
  have whole := (((Follows.foldl points (enter_follows endless cancel depth)).comp
    (sweepRoots_follows endless cancel depth)).comp (sweepGenerated_follows endless cancel depth)).comp
    (sweepArchives_follows endless cancel depth)
  have start : Abreast p p := ⟨by rw [← calm]; rfl, calm⟩
  rcases whole.goes p p start with still | ⟨stopped, r, member, agrees⟩
  · exact .inl still
  · exact .inr ⟨stopped, r, List.mem_append_left _ member, agrees⟩

end

end Pass

/-! A build only adds to its log, and between two events it leaves the disk alone. -/

structure Log.Extends (earlier later : Log) : Prop where
  events : earlier.events <+: later.events
  lines : earlier.lines <+: later.lines

namespace Log.Extends

variable {a b c : Log}

theorem refl (a : Log) : a.Extends a := ⟨List.prefix_rfl, List.prefix_rfl⟩

theorem trans (first : a.Extends b) (second : b.Extends c) : a.Extends c :=
  ⟨first.events.trans second.events, first.lines.trans second.lines⟩

theorem addSkipped (log : Log) (unit reason : String) : log.Extends (log.addSkipped unit reason) :=
  ⟨List.prefix_append _ _, List.prefix_rfl⟩

theorem addCompiled (log : Log) (unit name : String) : log.Extends (log.addCompiled unit name) := by
  refine ⟨by simp, ?_⟩
  simp only [Log.addCompiled, Log.push, Log.say]
  split
  · exact List.prefix_append _ _
  · exact List.prefix_rfl

theorem addError (log : Log) (unit message context : String) :
    log.Extends (log.addError unit message context) := by
  refine ⟨by simp, ?_⟩
  simp only [Log.addError, Log.push, Log.say]
  split
  · exact List.prefix_append _ _
  · exact List.prefix_rfl

theorem of_move {plan : Plan} {points : List String} {m next : Stage} (move : Move plan points m next) :
    m.pass.log.Extends next.pass.log := by
  cases move with
  | pass | yield | keep => exact addSkipped _ _ _
  | unread | reject => exact addError _ _ _ _
  | @deliver p c goal _ _ _ _ artifact _ =>
    rcases p.deliver_cases plan c goal artifact with ⟨_, _, _, after⟩ | ⟨_, _, after⟩
    · rw [after]
      exact addError _ _ _ _
    · rw [after]
      exact addCompiled _ _ _
  | _ => exact refl _

theorem of_course {plan : Plan} {points : List String} {m next : Stage}
    (course : Course plan points m next) : m.pass.log.Extends next.pass.log :=
  course.invariant (fun n => m.pass.log.Extends n.pass.log)
    (fun _ _ before move => before.trans (of_move move)) (refl _)

end Log.Extends

namespace Pass

structure Grows (p q : Pass) : Prop where
  log : p.log.Extends q.log
  still : p.log.events = q.log.events → p.disk = q.disk

namespace Grows

variable {p q r : Pass}

theorem refl (p : Pass) : Grows p p := ⟨.refl _, fun _ => rfl⟩

theorem trans (first : Grows p q) (second : Grows q r) : Grows p r := by
  refine ⟨first.log.trans second.log, fun same => ?_⟩
  have between : p.log.events = q.log.events :=
    first.log.events.eq_of_length_le (same ▸ second.log.events.length_le)
  exact (first.still between).trans (second.still (between.symm.trans same))

/-- An event sets two passes apart. -/
theorem of_told (log : p.log.Extends q.log) (told : p.log.events.length < q.log.events.length) :
    Grows p q := ⟨log, fun same => absurd told (by simp [same])⟩

theorem of_same (log : q.log = p.log) (disk : q.disk = p.disk) : Grows p q :=
  ⟨log ▸ .refl _, fun _ => disk.symm⟩

theorem skip (u : UnitId) (reason : String) (p : Pass) : Grows p (p.skip u reason) :=
  of_told (.addSkipped _ _ _) (by simp [Pass.skip])

end Grows

section

variable {plan : Plan} {points : List String}

theorem told_deliver (c : Candidate) (goal : Destination) (artifact : ByteArray) (p : Pass) :
    (p.deliver plan c goal artifact).log.events.length = p.log.events.length + 1 := by
  rcases p.deliver_cases plan c goal artifact with ⟨_, _, _, after⟩ | ⟨_, _, after⟩
  · simp [after, fail, setDisk]
  · simp [after]

theorem compile_grows (depth : Nat) (c : Candidate) (goal : Destination) (p : Pass) :
    Grows p (p.compile plan (resolve plan depth) c goal) := by
  have course : Course plan [] ⟨p, [⟨c, goal, none⟩], [], []⟩
      ⟨p.compile plan (resolve plan depth) c goal, [], [], []⟩ :=
    compile_course (fun symbol q ts asked => resolve_course depth symbol q ts asked) c goal [] p
  refine .of_told (Log.Extends.of_course course) ?_
  rcases loaded : p.load c.origin with ⟨e | content, after⟩
  · obtain ⟨archives, _, rfl⟩ := load_rest loaded
    simp [compile, loaded, fail]
  · obtain ⟨archives, _, rfl⟩ := load_rest loaded
    have answers : ∀ symbol q ts, plan.Asks [] symbol → Course plan [] ⟨q, ts, [], []⟩
        ⟨(resolve plan depth symbol q).2, ts, [], []⟩ :=
      fun symbol q ts asked => resolve_course depth symbol q ts asked
    have talked := (Session.run_course answers c goal [] (plan.service p.called.length ⟨c.unit, c.origin, content⟩)
      { p with archives, called := p.called ++ [⟨c.unit, c.origin, content⟩] }
      (fun _ h => h) (fun _ h => .inr ⟨_, _, h⟩) (fun quiet => quiet _ _)).1
    have longer := (Log.Extends.of_course talked).events.length_le
    rcases said : call plan (resolve plan depth) c content { p with archives } with ⟨e | artifact, after⟩
    all_goals
      simp only [compile, loaded, said]
      simp only [call] at said
      rw [said] at longer
    · simpa [fail] using Nat.lt_succ_of_le longer
    · rw [told_deliver]
      exact Nat.lt_succ_of_le longer

theorem resolve_grows (depth : Nat) (symbol : String) (p : Pass) :
    Grows p (resolve plan depth symbol p).2 := by
  cases depth with
  | zero => exact .refl p
  | succ depth =>
    simp only [resolve]
    split
    · exact .refl p
    split
    · exact .refl p
    have rest := p.locate_rest plan (.ofSymbol symbol)
    rcases located : p.locate plan (.ofSymbol symbol) with ⟨_ | c, after⟩
    all_goals
      rw [located] at rest
      have same : after.log = p.log ∧ after.disk = p.disk := by
        rcases rest with rfl | rfl
        · exact ⟨rfl, rfl⟩
        · exact ⟨rfl, rfl⟩
    · exact .of_same same.1 same.2
    · by_cases begun : after.tracker.has c.unit = true
      · simpa [Tracker.mark, begun] using Grows.of_same same.1 same.2
      · have compiled := @compile_grows plan depth c (plan.destination c.origin)
          { after with tracker := (after.tracker.mark c.unit).2 }
        have marked : Grows p { after with tracker := (after.tracker.mark c.unit).2 } :=
          .of_same same.1 same.2
        simpa [Tracker.mark, begun] using marked.trans compiled

theorem unlessStopped_grows {work : Pass → Pass} (working : ∀ q, Grows q (work q)) (p : Pass) :
    Grows p (p.unlessStopped plan work) := by
  have checked : Grows p (p.check plan).2 := .of_same rfl rfl
  simp only [unlessStopped]
  split
  · exact checked
  · exact checked.trans (working _)

theorem enter_grows (depth : Nat) (p : Pass) (symbol : String) : Grows p (p.enter plan depth symbol) :=
  unlessStopped_grows (resolve_grows depth symbol) p

theorem take_grows (depth : Nat) (c : Candidate) (goal : Destination) (p : Pass) :
    Grows p (p.take plan depth c goal) := by
  have marked : Grows p { p with tracker := (p.tracker.mark c.unit).2 } := .of_same rfl rfl
  exact marked.trans (compile_grows depth c goal _)

theorem sweepSource_grows (depth : Nat) (p : Pass) (f : SourceFile) :
    Grows p (p.sweepSource plan depth f) := by
  refine unlessStopped_grows (fun q => ?_) p
  split
  · exact .skip _ _ q
  split
  · split
    · exact .skip _ _ q
    · exact take_grows depth _ _ q
  · exact take_grows depth _ _ q

theorem sweepGeneratedSource_grows (depth : Nat) (p : Pass) (f : SourceFile) :
    Grows p (p.sweepGeneratedSource plan depth f) := by
  refine unlessStopped_grows (fun q => ?_) p
  split
  · exact .skip _ _ q
  · exact take_grows depth _ _ q

theorem sweepEntry_grows (depth : Nat) (archive : Path) (p : Pass) (entry : String) :
    Grows p (p.sweepEntry plan depth archive entry) := by
  rw [sweepEntry_eq]
  refine unlessStopped_grows (fun q => ?_) p
  simp only [takeEntry]
  split
  · exact .skip _ _ q
  split
  · exact (Grows.skip _ _ q).trans (.of_same rfl rfl)
  · exact take_grows depth _ _ q

/-- Points passed in order on the way from one to another. -/
structure Climbs (p : Pass) (points : List Pass) (q : Pass) : Prop where
  whole : Grows p q
  between : ∀ r ∈ points, Grows p r ∧ Grows r q
  ordered : points.Pairwise Grows

namespace Climbs

variable {p q r : Pass} {front back : List Pass}

theorem append (first : Climbs p front q) (second : Climbs q back r) : Climbs p (front ++ back) r := by
  refine ⟨first.whole.trans second.whole, fun s member => ?_, ?_⟩
  · rcases List.mem_append.mp member with early | late
    · exact ⟨(first.between s early).1, (first.between s early).2.trans second.whole⟩
    · exact ⟨first.whole.trans (second.between s late).1, (second.between s late).2⟩
  · refine List.pairwise_append.mpr ⟨first.ordered, second.ordered, fun a early b late => ?_⟩
    exact (first.between a early).2.trans (second.between b late).1

theorem single (grows : Grows p q) : Climbs p [p] q :=
  ⟨grows, fun r member => by rw [List.mem_singleton.mp member]; exact ⟨.refl p, grows⟩,
    List.pairwise_singleton _ _⟩

theorem trail {α : Type} {visit : Pass → α → Pass} {inner : Pass → α → List Pass}
    (climbs : ∀ x p, Climbs p (inner p x) (visit p x)) (all : List α) (p : Pass) :
    Climbs p (trail visit inner all p) (all.foldl visit p) := by
  induction all generalizing p with
  | nil => exact ⟨.refl p, by simp [Pass.trail], List.Pairwise.nil⟩
  | cons x rest ih => exact (climbs x p).append (ih _)

theorem pauses {α : Type} {visit : Pass → α → Pass} (grows : ∀ p x, Grows p (visit p x))
    (all : List α) (p : Pass) : Climbs p (pauses visit all p) (all.foldl visit p) :=
  trail (fun x p => single (grows p x)) all p

end Climbs

theorem stations_climb (depth : Nat) (p : Pass) :
    Climbs p (stations plan depth points p) (p.sweep plan depth points) := by
  have roots := Climbs.trail fun root q =>
    Climbs.pauses (fun r f => @sweepSource_grows plan depth r f) (plan.roots.sweep q.disk root) q
  have generated : ∀ q, Climbs q (generatedStations plan depth q) (q.sweepGenerated plan depth) := by
    intro q
    rcases found : plan.roots.roots.find? (·.generated) with _ | root
    · simp only [sweepGenerated, generatedStations, found]
      exact ⟨.refl q, by simp, List.Pairwise.nil⟩
    · simp only [sweepGenerated, generatedStations, found]
      exact .pauses (sweepGeneratedSource_grows depth) _ q
  have archives := Climbs.trail fun archive q =>
    show Climbs q (archiveStations plan depth q archive) (q.sweepArchive plan depth archive) by
      have opened : Grows q { q with archives := (q.archives.entries q.disk archive).2 } :=
        .of_same rfl rfl
      have listed := Climbs.pauses (fun r x => @sweepEntry_grows plan depth archive r x)
        (q.archives.entries q.disk archive).1 { q with archives := (q.archives.entries q.disk archive).2 }
      exact ⟨opened.trans listed.whole,
        fun r member => ⟨opened.trans (listed.between r member).1, (listed.between r member).2⟩,
        listed.ordered⟩
  have last : ∀ q : Pass, Climbs q [q] q := fun q => .single (.refl q)
  exact ((((Climbs.pauses (enter_grows depth) points p).append (roots _ _)).append
    (generated _)).append (archives _ _)).append (last _)

/-- At one point of the log there is one disk. -/
theorem disk_of_stations {depth : Nat} {p q r : Pass} (first : q ∈ stations plan depth points p)
    (second : r ∈ stations plan depth points p) (same : q.log.events = r.log.events) :
    q.disk = r.disk := by
  have climbs : Climbs p (stations plan depth points p) _ := stations_climb depth p
  have ordered := climbs.ordered
  have alike : ∀ ⦃a⦄, a ∈ stations plan depth points p → ∀ ⦃b⦄, b ∈ stations plan depth points p →
      a.log.events = b.log.events → a.disk = b.disk :=
    List.Pairwise.forall_of_forall_of_flip (fun _ _ _ => rfl)
      (ordered.imp fun grows same => grows.still same)
      (ordered.imp fun grows same => (grows.still same.symm).symm)
  exact alike first second same

end

end Pass

namespace Builder

variable {b : Builder} {env : Environment} {heard : Bool} {cancel : Cancel} {s s' : Site}
  {summary : Summary}

/-- The build of a site that nobody stops, before each unit and at its end. -/
def stations (b : Builder) (env : Environment) (heard : Bool) (s : Site) : List Pass :=
  (b.start env heard s).stations (b.plan env .never) (b.depthAt env s) b.layout.naming.entryPoints

theorem settled_follows (b : Builder) (env : Environment) (heard : Bool) (cancel : Cancel) (s : Site) :
    Pass.Abreast (b.settled env heard cancel s) (b.settled env heard .never s) ∨
      (b.settled env heard cancel s).cancelled = true ∧
        ∃ q ∈ b.stations env heard s, (b.settled env heard cancel s).Agrees q :=
  @Pass.sweep_follows (b.plan env .never) rfl cancel (b.depthAt env s) b.layout.naming.entryPoints
    (b.start env heard s) rfl

/-- Where a build that may be stopped ends, the other one passes. -/
theorem settled_station (b : Builder) (env : Environment) (heard : Bool) (cancel : Cancel) (s : Site) :
    ∃ q ∈ b.stations env heard s, (b.settled env heard cancel s).Agrees q ∧
      q.log.Extends (b.settled env heard .never s).log := by
  have climbs := @Pass.stations_climb (b.plan env .never) b.layout.naming.entryPoints
    (b.depthAt env s) (b.start env heard s)
  rcases b.settled_follows env heard cancel s with abreast | ⟨_, q, member, agrees⟩
  · exact ⟨b.settled env heard .never s, List.mem_append_right _ (List.mem_singleton_self _),
      abreast.agrees, .refl _⟩
  · exact ⟨q, member, agrees, (climbs.between q member).2.log⟩

theorem ran_summarize (p : Pass) : (summarize p).ran = true := rfl

/-- Whether a site is built depends on nothing but where the cache lies. -/
theorem compile_alike {c : Builder} {heard' : Bool} {cancel' : Cancel} (cache : c.cache = b.cache)
    (built : b.compile env heard cancel s = (.ok summary, s')) :
    ∃ other s₁, c.compile env heard' cancel' s = (.ok other, s₁) ∧ other.ran = summary.ran := by
  rcases asked : wanted env s with ⟨e | _ | _, after⟩
  all_goals
    obtain ⟨settings, rfl⟩ := wanted_rest asked
    simp only [compile, asked, cache] at built ⊢
  · cases (Prod.mk.inj built).1
  · simp only [Prod.mk.injEq, Except.ok.injEq] at built
    exact ⟨_, _, rfl, congrArg Summary.ran built.1⟩
  · rcases made : b.cache.ensureFolder s.disk with ⟨e | _, d⟩
    · simp [made] at built
    · simp only [made, Prod.mk.injEq, Except.ok.injEq] at built
      refine ⟨_, _, rfl, ?_⟩
      rw [← built.1, ran_summarize, ran_summarize]

theorem compile_endless (built : b.compile env heard cancel s = (.ok summary, s')) :
    ∃ whole s₁, b.compile env heard .never s = (.ok whole, s₁) ∧ whole.ran = summary.ran :=
  compile_alike rfl built

theorem compile_lines (built : b.compile env heard cancel s = (.ok summary, s'))
    (ran : summary.ran = true) : summary.lines = (b.settled env heard cancel s).log.lines := by
  rcases compile_cases built with ⟨rfl, _, _⟩ | ⟨d, ensured, rfl, _, _⟩
  · cases ran
  have same : d = (b.cache.ensureFolder s.disk).2 := by rw [ensured]
  have last : b.closing env heard cancel (b.cache.ensureFolder s.disk).2 s.called =
      b.settled env heard cancel s := rfl
  rw [same, ← last, ← fill_log]
  rfl

/-- The events that end units tell of every unit the compiler was called for. -/
theorem calls_final (b : Builder) (env : Environment) (heard : Bool) (cancel : Cancel) (s : Site) :
    ∃ calls, (b.settled env heard cancel s).called = s.called ++ calls ∧ ∀ call ∈ calls,
      ∃ e ∈ finals (b.settled env heard cancel s).log.events, (e.identity == call.unit) = true := by
  obtain ⟨ss, es, account⟩ := b.account_settled env heard cancel s
  generalize b.settled env heard cancel s = p at account ⊢
  obtain ⟨calls, called, _, tracked⟩ := account.calls
  refine ⟨calls, called, fun call member => ?_⟩
  obtain ⟨u, known, same⟩ := List.mem_map.mp
    (tracked (List.mem_append_left _ (List.mem_map_of_mem member)))
  have ended := account.finals_perm.mem_iff.mp (List.mem_map_of_mem (f := UnitId.logical) known)
  obtain ⟨e, final, unit⟩ := List.mem_map.mp ended
  refine ⟨e, final, ?_⟩
  rw [Event.identity, unit, UnitId.ofLogical_logical]
  exact UnitId.beq_iff.mpr same

/-- A build that is stopped at any moment has begun as the one that is not, has finished each unit
it began, and leaves the disk as the other one had it at that point, but for its manifest. -/
theorem compile_stopped_prefix (built : b.compile env heard cancel s = (.ok summary, s'))
    (ran : summary.ran = true) :
    ∃ whole s₁, b.compile env heard .never s = (.ok whole, s₁) ∧
      summary.events <+: whole.events ∧ summary.lines <+: whole.lines ∧
      (summary.events ≠ whole.events → summary.cancelled = true) ∧
      (∃ calls, s'.called = s.called ++ calls ∧ ∀ call ∈ calls,
        ∃ e ∈ finals summary.events, (e.identity == call.unit) = true) ∧
      ∃ q ∈ b.stations env heard s, q.log.events = summary.events ∧
        (∀ r ∈ b.stations env heard s, r.log.events = summary.events → r.disk = q.disk) ∧
        s'.disk = ((b.filled env heard cancel s).save q.disk b.layout.cache).2 ∧
        (q.disk.Sound → q.disk.Plain b.layout.cache → ∀ place,
          place ≠ q.disk.placeOf b.layout.cache ++ [Manifest.fileName] →
            s'.disk.leafAt place = q.disk.leafAt place) := by
  obtain ⟨whole, s₁, ends, same⟩ := compile_endless built
  have wholeRan := same.trans ran
  obtain ⟨events, _, cancelled, called, _⟩ := compile_settled built ran
  obtain ⟨allEvents, _, _, _, _⟩ := compile_settled ends wholeRan
  obtain ⟨q, member, agrees, onward⟩ := b.settled_station env heard cancel s
  have told : q.log.events = summary.events := by rw [events, agrees.log]
  have saved := compile_saves built ran
  rw [agrees.disk] at saved
  refine ⟨whole, s₁, ends, ?_, ?_, ?_, ?_, q, member, told, ?_, saved, ?_⟩
  · rw [← told, allEvents]
    exact onward.events
  · rw [compile_lines built ran, compile_lines ends wholeRan, agrees.log]
    exact onward.lines
  · intro proper
    rcases b.settled_follows env heard cancel s with abreast | ⟨stopped, _⟩
    · rw [events, allEvents, abreast.agrees.log] at proper
      exact absurd rfl proper
    · rw [cancelled, stopped]
  · rw [called, events]
    exact b.calls_final env heard cancel s
  · exact fun r known equal => Pass.disk_of_stations known member (equal.trans told.symm)
  · intro sound plain place other
    rw [saved]
    exact ((changes_save _ sound plain).leaves place).resolve_right fun here => other here.1

theorem compile_stopped_prefix_sample : ∃ summary s',
    sample.compile .prod true (.atLine 1) sampleSite = (.ok summary, s') ∧ summary.cancelled = true ∧
      summary.events.length = 1 ∧ ∃ q ∈ sample.stations .prod true sampleSite,
        q.log.events = summary.events ∧
        s'.disk = ((sample.filled .prod true (.atLine 1) sampleSite).save q.disk sample.layout.cache).2 := by
  have told : (sample.settled .prod true (.atLine 1) sampleSite).cancelled = true ∧
      (sample.settled .prod true (.atLine 1) sampleSite).log.events.length = 1 := by
    decide +kernel
  obtain ⟨summary, s', built, ran, cancelled, events, _⟩ :=
    @compile_runs sample .prod true (.atLine 1) sampleSite rfl sample_settled.1
  rw [← cancelled, ← events] at told
  obtain ⟨_, _, _, _, _, _, _, q, member, same, _, saved, _⟩ := compile_stopped_prefix built ran
  exact ⟨summary, s', built, told.1, told.2, q, member, same, saved⟩

/-- A project with a unit whose artifact lies where the manifest is saved. -/
def notedConfig : Config :=
  ⟨"p", "", { generated := "gen" }, none, { artifactExt := "json" }, none, [], []⟩

def noted : Builder := ⟨.resolve ⟨"/p"⟩ notedConfig, Scripted.service, .absent⟩

def notedSite : Site := siteOf [("/p/src/.strata-manifest.php", "x")]

/-- What is then read as the artifact is the manifest, which it never was before. -/
theorem compile_overwrites_artifact : notedConfig.check = .ok () ∧ noted.service.Quiet ∧
    ∃ summary s', noted.compile .prod true (.atLine 1) notedSite = (.ok summary, s') ∧
      summary.ran = true ∧ summary.events = [⟨".strata-manifest", .compiled, ".strata-manifest.php"⟩] ∧
      ∀ q ∈ noted.stations .prod true notedSite, q.log.events = summary.events →
        noted.cache.read s'.disk (.ofLogical ".strata-manifest") ≠
          noted.cache.read q.disk (.ofLogical ".strata-manifest") := by
  have accepted : notedConfig.check = .ok () := by decide +kernel
  have quiet : noted.service.Quiet := quiet_scripted
  -- No artifact reads as a manifest.
  have told : (noted.cache.ensureFolder notedSite.disk).1.toOption = some () ∧
      (noted.settled .prod true (.atLine 1) notedSite).log.events =
        [⟨".strata-manifest", .compiled, ".strata-manifest.php"⟩] ∧
      (((noted.filled .prod true (.atLine 1) notedSite).save
        (noted.settled .prod true (.atLine 1) notedSite).disk noted.layout.cache).1.toOption = some () ∧
      ((noted.filled .prod true (.atLine 1) notedSite).save
        (noted.settled .prod true (.atLine 1) notedSite).disk noted.layout.cache).2.isFile
          (Manifest.pathIn noted.layout.cache) = true) ∧
      ∀ q ∈ noted.stations .prod true notedSite,
        (Manifest.load q.disk noted.layout.cache).toOption.join.isNone = true := by
    decide +kernel
  obtain ⟨opened, events, ⟨saved, file⟩, none⟩ := told
  obtain ⟨summary, s', built, ran, _, listed, _⟩ :=
    @compile_runs noted .prod true (.atLine 1) notedSite rfl opened
  rw [← listed] at events
  refine ⟨accepted, quiet, summary, s', built, ran, events, fun q member _ same => ?_⟩
  obtain ⟨source, artifact, differ⟩ := notedConfig.extensions_of_check accepted
  have since := @settled_changes noted .prod true (.atLine 1) notedSite
    (plan_proper source artifact differ) quiet (sound_siteOf _) fun folder _ => plain_siteOf _ folder
  rw [← compile_saves built ran] at file
  have loaded := Manifest.load_recalls since.sound (noted.sorted_filled .prod true (.atLine 1) notedSite)
    (Prod.ext (ok_of_toOption saved) (compile_saves built ran).symm) fun place device found => by
      simp [Disk.isFile, found] at file
  have read : (s'.disk.read (Manifest.pathIn noted.layout.cache)).toOption =
      (q.disk.read (Manifest.pathIn noted.layout.cache)).toOption := same
  have lost := none q member
  rw [Manifest.load_congr read loaded] at lost
  cases lost

end Builder
end LayerCache
