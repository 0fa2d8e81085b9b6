import Mathlib.Data.List.Forall2
import Mathlib.Data.List.Nodup
import LayerCache.Compiler.Scripted
import LayerCache.Proofs.Build.Course
import LayerCache.Proofs.Disk

/-! The books of a build. Every unit that is taken up ends in one event, so the events that end a
unit, the calls of the compiler, the lines heard and the names in the summary tell one story. -/
namespace LayerCache

namespace Event

/-- Whether a compilation ended in this event. -/
def isFinal (e : Event) : Bool := e.outcome != .skipped

def identity (e : Event) : UnitId := .ofLogical e.unit

/-- The line that is heard of an event. -/
def Says (e : Event) (line : String) : Prop :=
  match e.outcome with
  | .compiled => line = Log.compileLine e.message
  | .error => ∃ context, line = Log.errorLine e.unit e.message context
  | .skipped => False

end Event

def finals (events : List Event) : List Event := events.filter Event.isFinal

@[simp] theorem finals_append (first second : List Event) :
    finals (first ++ second) = finals first ++ finals second := by
  simp [finals]

namespace Log

def count (log : Log) (outcome : Outcome) : Nat := log.events.countP (·.outcome == outcome)

structure Faithful (heard : Bool) (log : Log) : Prop where
  listens : log.heard = heard
  compiled : log.compiled = log.count .compiled
  skipped : log.skipped = log.count .skipped
  errors : log.errors = log.count .error
  spoken : heard = true → List.Forall₂ Event.Says (finals log.events) log.lines
  silent : heard = false → log.lines = []

variable {heard : Bool} {log : Log}

theorem faithful_start (heard : Bool) : (start heard).Faithful heard := by
  constructor <;> simp [start, count, finals]

@[simp] theorem events_addCompiled (log : Log) (unit name : String) :
    (log.addCompiled unit name).events = log.events ++ [⟨unit, .compiled, name⟩] := by
  simp only [addCompiled, push, say]
  split <;> rfl

@[simp] theorem events_addSkipped (log : Log) (unit reason : String) :
    (log.addSkipped unit reason).events = log.events ++ [⟨unit, .skipped, reason⟩] := rfl

@[simp] theorem events_addError (log : Log) (unit message context : String) :
    (log.addError unit message context).events = log.events ++ [⟨unit, .error, message⟩] := by
  simp only [addError, push, say]
  split <;> rfl

theorem faithful_addCompiled (faithful : log.Faithful heard) (unit name : String) :
    (log.addCompiled unit name).Faithful heard := by
  obtain ⟨rfl, compiled, skipped, errors, spoken, silent⟩ := faithful
  cases listens : log.heard
  all_goals
    constructor
    all_goals simp_all [addCompiled, say, push, count, finals, Event.isFinal]
  exact List.rel_append spoken (.cons rfl .nil)

theorem faithful_addSkipped (faithful : log.Faithful heard) (unit reason : String) :
    (log.addSkipped unit reason).Faithful heard := by
  obtain ⟨rfl, compiled, skipped, errors, spoken, silent⟩ := faithful
  constructor
  all_goals simp_all [addSkipped, push, count, finals, Event.isFinal]

theorem faithful_addError (faithful : log.Faithful heard) (unit message context : String) :
    (log.addError unit message context).Faithful heard := by
  obtain ⟨rfl, compiled, skipped, errors, spoken, silent⟩ := faithful
  cases listens : log.heard
  all_goals
    constructor
    all_goals simp_all [addError, say, push, count, finals, Event.isFinal]
  exact List.rel_append spoken (.cons ⟨context, rfl⟩ .nil)

end Log
namespace Tracker

variable {t : Tracker} {u : UnitId}

theorem mark_fresh (fresh : t.has u = false) : (t.mark u).2.units = t.units ++ [u] := by
  simp [mark, fresh]

theorem digest_fresh (fresh : t.has u = false) : u.digest ∉ t.units.map (·.digest) := by
  intro member
  obtain ⟨v, known, same⟩ := List.mem_map.mp member
  have := has_iff.mpr ⟨v, known, same⟩
  simp_all

end Tracker

namespace Tracker

theorem names_perm (t : Tracker) : t.names.Perm (t.units.map UnitId.logical) :=
  List.mergeSort_perm ..

theorem names_sorted (t : Tracker) : t.names.Pairwise (· ≤ ·) := Text.sorted_mergeSort _

end Tracker

/-- The digests of jobs that the compiler was not called for. -/
def waiting (ts : List Job) : List Digest :=
  (ts.filter (·.conversation.isNone)).map (·.candidate.unit.digest)

/-- What a stage of a build has on its books, next to earlier calls of the compiler. -/
structure Account (heard : Bool) (before : List UnitSource) (m : Stage) : Prop where
  log : m.pass.log.Faithful heard
  distinct : (m.pass.tracker.units.map (·.digest)).Nodup
  finished : (m.pass.tracker.units.map (·.logical)).Perm
    ((finals m.pass.log.events).map (·.unit) ++ m.jobs.map (·.candidate.unit.logical))
  calls : ∃ calls, m.pass.called = before ++ calls ∧
    (calls.map (·.unit.digest) ++ waiting m.jobs).Nodup ∧
    calls.map (·.unit.digest) ++ waiting m.jobs ⊆ m.pass.tracker.units.map (·.digest)

namespace Account

variable {plan : Plan} {points : List String} {heard : Bool} {before : List UnitSource} {p : Pass}
  {ts : List Job} {ss : List (SourceRoot × SourceFile)} {es : List EntryRef}

/-- What the books do not mention may change. -/
theorem congr {q : Pass} {ss' es'} (account : Account heard before ⟨p, ts, ss, es⟩)
    (log : q.log = p.log) (tracker : q.tracker = p.tracker) (called : q.called = p.called) :
    Account heard before ⟨q, ts, ss', es'⟩ := by
  obtain ⟨faithful, distinct, finished, calls⟩ := account
  exact ⟨log ▸ faithful, tracker ▸ distinct, by rw [tracker, log]; exact finished,
    by rw [tracker, called]; exact calls⟩

theorem skip {q : Pass} {u : UnitId} {reason : String} (account : Account heard before ⟨p, ts, ss, es⟩)
    (log : q.log = p.log.addSkipped u.logical reason) (tracker : q.tracker = p.tracker)
    (called : q.called = p.called) : Account heard before ⟨q, ts, ss, es⟩ := by
  obtain ⟨faithful, distinct, finished, calls⟩ := account
  refine ⟨log ▸ p.log.faithful_addSkipped faithful _ _, tracker ▸ distinct, ?_,
    by rw [tracker, called]; exact calls⟩
  rw [tracker, log]
  simpa [finals, Event.isFinal] using finished

theorem begin {c : Candidate} {goal : Destination} {archives : Archives}
    (account : Account heard before ⟨p, ts, ss, es⟩) (fresh : p.tracker.has c.unit = false) :
    Account heard before ⟨{ p with archives, tracker := (p.tracker.mark c.unit).2 },
      ⟨c, goal, none⟩ :: ts, ss, es⟩ := by
  obtain ⟨faithful, distinct, finished, calls, called, once, known⟩ := account
  have absent := Tracker.digest_fresh fresh
  refine ⟨faithful, ?_, ?_, calls, called, ?_, ?_⟩
  · simp only [Tracker.mark_fresh fresh, List.map_append, List.map_cons, List.map_nil]
    exact List.nodup_append.mpr ⟨distinct, List.nodup_singleton _, by
      intro d old e new
      rw [List.mem_singleton.mp new]
      rintro rfl
      exact absent old⟩
  · simp only [Tracker.mark_fresh fresh, List.map_append, List.map_cons, List.map_nil]
    exact (finished.append_right [c.unit.logical]).trans
      ((List.perm_append_singleton ..).trans List.perm_middle.symm)
  · exact List.nodup_middle.mpr (List.nodup_cons.mpr ⟨fun member => absent (known member), once⟩)
  · simp only [Tracker.mark_fresh fresh, List.map_append, List.map_cons, List.map_nil]
    intro d member
    rcases List.mem_cons.mp (List.perm_middle.subset member) with rfl | old
    · simp
    · exact List.mem_append_left _ (known old)

/-- The innermost job ends in an event. -/
theorem finish {q : Pass} {t : Job} {e : Event} (account : Account heard before ⟨p, t :: ts, ss, es⟩)
    (faithful : q.log.Faithful heard) (log : q.log.events = p.log.events ++ [e])
    (final : e.isFinal = true) (unit : e.unit = t.candidate.unit.logical)
    (tracker : q.tracker = p.tracker) (called : q.called = p.called) :
    Account heard before ⟨q, ts, ss, es⟩ := by
  obtain ⟨_, distinct, finished, calls, all, once, known⟩ := account
  have fewer : (waiting ts).Sublist (waiting (t :: ts)) :=
    ((List.sublist_cons_self t ts).filter _).map _
  have less := fewer.append_left (calls.map (·.unit.digest))
  refine ⟨faithful, tracker ▸ distinct, ?_, calls, called.trans all, once.sublist less, ?_⟩
  · rw [tracker, log, finals_append]
    have here : finals [e] = [e] := by simp [finals, final]
    simpa [here, unit] using finished
  · rw [tracker]
    exact fun d member => known (less.subset member)

theorem call {c : Candidate} {goal : Destination} {content : ByteArray} {archives : Archives}
    {s : Session} (account : Account heard before ⟨p, ⟨c, goal, none⟩ :: ts, ss, es⟩) :
    Account heard before ⟨{ p with archives, called := p.called ++ [⟨c.unit, c.origin, content⟩] },
      ⟨c, goal, some s⟩ :: ts, ss, es⟩ := by
  obtain ⟨faithful, distinct, finished, calls, called, once, known⟩ := account
  refine ⟨faithful, distinct, finished, calls ++ [⟨c.unit, c.origin, content⟩], ?_, ?_, ?_⟩
  · simp only at called
    simp [called]
  · simpa [waiting] using once
  · simpa [waiting] using known

theorem move {m next : Stage} (account : Account heard before m) (move : Move plan points m next) :
    Account heard before next := by
  cases move with
  | check | search | list | unpack | replace => exact account.congr rfl rfl rfl
  | pass | yield | keep => exact account.skip rfl rfl rfl
  | begin _ fresh => exact account.begin fresh
  | @unread p c _ _ _ _ e _ _ =>
    exact account.finish (p.log.faithful_addError account.log _ _ _)
      (p.log.events_addError c.unit.logical e.message _) rfl rfl rfl rfl
  | call => exact account.call
  | @reject p c _ _ _ _ _ e _ =>
    exact account.finish (p.log.faithful_addError account.log _ _ _)
      (p.log.events_addError c.unit.logical e.message _) rfl rfl rfl rfl
  | @deliver p c goal _ _ _ _ artifact _ =>
    rcases p.deliver_cases plan c goal artifact with ⟨e, _, _, h⟩ | ⟨_, _, h⟩
    · rw [h]
      exact account.finish (p.log.faithful_addError account.log _ _ _)
        (p.log.events_addError c.unit.logical e.message _) rfl rfl rfl rfl
    · rw [h]
      exact account.finish (p.log.faithful_addCompiled account.log _ _)
        (p.log.events_addCompiled c.unit.logical c.name) rfl rfl rfl rfl

theorem after {m last : Stage} (account : Account heard before m) (course : Course plan points m last) :
    Account heard before last := course.invariant _ (fun _ _ account move => account.move move) account

theorem opening (b : Builder) (env : Environment) (heard : Bool) (d : Disk)
    (called : List UnitSource) (ss : List (SourceRoot × SourceFile)) (es : List EntryRef) :
    Account heard called ⟨b.opening env heard d called, [], ss, es⟩ :=
  ⟨Log.faithful_start heard, by simp [Builder.opening, Tracker.empty],
    by simp [Builder.opening, Tracker.empty, Log.start, finals],
    [], by simp [Builder.opening], by simp [waiting], by simp [waiting]⟩

theorem fill (b : Builder) (env : Environment) (heard : Bool) (cancel : Cancel) (d : Disk)
    (called : List UnitSource) : ∃ ss es,
    Account heard called ⟨b.fill env heard cancel d called, [], ss, es⟩ := by
  obtain ⟨ss, es, _, course⟩ := b.closing_leads env heard cancel d called [] []
  have account := (opening b env heard d called [] []).after course
  rw [b.fill_eq, Pass.carryOver_rest]
  generalize b.closing env heard cancel d called = q at account ⊢
  exact ⟨ss, es, account.congr rfl rfl rfl⟩

/-- When nothing is in hand, the events that end a unit are about the units taken up. -/
theorem finals_perm (account : Account heard before ⟨p, [], ss, es⟩) :
    (p.tracker.units.map (·.logical)).Perm ((finals p.log.events).map (·.unit)) := by
  simpa using account.finished

theorem finals_distinct (account : Account heard before ⟨p, [], ss, es⟩) :
    ((finals p.log.events).map fun e => e.identity.digest).Nodup := by
  have digests : p.tracker.units.map (·.digest) =
      (p.tracker.units.map (·.logical)).map fun logical => (UnitId.ofLogical logical).digest := by
    rw [List.map_map]
    exact List.map_congr_left fun u _ => u.digest_eq
  have once := account.distinct
  simp only [digests] at once
  have same := (account.finals_perm.map fun logical => (UnitId.ofLogical logical).digest).nodup_iff
  have last := same.mp once
  rwa [List.map_map] at last

end Account

namespace Builder

variable {b : Builder} {env : Environment} {heard : Bool} {cancel : Cancel} {s s' : Site}
  {summary : Summary}

theorem compile_finals (built : b.compile env heard cancel s = (.ok summary, s')) :
    ((finals summary.events).map fun e => e.identity.digest).Nodup := by
  rcases compile_cases built with ⟨rfl, _, _⟩ | ⟨d, _, rfl, _, _⟩
  · simp [finals]
  · obtain ⟨ss, es, account⟩ := Account.fill b env heard cancel d s.called
    exact account.finals_distinct

theorem compile_resolved (built : b.compile env heard cancel s = (.ok summary, s')) :
    summary.resolved.Perm ((finals summary.events).map (·.unit)) := by
  rcases compile_cases built with ⟨rfl, _, _⟩ | ⟨d, _, rfl, _, _⟩
  · simp [finals]
  · obtain ⟨ss, es, account⟩ := Account.fill b env heard cancel d s.called
    exact (Tracker.names_perm _).trans account.finals_perm

/-- A project of one root and generated sources, whose compiler follows their lines. -/
def sampleConfig : Config :=
  ⟨"p", "", { generated := "gen" }, none, {}, none, [], []⟩

def sample : Builder := ⟨.resolve ⟨"/p"⟩ sampleConfig, Scripted.service, .absent⟩

/-- A project with nothing but some files, where the cache is to be filled. -/
def siteOf (files : List (String × String)) : Site := ⟨.ofFiles files, .preset true, []⟩

theorem sound_siteOf (files : List (String × String)) : (siteOf files).disk.Sound :=
  (Disk.changes_ofFiles files).sound

theorem plain_siteOf (files : List (String × String)) (p : Path) : (siteOf files).disk.Plain p :=
  Disk.plain_ofFiles files p

def zeros (n : Nat) : String := String.ofList (List.replicate n (Char.ofNat 0))

/-- An archive of one source, which is empty. -/
def jarText : String :=
  "PK\x03\x04\x14" ++ zeros 21 ++ "\x05" ++ zeros 3 ++ "B.php" ++
  "PK\x01\x02\x14" ++ zeros 1 ++ "\x14" ++ zeros 21 ++ "\x05" ++ zeros 17 ++ "B.php" ++
  "PK\x05\x06" ++ zeros 4 ++ "\x01" ++ zeros 1 ++ "\x01" ++ zeros 1 ++ "3" ++ zeros 3 ++ "#" ++
  zeros 5

def sampleFiles : List (String × String) :=
  [("/p/src/Main.php", "use app/Gen\nuse Bad\n"), ("/p/src/Bad.php", "fail\n"),
    ("/p/gen/app/Gen.php", "gen")]

/-- One unit asks for a generated one and for one that is rejected. -/
def sampleSite : Site := siteOf sampleFiles

/-- What a build of the sample settles and saves, read off one run. -/
theorem sample_settled : (sample.cache.ensureFolder sampleSite.disk).1.toOption = some () ∧
    (sample.settled .prod true .never sampleSite).cancelled = false ∧
    (sample.settled .prod true .never sampleSite).log.compiled = 2 ∧
    (sample.settled .prod true .never sampleSite).log.errors = 1 ∧
    (sample.settled .prod true .never sampleSite).log.events.any (·.outcome == .compiled) = true ∧
    (sample.settled .prod true .never sampleSite).archives.paths = [] ∧
    ((sample.settled .prod true .never sampleSite).called.map fun u => Utf8.decodeLossy u.content) =
      ["fail\n", "use app/Gen\nuse Bad\n", "gen"] ∧
    (sample.previous sampleSite).isNone = true ∧
    ((sample.filled .prod true .never sampleSite).save (sample.settled .prod true .never sampleSite).disk
      sample.layout.cache).1.toOption = some () ∧
    (((sample.filled .prod true .never sampleSite).save (sample.settled .prod true .never sampleSite).disk
      sample.layout.cache).2.entries.pairs.map (·.1)) =
      [["p"], ["p", "gen"], ["p", "gen", ".strata-manifest.json"], ["p", "gen", "Main.phb"],
        ["p", "gen", "app"], ["p", "gen", "app", "Gen.phb"], ["p", "src"], ["p", "src", "Bad.php"],
        ["p", "src", "Main.php"]] := by
  decide +kernel

theorem sample_runs : ∃ summary s', sample.compile .prod true .never sampleSite = (.ok summary, s') ∧
    summary.ran = true ∧ summary.cancelled = false := by
  obtain ⟨summary, s', built, ran, cancelled, _⟩ :=
    @compile_runs sample .prod true .never sampleSite rfl sample_settled.1
  exact ⟨summary, s', built, ran, cancelled.trans sample_settled.2.1⟩

end Builder
end LayerCache
