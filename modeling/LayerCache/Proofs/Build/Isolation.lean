import LayerCache.Proofs.Build.Foresight

/-! What the failure of one unit does to a build: nothing but what it does to the unit itself. Two
compilers that differ in one unit only, which one of them fails on after it has asked the same, make
two builds that take up the same units in the same order and agree on all others. -/
namespace LayerCache

open Disk

namespace Session

/-- How a conversation has ended, if it has. -/
def closed : Session → Option (Except CompileError ByteArray)
  | finish artifact => some (.ok artifact)
  | fail e => some (.error e)
  | breakdown b => some (.error (.panicked b.message))
  | _ => none

/-- A conversation that asks what another one asks, and in the end fails. -/
inductive Spoils : Session → Session → Prop where
  | ends {s s' result e} (first : s.closed = some result) (second : s'.closed = some (.error e)) :
      Spoils s s'
  | resolve (symbol : String) {next next'} (goes : ∀ found, Spoils (next found) (next' found)) :
      Spoils (resolve symbol next) (resolve symbol next')

theorem run_closed {σ : Type} {answer : String → σ → Bool × σ} {disk : σ → Disk}
    {setDisk : Disk → σ → σ} {s : Session} {result : Except CompileError ByteArray}
    (closed : s.closed = some result) (p : σ) : s.run answer disk setDisk p = (result, p) := by
  cases s with
  | finish | fail | breakdown =>
    cases closed
    rfl
  | resolve | look | replace => cases closed

theorem quiet_closed {s : Session} {result : Except CompileError ByteArray}
    (closed : s.closed = some result) : s.Quiet := by
  cases s with
  | finish | fail | breakdown => trivial
  | resolve | look | replace => cases closed

namespace Spoils

variable {s s' : Session}

theorem quiet (spoils : Spoils s s') : s'.Quiet := by
  induction spoils with
  | ends _ second => exact quiet_closed second
  | resolve _ _ ih => exact ih

theorem fails (spoils : Spoils s s') (artifact : ByteArray) : ¬ s'.Ends (.ok artifact) := by
  induction spoils with
  | @ends _ s' _ _ _ second =>
    intro ends
    cases s' with
    | finish => cases second
    | fail | breakdown => cases ends
    | resolve | look | replace => cases second
  | resolve _ _ ih =>
    intro ends
    cases ends with
    | resolve ends => exact ih _ ends

end Spoils

end Session

/-- Another compiler that is spoiled for one unit. -/
structure Service.Spoiled (u : UnitId) (service other : Service) : Prop where
  same : ∀ n source, (source.unit == u) = false → other n source = service n source
  spoils : ∀ n source, (source.unit == u) = true → (service n source).Spoils (other n source)

theorem Service.Spoiled.quiet {u : UnitId} {service other : Service}
    (spoiled : service.Spoiled u other) (quiet : service.Quiet) : other.Quiet := by
  intro n source
  rcases unit : source.unit == u with _ | _
  · exact spoiled.same n source unit ▸ quiet n source
  · exact (spoiled.spoils n source unit).quiet

/-- The conversation that goes on in the same way and fails in the end. -/
def Session.spoil (e : CompileError) : Session → Session
  | .resolve symbol next => .resolve symbol fun found => (next found).spoil e
  | .look next => .look next
  | .replace d next => .replace d next
  | _ => .fail e

theorem Session.spoils_spoil (e : CompileError) {s : Session} (quiet : s.Quiet) :
    s.Spoils (s.spoil e) := by
  induction s with
  | finish | fail | breakdown => exact .ends rfl rfl
  | resolve symbol next ih => exact .resolve symbol fun found => ih found (quiet found)
  | look | replace => cases quiet

def Service.spoil (service : Service) (u : UnitId) (e : CompileError) : Service := fun n source =>
  if source.unit == u then (service n source).spoil e else service n source

/-- Any compiler that leaves files alone can be spoiled for any unit. -/
theorem Service.spoiled_spoil {service : Service} (quiet : service.Quiet) (u : UnitId)
    (e : CompileError) : service.Spoiled u (service.spoil u e) where
  same n source other := by simp [Service.spoil, other]
  spoils n source own := by
    simp only [Service.spoil, own, if_true]
    exact Session.spoils_spoil e (quiet n source)

/-- A place that belongs to a unit: where its artifact goes, or where a generated source of it is. -/
inductive Plan.Owns (plan : Plan) (d : Disk) (u : UnitId) : Place → Prop where
  | cached {v} (same : (v == u) = true) (tidy : v.Tidy) : Owns plan d u (plan.cache.placeFor d v)
  | beside {root front name head old} (known : root ∈ plan.roots.roots)
      (generated : root.generated = true) (holds : plan.roots.Holds d root (front ++ [name]))
      (parts : Path.Extends name head old) (alike : Text.sameIgnoringCase old plan.roots.ending = true)
      (same : ((plan.roots.below root (front ++ [name])).unit == u) = true) :
      Owns plan d u (d.placeOf root.path ++ (front ++ [head ++ "." ++ plan.cache.ending]))
  | source {root names} (known : root ∈ plan.roots.roots) (generated : root.generated = true)
      (holds : plan.roots.Holds d root names)
      (same : ((plan.roots.below root names).unit == u) = true) :
      Owns plan d u (d.placeOf root.path ++ names)

section

variable {plan : Plan} {points : List String} {archives : Archives} {before : Disk} {heard : Bool}
  {earlier : List UnitSource} {u : UnitId} {m next : Stage} {p q : Pass}

/-- Where the artifact of a unit goes is a place of the unit. -/
theorem Job.Goes.owned {t : Job} {place : Place} (proper : plan.Proper) (goes : t.Goes plan before place)
    (lawful : t.Lawful plan) (known : t.candidate.Known plan before archives)
    (same : (t.candidate.unit == u) = true) : plan.Owns before u place := by
  cases goes with
  | cached => exact .cached same lawful.tidy
  | beside declared generated named parts alike source =>
    rw [source] at known same
    exact .beside declared generated (known.holds proper declared named) parts alike same

theorem Job.Lawful.source_owned {t : Job} {place : Place} (lawful : t.Lawful plan) (proper : plan.Proper)
    (known : t.candidate.Known plan before archives) (same : (t.candidate.unit == u) = true)
    (taken : t.source? before = some place) : plan.Owns before u place := by
  unfold Job.source? at taken
  split at taken
  · rename_i path rank file goal origin
    obtain ⟨root, declared, generated, names, carries, source, _⟩ := lawful.beside path goal
    rw [source] at known same origin
    have holds := known.holds proper declared carries.proper
    rw [Candidate.origin_ofSource, Origin.root.injEq] at origin
    obtain rfl := Option.some.inj taken
    rw [← origin.2, Roots.path_below, placeOf_joinRelative carries.proper]
    exact .source declared generated holds same
  · cases taken

/-- A source of another unit lies at no place of the unit. -/
theorem Plan.Grounded.not_owns (ground : plan.Grounded before) {root : SourceRoot}
    (known : root ∈ plan.roots.roots) {names : List String} (holds : plan.roots.Holds before root names)
    (other : ((plan.roots.below root names).unit == u) = false) :
    ¬ plan.Owns before u (before.placeOf root.path ++ names) := by
  have proper := ground.proper
  have source : Carries plan.roots.ending (before.placeOf root.path ++ names) :=
    holds.1.append (ground.sound.names holds.there)
  generalize place : before.placeOf root.path ++ names = target at source
  intro owns
  cases owns with
  | cached _ tidy =>
    exact ArtifactCache.not_carries_placeFor proper.artifact proper.differ before tidy source
  | @beside root' front name head old =>
    exact @not_isArtifactIn before _ _ root'.path _ proper.artifact proper.differ source
      ⟨front, _, rfl, head, plan.cache.ending, rfl, Text.sameIgnoringCase_self _⟩
  | source declared _ _ same =>
    obtain rfl := ground.orderly.names_eq known declared place
    rw [Roots.unit_below] at other same
    rw [same] at other
    cases other

/-- An event that is not about a unit. -/
def Event.isBut (u : UnitId) (e : Event) : Bool := !(e.identity == u)

/-- Two builds agree on all that is not about one unit. -/
structure AgreesBut (plan : Plan) (before : Disk) (u : UnitId) (p q : Pass) : Prop where
  tracker : q.tracker = p.tracker
  called : q.called = p.called
  events : q.log.events.filter (·.isBut u) = p.log.events.filter (·.isBut u)
  records : ∀ logical, (UnitId.ofLogical logical == u) = false →
    q.manifest.units.find? logical = p.manifest.units.find? logical
  read : ∀ place, ¬ plan.Owns before u place → q.disk.readAt place = p.disk.readAt place

namespace AgreesBut

theorem refl (p : Pass) : AgreesBut plan before u p p :=
  ⟨rfl, rfl, rfl, fun _ _ => rfl, fun _ _ => rfl⟩

theorem learnt (agrees : AgreesBut plan before u p q) (known known' : Archives) :
    AgreesBut plan before u { p with archives := known } { q with archives := known' } :=
  { agrees with }

theorem checked_left (agrees : AgreesBut plan before u p q) (asked : Plan) :
    AgreesBut plan before u (p.check asked).2 q := { agrees with }

theorem checked_right (agrees : AgreesBut plan before u p q) (asked : Plan) :
    AgreesBut plan before u p (q.check asked).2 := { agrees with }

/-- Both builds tell the same of a unit. -/
theorem told (agrees : AgreesBut plan before u p q) (log log' : Log) (events : List Event)
    (first : log.events = p.log.events ++ events) (second : log'.events = q.log.events ++ events) :
    AgreesBut plan before u { p with log } { q with log := log' } :=
  { agrees with events := by simp only [first, second, List.filter_append, agrees.events] }

theorem filter_own {v : UnitId} (same : (v == u) = true) (events : List Event) (outcome : Outcome)
    (message : String) : (events ++ [(⟨v.logical, outcome, message⟩ : Event)]).filter (·.isBut u) =
      events.filter (·.isBut u) := by
  have own : Event.isBut u ⟨v.logical, outcome, message⟩ = false := by
    rw [Event.isBut, Event.identity_logical, same]
    rfl
  rw [List.filter_append, List.filter_cons_of_neg (by simp [own]), List.filter_nil, List.append_nil]

/-- One of them fails on the unit they differ in, -/
theorem fail_left (agrees : AgreesBut plan before u p q) {c : Candidate} (same : (c.unit == u) = true)
    (message : String) (line : Option Nat) : AgreesBut plan before u (p.fail c message line) q :=
  { agrees with
    events := by rw [Pass.fail, Log.events_addError, filter_own same, agrees.events] }

theorem fail_right (agrees : AgreesBut plan before u p q) {c : Candidate} (same : (c.unit == u) = true)
    (message : String) (line : Option Nat) : AgreesBut plan before u p (q.fail c message line) :=
  { agrees with
    events := by rw [Pass.fail, Log.events_addError, filter_own same, agrees.events] }

/-- or passes over it. -/
theorem skip_left (agrees : AgreesBut plan before u p q) {v : UnitId} (same : (v == u) = true)
    (reason : String) : AgreesBut plan before u (p.skip v reason) q :=
  { agrees with
    events := by rw [Pass.skip, Log.events_addSkipped, filter_own same, agrees.events] }

theorem skip_right (agrees : AgreesBut plan before u p q) {v : UnitId} (same : (v == u) = true)
    (reason : String) : AgreesBut plan before u p (q.skip v reason) :=
  { agrees with
    events := by rw [Pass.skip, Log.events_addSkipped, filter_own same, agrees.events] }

theorem fail (agrees : AgreesBut plan before u p q) (c : Candidate) (message : String)
    (line : Option Nat) : AgreesBut plan before u (p.fail c message line) (q.fail c message line) :=
  agrees.told _ _ _ (p.log.events_addError _ _ _) (q.log.events_addError _ _ _)

theorem skip (agrees : AgreesBut plan before u p q) (v : UnitId) (reason : String) :
    AgreesBut plan before u (p.skip v reason) (q.skip v reason) :=
  agrees.told _ _ _ (p.log.events_addSkipped _ _) (q.log.events_addSkipped _ _)

theorem record (agrees : AgreesBut plan before u p q) (v : UnitId) (origin : Origin)
    (artifact : ByteArray) :
    AgreesBut plan before u (p.record v origin artifact) (q.record v origin artifact) :=
  { agrees with
    records := fun logical differ => by
      simp only [Pass.record, Manifest.record, Dict.find?_insert, agrees.records logical differ] }

/-- Files on neither side were changed. -/
theorem setDisk (agrees : AgreesBut plan before u p q) {d d' : Disk}
    (first : ∀ place, d.leafAt place = p.disk.leafAt place)
    (second : ∀ place, d'.leafAt place = q.disk.leafAt place) :
    AgreesBut plan before u (p.setDisk d) (q.setDisk d') :=
  { agrees with
    read := fun place outside => by
      rw [Pass.setDisk, Pass.setDisk, readAt_congr (first place), readAt_congr (second place)]
      exact agrees.read place outside }

variable {other : Service} (ahead : plan.Foreseeable archives before)
  (ahead' : (plan.withService other).Foreseeable archives before)

include ahead in
/-- A delivery of the unit they differ in is of no consequence for the others. -/
theorem deliver_left (agrees : AgreesBut plan before u p q) {c : Candidate} {goal : Destination}
    {s : Option Session} {ts : List Job} {ss : List (SourceRoot × SourceFile)} {es : List EntryRef}
    (first : Foreseen plan archives before heard earlier ⟨p, ⟨c, goal, s⟩ :: ts, ss, es⟩)
    (same : (c.unit == u) = true) (artifact : ByteArray) :
    AgreesBut plan before u (p.deliver plan c goal artifact) q := by
  rcases first.delivered ahead rfl artifact with ⟨e, d, _, ends, kept⟩ | ⟨_, goes, d, ends, now⟩ <;>
    simp only at ends <;> rw [ends]
  · exact (agrees.setDisk kept fun _ => rfl).fail_left same e.message none
  · refine { agrees with events := ?_, records := ?_, read := fun place outside => ?_ }
    · simp only [Log.events_addCompiled, filter_own same, agrees.events]
    · intro logical differ
      have apart : c.unit.logical ≠ logical := by
        rintro rfl
        rw [UnitId.ofLogical_logical, same] at differ
        cases differ
      simp only [Pass.record, Manifest.record, Dict.find?_insert, if_neg apart, agrees.records logical differ]
    · have lawful := first.frame.jobs ⟨c, goal, s⟩ (by simp)
      have known := first.known (t := ⟨c, goal, s⟩) (by simp)
      simp only [now]
      rw [if_neg, if_neg]
      · exact agrees.read place outside
      · exact fun taken => outside (lawful.source_owned ahead.ground.proper known same taken)
      · rintro rfl
        exact outside (goes.owned ahead.ground.proper lawful known same)

include ahead ahead' in
/-- An artifact of another unit is delivered alike. -/
theorem deliver (agrees : AgreesBut plan before u p q) {c : Candidate} {goal : Destination}
    {s s' : Option Session} {ts ts' : List Job} {ss ss' : List (SourceRoot × SourceFile)}
    {es es' : List EntryRef}
    (first : Foreseen plan archives before heard earlier ⟨p, ⟨c, goal, s⟩ :: ts, ss, es⟩)
    (second : Foreseen (plan.withService other) archives before heard earlier
      ⟨q, ⟨c, goal, s'⟩ :: ts', ss', es'⟩) (artifact : ByteArray) :
    AgreesBut plan before u (p.deliver plan c goal artifact)
      (q.deliver (plan.withService other) c goal artifact) := by
  rcases first.delivered ahead rfl artifact with ⟨e, d, failed, ends, kept⟩ | ⟨ok, _, d, ends, now⟩ <;>
    rcases second.delivered ahead' rfl artifact with
      ⟨e', d', failed', ends', kept'⟩ | ⟨ok', _, d', ends', now'⟩ <;>
    simp only at ends ends' <;> rw [ends, ends']
  · obtain rfl : e = e' := Except.error.inj (failed.symm.trans failed')
    exact (agrees.setDisk kept kept').fail c e.message none
  · cases failed.symm.trans ok'
  · cases ok.symm.trans failed'
  · have booked := (agrees.record c.unit c.origin artifact).told _ _ _
      (p.log.events_addCompiled c.unit.logical c.name) (q.log.events_addCompiled c.unit.logical c.name)
    refine { booked with read := fun place outside => ?_ }
    have target : Job.target (plan.withService other) before ⟨c, goal, s'⟩ =
        Job.target plan before ⟨c, goal, s⟩ := rfl
    have source : Job.source? before ⟨c, goal, s'⟩ = Job.source? before ⟨c, goal, s⟩ := rfl
    simp only [now, now', target, source]
    split
    · rfl
    split
    · rfl
    · exact agrees.read place outside

end AgreesBut

theorem Pass.unlessStopped_calm (endless : plan.cancel = .never) (calm : p.cancelled = false)
    (work : Pass → Pass) : p.unlessStopped plan work = work (p.check plan).2 := by
  have goes : (p.check plan).1 = false := by simp [Pass.check, endless, Cancel.never, calm]
  simp only [Pass.unlessStopped, goes, Bool.false_eq_true, if_false]

theorem Pass.takeSource_fresh {depth : Nat} {f : SourceFile} {winner : Option SourceFile}
    (fresh : p.tracker.has f.unit = false) : plan.roots.resolve p.disk f.unit = winner →
    p.takeSource plan depth f = match winner with
      | some winner =>
        if winner.rank < f.rank then p.skip f.unit ("shadowed by root " ++ toString winner.rank)
        else p.take plan depth (.ofSource f) .cache
      | none => p.take plan depth (.ofSource f) .cache := by
  intro found
  cases winner <;> simp only [takeSource, fresh, found, Bool.false_eq_true, if_false]

theorem Pass.takeSource_tracked {depth : Nat} {f : SourceFile} (tracked : p.tracker.has f.unit = true) :
    p.takeSource plan depth f = p.skip f.unit alreadyResolved := by
  simp only [takeSource, tracked, if_true]

theorem Pass.takeEntry_fresh {depth : Nat} {c : Candidate} {cached : Option ByteArray}
    (fresh : p.tracker.has c.unit = false) : plan.cache.read p.disk c.unit = cached →
    p.takeEntry plan depth c = match cached with
      | some artifact => (p.skip c.unit "already cached").record c.unit c.origin artifact
      | none => p.take plan depth c .cache := by
  intro read
  cases cached <;> simp only [takeEntry, fresh, read, Bool.false_eq_true, if_false]

theorem Pass.takeEntry_tracked {depth : Nat} {c : Candidate} (tracked : p.tracker.has c.unit = true) :
    p.takeEntry plan depth c = p.skip c.unit alreadyResolved := by
  simp only [takeEntry, tracked, if_true]

/-- Two walks along lists that differ only in what is of no consequence to either side. -/
theorem foldl_paired {α σ τ : Type} (related : σ → τ → Prop) (keep : α → Bool) {visit : σ → α → σ}
    {visit' : τ → α → τ} {all all' : List α}
    (both : ∀ x ∈ all, x ∈ all' → ∀ s t, related s t → related (visit s x) (visit' t x))
    (left : ∀ x ∈ all, keep x = false → ∀ s t, related s t → related (visit s x) t)
    (right : ∀ x ∈ all', keep x = false → ∀ s t, related s t → related s (visit' t x))
    (same : all.filter keep = all'.filter keep) {s : σ} {t : τ} (start : related s t) :
    related (all.foldl visit s) (all'.foldl visit' t) := by
  have skips : ∀ (more : List α) (s : σ) (t : τ), (∀ x ∈ more, x ∈ all' ∧ keep x = false) →
      related s t → related s (more.foldl visit' t) := by
    intro more
    induction more with
    | nil => exact fun _ _ _ start => start
    | cons x rest ih =>
      intro s t idle start
      obtain ⟨member, other⟩ := idle x List.mem_cons_self
      exact ih s _ (fun y inside => idle y (List.mem_cons_of_mem _ inside)) (right x member other s t start)
  induction all generalizing all' s t with
  | nil =>
    refine skips all' s t (fun x member => ⟨member, ?_⟩) start
    by_contra other
    have inside : x ∈ all'.filter keep := List.mem_filter.mpr ⟨member, by simpa using other⟩
    rw [← same] at inside
    cases inside
  | cons x rest ih =>
    have fewer : ∀ y ∈ rest, y ∈ x :: rest := fun y inside => List.mem_cons_of_mem _ inside
    rcases chosen : keep x with _ | _
    · rw [List.filter_cons_of_neg (by simp [chosen])] at same
      exact ih (fun y inside => both y (fewer y inside)) (fun y inside => left y (fewer y inside)) right same
        (left x List.mem_cons_self chosen s t start) skips
    · rw [List.filter_cons_of_pos chosen] at same
      obtain ⟨front, back, rfl, idle, _, cut⟩ := List.filter_eq_cons_iff.mp same.symm
      have later : ∀ y ∈ back, y ∈ front ++ x :: back := fun y inside => by simp [inside]
      rw [List.foldl_append, List.foldl_cons, List.foldl_cons]
      have met := skips front s t (fun y inside => ⟨by simp [inside], by simpa using idle y inside⟩) start
      refine ih (fun y inside inside' => both y (fewer y inside) (later y inside'))
        (fun y inside => left y (fewer y inside)) (fun y inside => right y (later y inside)) cut.symm
        (both x List.mem_cons_self (by simp) s _ met) ?_
      exact fun more s t idle => skips more s t fun y inside =>
        ⟨later y (idle y inside).1, (idle y inside).2⟩

/-- Two builds with compilers that differ in one unit, at the same point. -/
structure Twins (plan : Plan) (other : Service) (archives : Archives) (before : Disk) (heard : Bool)
    (earlier : List UnitSource) (u : UnitId) (m n : Stage) : Prop where
  first : Foreseen plan archives before heard earlier m
  second : Foreseen (plan.withService other) archives before heard earlier n
  agrees : AgreesBut plan before u m.pass n.pass
  calm : m.pass.cancelled = false ∧ n.pass.cancelled = false

/-- What is the same for two such builds. -/
structure Plan.Paired (plan : Plan) (other : Service) (archives : Archives) (before : Disk)
    (u : UnitId) : Prop where
  ahead : plan.Foreseeable archives before
  ahead' : (plan.withService other).Foreseeable archives before
  endless : plan.cancel = .never
  spoiled : plan.service.Spoiled u other

variable {other : Service}

theorem Plan.Paired.endless' (paired : plan.Paired other archives before u) :
    (plan.withService other).cancel = .never := paired.endless

namespace Twins

variable {n m' n' : Stage}

theorem advance (points : List String) (paired : plan.Paired other archives before u)
    (twins : Twins plan other archives before heard earlier u m n)
    (course : Course plan points m m') (course' : Course (plan.withService other) points n n')
    (agrees : AgreesBut plan before u m'.pass n'.pass) :
    Twins plan other archives before heard earlier u m' n' :=
  ⟨twins.first.after paired.ahead course, twins.second.after paired.ahead' course', agrees,
    course.calm paired.endless twins.calm.1, course'.calm paired.endless' twins.calm.2⟩

section

variable {answer reply : String → Pass → Bool × Pass} {ss ss' : List (SourceRoot × SourceFile)}
  {es es' : List EntryRef}

/-- Questions are answered alike and leave both builds at the same point. -/
def Answer (plan : Plan) (points : List String) (other : Service) (archives : Archives) (before : Disk)
    (heard : Bool) (earlier : List UnitSource) (u : UnitId) (ss ss' : List (SourceRoot × SourceFile))
    (es es' : List EntryRef) (answer reply : String → Pass → Bool × Pass) : Prop :=
  ∀ symbol p q ts ts', plan.Asks points symbol → (plan.withService other).Asks points symbol →
    Twins plan other archives before heard earlier u ⟨p, ts, ss, es⟩ ⟨q, ts', ss', es'⟩ →
      (answer symbol p).1 = (reply symbol q).1 ∧
      Twins plan other archives before heard earlier u ⟨(answer symbol p).2, ts, ss, es⟩
        ⟨(reply symbol q).2, ts', ss', es'⟩

variable (answers : Answer plan points other archives before heard earlier u ss ss' es es' answer reply)

include answers

theorem run {ts ts' : List Job} (s : Session) {p q : Pass} (quiet : s.Quiet)
    (asks : ∀ symbol, s.Asks symbol →
      plan.Asks points symbol ∧ (plan.withService other).Asks points symbol)
    (twins : Twins plan other archives before heard earlier u ⟨p, ts, ss, es⟩ ⟨q, ts', ss', es'⟩) :
    (s.run answer Pass.disk Pass.setDisk p).1 = (s.run reply Pass.disk Pass.setDisk q).1 ∧
      Twins plan other archives before heard earlier u
        ⟨(s.run answer Pass.disk Pass.setDisk p).2, ts, ss, es⟩
        ⟨(s.run reply Pass.disk Pass.setDisk q).2, ts', ss', es'⟩ := by
  induction s generalizing p q with
  | finish | fail | breakdown => exact ⟨rfl, twins⟩
  | resolve symbol next ih =>
    obtain ⟨known, known'⟩ := asks symbol (.now symbol next)
    obtain ⟨found, answered⟩ := answers symbol p q ts ts' known known' twins
    simp only [Session.run, ← found]
    exact ih _ (quiet _) (fun _ asked => asks _ (.resolve asked)) answered
  | look | replace => exact quiet.elim

/-- A conversation that is spoiled goes on as the other one until it fails. -/
theorem run_spoiled {ts ts' : List Job} {s s' : Session} (spoils : s.Spoils s') {p q : Pass}
    (asks : ∀ symbol, s.Asks symbol → plan.Asks points symbol)
    (asks' : ∀ symbol, s'.Asks symbol → (plan.withService other).Asks points symbol)
    (twins : Twins plan other archives before heard earlier u ⟨p, ts, ss, es⟩ ⟨q, ts', ss', es'⟩) :
    (∃ e, (s'.run reply Pass.disk Pass.setDisk q).1 = .error e) ∧
      Twins plan other archives before heard earlier u
        ⟨(s.run answer Pass.disk Pass.setDisk p).2, ts, ss, es⟩
        ⟨(s'.run reply Pass.disk Pass.setDisk q).2, ts', ss', es'⟩ := by
  induction spoils generalizing p q with
  | ends first second =>
    rw [Session.run_closed first, Session.run_closed second]
    exact ⟨⟨_, rfl⟩, twins⟩
  | @resolve symbol next next' _ ih =>
    obtain ⟨found, answered⟩ := answers symbol p q ts ts' (asks _ (.now symbol next))
      (asks' _ (.now symbol next')) twins
    simp only [Session.run, ← found]
    exact ih _ (fun _ asked => asks _ (.resolve asked)) (fun _ asked => asks' _ (.resolve asked)) answered

variable (paired : plan.Paired other archives before u)

include paired

/-- Whatever becomes of a unit, the builds agree on the others. -/
theorem compile {c : Candidate} {goal : Destination} {ts ts' : List Job} {p q : Pass}
    (leads : ∀ symbol p ts, plan.Asks points symbol →
      Course plan points ⟨p, ts, ss, es⟩ ⟨(answer symbol p).2, ts, ss, es⟩)
    (leads' : ∀ symbol q ts', (plan.withService other).Asks points symbol →
      Course (plan.withService other) points ⟨q, ts', ss', es'⟩ ⟨(reply symbol q).2, ts', ss', es'⟩)
    (twins : Twins plan other archives before heard earlier u ⟨p, ⟨c, goal, none⟩ :: ts, ss, es⟩
      ⟨q, ⟨c, goal, none⟩ :: ts', ss', es'⟩) :
    Twins plan other archives before heard earlier u ⟨p.compile plan answer c goal, ts, ss, es⟩
      ⟨q.compile (plan.withService other) reply c goal, ts', ss', es'⟩ := by
  refine twins.advance points paired (Pass.compile_course leads c goal ts p)
    (Pass.compile_course leads' c goal ts' q) ?_
  have load := twins.first.load_same paired.ahead (t := ⟨c, goal, none⟩) (by simp)
  have load' := twins.second.load_same paired.ahead' (t := ⟨c, goal, none⟩) (by simp)
  rcases loaded : p.load c.origin with ⟨result, after⟩
  rcases loaded' : q.load c.origin with ⟨result', after'⟩
  obtain ⟨known, _, rfl⟩ := Pass.load_rest loaded
  obtain ⟨known', _, rfl⟩ := Pass.load_rest loaded'
  simp only [loaded] at load
  simp only [loaded'] at load'
  obtain rfl : result = result' := load.trans load'.symm
  rcases result with e | content
  · simp only [Pass.compile, loaded, loaded']
    exact (twins.agrees.learnt known known').fail c e.message none
  · have begun : Course plan points ⟨p, ⟨c, goal, none⟩ :: ts, ss, es⟩ _ := .of (.call loaded)
    have begun' : Course (plan.withService other) points ⟨q, ⟨c, goal, none⟩ :: ts', ss', es'⟩ _ :=
      .of (.call loaded')
    have called : q.called = p.called := twins.agrees.called
    have spoken := twins.advance points paired begun begun'
      { twins.agrees.learnt known known' with called := congrArg (· ++ [_]) called }
    simp only [Pass.compile, loaded, loaded', Pass.call]
    rcases unit : c.unit == u with _ | _
    · have same : (plan.withService other).service q.called.length ⟨c.unit, c.origin, content⟩ =
          plan.service p.called.length ⟨c.unit, c.origin, content⟩ := by
        rw [called]
        exact paired.spoiled.same _ _ unit
      rw [same] at spoken ⊢
      obtain ⟨ended, done⟩ := run answers _ (paired.ahead.ground.quiet _ _) (fun symbol asked =>
        ⟨.inr ⟨_, _, asked⟩, .inr ⟨_, _, same.symm ▸ asked⟩⟩) spoken
      rcases said : Session.run answer Pass.disk Pass.setDisk (plan.service p.called.length
        ⟨c.unit, c.origin, content⟩) _ with ⟨result, after⟩
      rcases said' : Session.run reply Pass.disk Pass.setDisk (plan.service p.called.length
        ⟨c.unit, c.origin, content⟩) _ with ⟨result', after'⟩
      rw [said, said'] at ended done
      obtain rfl : result = result' := ended
      rcases result with e | artifact
      · exact done.agrees.fail c e.message e.line
      · exact done.agrees.deliver paired.ahead paired.ahead' done.first done.second artifact
    · have spoils : (plan.service p.called.length ⟨c.unit, c.origin, content⟩).Spoils
          ((plan.withService other).service p.called.length ⟨c.unit, c.origin, content⟩) :=
        paired.spoiled.spoils _ _ unit
      rw [called] at spoken ⊢
      obtain ⟨⟨e', failed⟩, done⟩ := run_spoiled answers spoils (fun symbol asked => .inr ⟨_, _, asked⟩)
        (fun symbol asked => .inr ⟨_, _, asked⟩) spoken
      rcases said : Session.run answer Pass.disk Pass.setDisk (plan.service p.called.length
        ⟨c.unit, c.origin, content⟩) _ with ⟨result, after⟩
      rcases said' : Session.run reply Pass.disk Pass.setDisk ((plan.withService other).service
        p.called.length ⟨c.unit, c.origin, content⟩) _ with ⟨result', after'⟩
      rw [said'] at failed
      rw [said, said'] at done
      obtain rfl : result' = .error e' := failed
      rcases result with e | artifact
      · exact (done.agrees.fail_left unit e.message e.line).fail_right unit e'.message e'.line
      · exact (done.agrees.deliver_left paired.ahead done.first unit artifact).fail_right unit
          e'.message e'.line

end

variable (paired : plan.Paired other archives before u) {ss ss' : List (SourceRoot × SourceFile)}
  {es es' : List EntryRef}

include paired

/-- A unit that is offered to both builds is taken up by both or by none. -/
theorem taken {c : Candidate} {goal : Destination} {known known' : Archives} {p q : Pass}
    {ts ts' : List Job} {depth : Nat}
    (answers : Answer plan points other archives before heard earlier u ss ss' es es'
      (Pass.resolve plan depth) (Pass.resolve (plan.withService other) depth))
    (offer : Offer plan points ⟨p, ts, ss, es⟩ c goal known)
    (offer' : Offer (plan.withService other) points ⟨q, ts', ss', es'⟩ c goal known')
    (fresh : p.tracker.has c.unit = false)
    (twins : Twins plan other archives before heard earlier u ⟨p, ts, ss, es⟩ ⟨q, ts', ss', es'⟩) :
    Twins plan other archives before heard earlier u
      ⟨Pass.compile plan (Pass.resolve plan depth) c goal
        { p with archives := known, tracker := (p.tracker.mark c.unit).2 }, ts, ss, es⟩
      ⟨Pass.compile (plan.withService other) (Pass.resolve (plan.withService other) depth) c goal
        { q with archives := known', tracker := (q.tracker.mark c.unit).2 }, ts', ss', es'⟩ := by
  have tracker : q.tracker = p.tracker := twins.agrees.tracker
  have begun := twins.advance points paired (.of (.begin offer fresh)) (.of (.begin offer' (tracker ▸ fresh)))
    { twins.agrees.learnt known known' with
      tracker := congrArg (fun tracker => (tracker.mark c.unit).2) tracker }
  exact compile answers paired (fun symbol p ts => Pass.resolve_course depth symbol p ts)
    (fun symbol q ts' => Pass.resolve_course depth symbol q ts') begun

theorem resolve (depth : Nat) : Answer plan points other archives before heard earlier u ss ss' es es'
    (Pass.resolve plan depth) (Pass.resolve (plan.withService other) depth) := by
  induction depth with
  | zero =>
    intro symbol p q ts ts' asked asked' twins
    have tracker : q.tracker = p.tracker := twins.agrees.tracker
    exact ⟨by simp only [Pass.resolve, tracker], twins⟩
  | succ depth ih =>
    intro symbol p q ts ts' asked asked' twins
    have tracker : q.tracker = p.tracker := twins.agrees.tracker
    have course : Course plan points ⟨p, ts, ss, es⟩ _ := Pass.resolve_course (depth + 1) symbol p ts asked
    have course' : Course (plan.withService other) points ⟨q, ts', ss', es'⟩ _ :=
      Pass.resolve_course (depth + 1) symbol q ts' asked'
    suffices both : (Pass.resolve plan (depth + 1) symbol p).1 =
          (Pass.resolve (plan.withService other) (depth + 1) symbol q).1 ∧
        AgreesBut plan before u (Pass.resolve plan (depth + 1) symbol p).2
          (Pass.resolve (plan.withService other) (depth + 1) symbol q).2 by
      generalize Pass.resolve plan (depth + 1) symbol p = one at both course ⊢
      generalize Pass.resolve (plan.withService other) (depth + 1) symbol q = two at both course' ⊢
      exact ⟨both.1, twins.advance points paired course course' both.2⟩
    clear course course'
    simp only [Pass.resolve, tracker]
    split
    · exact ⟨rfl, twins.agrees⟩
    rename_i named
    split
    · exact ⟨rfl, twins.agrees⟩
    rename_i fresh
    simp only [Bool.not_eq_true] at named fresh
    have filled := UnitId.filled_of_ofSymbol named
    have sought := twins.first.locate_same paired.ahead (UnitId.tidy_ofSymbol symbol) filled fresh
    have sought' := twins.second.locate_same paired.ahead' (UnitId.tidy_ofSymbol symbol) filled
      (tracker ▸ fresh)
    have rest := Pass.locate_rest plan (.ofSymbol symbol) p
    have rest' := Pass.locate_rest (plan.withService other) (.ofSymbol symbol) q
    rcases located : p.locate plan (.ofSymbol symbol) with ⟨found, after⟩
    rcases located' : q.locate (plan.withService other) (.ofSymbol symbol) with ⟨found', after'⟩
    rw [located] at rest
    rw [located'] at rest'
    simp only [located] at sought
    simp only [located', Plan.provider_withService] at sought'
    obtain rfl : found = found' := sought.trans sought'.symm
    obtain ⟨known, rfl⟩ : ∃ known, after = { p with archives := known } := by
      rcases rest with rfl | rfl
      · exact ⟨_, rfl⟩
      · exact ⟨_, rfl⟩
    obtain ⟨known', rfl⟩ : ∃ known, after' = { q with archives := known } := by
      rcases rest' with rfl | rfl
      · exact ⟨_, rfl⟩
      · exact ⟨_, rfl⟩
    rcases found with _ | c
    · exact ⟨rfl, twins.agrees.learnt known known'⟩
    by_cases tracked : p.tracker.has c.unit = true
    · simpa [Tracker.mark, tracked, tracker] using twins.agrees.learnt known known'
    · have new : p.tracker.has c.unit = false := by simpa using tracked
      have offer : Offer plan points ⟨p, ts, ss, es⟩ c (plan.destination c.origin) known :=
        .asked symbol asked named fresh located
      have offer' : Offer (plan.withService other) points ⟨q, ts', ss', es'⟩ c
          (plan.destination c.origin) known' := .asked symbol asked' named (tracker ▸ fresh) located'
      have done := (taken paired ih offer offer' new twins).agrees
      simpa [Tracker.mark, new, tracker, Plan.destination_withService] using done

/-- Both builds list the same sources of a root, but for those of the unit they differ in. -/
theorem listed (twins : Twins plan other archives before heard earlier u m n) {root : SourceRoot}
    (known : root ∈ plan.roots.roots) (keep : SourceFile → Bool)
    (others : ∀ f, keep f = true → (f.unit == u) = true → m.pass.tracker.has u = false) :
    (plan.roots.sweep n.pass.disk root).filter keep = (plan.roots.sweep m.pass.disk root).filter keep := by
  have ground := paired.ahead.ground
  have change := twins.first.frame.changes
  have change' := twins.second.frame.changes
  have plain := ground.orderly.plain root known
  rcases opened : before.isFolder root.path with _ | _
  · rw [twins.first.listed_opened paired.ahead known opened]
    exact congrArg _ (twins.second.listed_opened paired.ahead' known opened)
  have kept := @filesWithExtension_filter _ _ _ _ plan.roots.ending change.sound change'.sound
    (twins.first.stat_root paired.ahead known opened)
    (twins.second.stat_root paired.ahead' known opened) (fun file => keep (plan.roots.fileAt root file)) ?_
  · simp only [Roots.sweep, List.filter_map, Function.comp_def, kept]
  intro names carries chosen
  have named : ∀ d : Disk, d.IsFileAt (before.placeOf root.path ++ names) →
      d.readAt (before.placeOf root.path ++ names) ≠ none := by
    rintro d (⟨_, _, there⟩ | ⟨_, there⟩) <;>
      simp [Disk.readAt, (leafAt_eq_some (by simp)).mpr there]
  have same : plan.roots.Holds before root names →
      n.pass.disk.readAt (before.placeOf root.path ++ names) =
        m.pass.disk.readAt (before.placeOf root.path ++ names) := by
    intro stood
    rcases unit : (plan.roots.below root names).unit == u with _ | _
    · exact twins.agrees.read _ (ground.not_owns known stood unit)
    · have fresh : m.pass.tracker.has (plan.roots.below root names).unit = false := by
        rw [Tracker.has_congr unit]
        exact others _ chosen unit
      have fresh' : n.pass.tracker.has (plan.roots.below root names).unit = false :=
        twins.agrees.tracker.symm ▸ fresh
      rw [readAt_congr (twins.first.source_kept paired.ahead known stood (twins.first.pending fresh)),
        readAt_congr (twins.second.source_kept paired.ahead' known stood (twins.second.pending fresh'))]
  constructor
  · intro file
    have stood : plan.roots.Holds before root names :=
      twins.second.frame.holds_before paired.ahead'.ground.proper ⟨carries, by rwa [change'.placeOf]⟩
    exact twins.first.stands paired.ahead stood (same stood ▸ named _ file)
  · intro file
    have stood : plan.roots.Holds before root names :=
      twins.first.frame.holds_before ground.proper ⟨carries, by rwa [change.placeOf]⟩
    exact twins.second.stands paired.ahead' stood ((same stood).symm ▸ named _ file)

theorem unlessStopped {work work' : Pass → Pass} {p q : Pass}
    (twins : Twins plan other archives before heard earlier u ⟨p, [], ss, es⟩ ⟨q, [], ss', es'⟩)
    (working : ∀ p q,
      Twins plan other archives before heard earlier u ⟨p, [], ss, es⟩ ⟨q, [], ss', es'⟩ →
      Twins plan other archives before heard earlier u ⟨work p, [], ss, es⟩ ⟨work' q, [], ss', es'⟩) :
    Twins plan other archives before heard earlier u ⟨p.unlessStopped plan work, [], ss, es⟩
      ⟨q.unlessStopped (plan.withService other) work', [], ss', es'⟩ := by
  rw [Pass.unlessStopped_calm paired.endless twins.calm.1,
    Pass.unlessStopped_calm paired.endless' twins.calm.2]
  exact working _ _ (twins.advance [] paired (.of .check) (.of .check)
    ((twins.agrees.checked_left plan).checked_right (plan.withService other)))

theorem enter (depth : Nat) {symbol : String} (asked : symbol ∈ points) {p q : Pass}
    (twins : Twins plan other archives before heard earlier u ⟨p, [], ss, es⟩ ⟨q, [], ss', es'⟩) :
    Twins plan other archives before heard earlier u ⟨p.enter plan depth symbol, [], ss, es⟩
      ⟨q.enter (plan.withService other) depth symbol, [], ss', es'⟩ :=
  unlessStopped paired twins fun p q twins =>
    (resolve paired depth symbol p q [] [] (.inl asked) (.inl asked) twins).2

theorem take (points : List String) (depth : Nat) {c : Candidate} {goal : Destination} {p q : Pass}
    (offer : Offer plan points ⟨p, [], ss, es⟩ c goal p.archives)
    (offer' : Offer (plan.withService other) points ⟨q, [], ss', es'⟩ c goal q.archives)
    (fresh : p.tracker.has c.unit = false)
    (twins : Twins plan other archives before heard earlier u ⟨p, [], ss, es⟩ ⟨q, [], ss', es'⟩) :
    Twins plan other archives before heard earlier u ⟨p.take plan depth c goal, [], ss, es⟩
      ⟨q.take (plan.withService other) depth c goal, [], ss', es'⟩ :=
  taken paired (resolve paired depth) offer offer' fresh twins

theorem sweepSource (depth : Nat) {root : SourceRoot} {f : SourceFile} (listed : (root, f) ∈ ss)
    (listed' : (root, f) ∈ ss') (declared : root.generated = false) {p q : Pass}
    (twins : Twins plan other archives before heard earlier u ⟨p, [], ss, es⟩ ⟨q, [], ss', es'⟩) :
    Twins plan other archives before heard earlier u ⟨p.sweepSource plan depth f, [], ss, es⟩
      ⟨q.sweepSource (plan.withService other) depth f, [], ss', es'⟩ := by
  rw [Pass.sweepSource_eq, Pass.sweepSource_eq]
  refine unlessStopped paired twins fun p q twins => ?_
  have tracker : q.tracker = p.tracker := twins.agrees.tracker
  have ground := paired.ahead.ground
  rcases tracked : p.tracker.has f.unit with _ | _
  · have tracked' : q.tracker.has f.unit = false := tracker ▸ tracked
    obtain ⟨known, names, holds, rfl⟩ := twins.first.underway.sourced.listed ground.proper
      twins.first.frame listed
    have filled := UnitId.filled_ofRelative holds.1 (ground.orderly.straight root known names holds)
    have found := twins.first.resolve_same paired.ahead (UnitId.tidy_ofRelative _ _) filled tracked
    have found' := twins.second.resolve_same paired.ahead' (UnitId.tidy_ofRelative _ _) filled tracked'
    generalize seen : plan.roots.resolve before (.ofRelative (relativePath names) plan.roots.ending) =
      winner at found
    rw [Pass.takeSource_fresh tracked found, Pass.takeSource_fresh tracked' (found'.trans seen)]
    have took : (∀ other, winner = some other → (plan.roots.below root names).rank ≤ other.rank) →
        Twins plan other archives before heard earlier u
          ⟨p.take plan depth (.ofSource (plan.roots.below root names)) .cache, [], ss, es⟩
          ⟨q.take (plan.withService other) depth (.ofSource (plan.roots.below root names)) .cache, [],
            ss', es'⟩ := fun first =>
      take paired [] depth
        (.source listed declared fun other same => first other (found.symm.trans same))
        (.source listed' declared fun other same =>
          first other ((found'.trans seen).symm.trans same)) tracked twins
    rcases winner with _ | winner
    · exact took (by simp)
    · dsimp only
      split
      · rename_i above
        exact twins.advance [] paired (.of (.yield listed tracked found above))
          (.of (.yield listed' tracked' (found'.trans seen) above)) (twins.agrees.skip _ _)
      · rename_i below
        refine took fun other same => ?_
        cases same
        exact Nat.not_lt.mp below
  · rw [Pass.takeSource_tracked tracked, Pass.takeSource_tracked (tracker ▸ tracked)]
    exact twins.advance [] paired (.of (.pass tracked)) (.of (.pass (tracker ▸ tracked)))
      (twins.agrees.skip f.unit Pass.alreadyResolved)

theorem sweepGeneratedSource (depth : Nat) {root : SourceRoot} {f : SourceFile}
    (listed : (root, f) ∈ ss) (listed' : (root, f) ∈ ss') (generated : root.generated = true) {p q : Pass}
    (twins : Twins plan other archives before heard earlier u ⟨p, [], ss, es⟩ ⟨q, [], ss', es'⟩) :
    Twins plan other archives before heard earlier u ⟨p.sweepGeneratedSource plan depth f, [], ss, es⟩
      ⟨q.sweepGeneratedSource (plan.withService other) depth f, [], ss', es'⟩ := by
  refine unlessStopped paired twins fun p q twins => ?_
  have tracker : q.tracker = p.tracker := twins.agrees.tracker
  rcases tracked : p.tracker.has f.unit with _ | _
  · simp only [tracker, tracked, Bool.false_eq_true, if_false]
    exact take paired [] depth (.generated listed generated) (.generated listed' generated)
      tracked twins
  · simp only [tracker, tracked, if_true]
    exact twins.advance [] paired (.of (.pass tracked)) (.of (.pass (tracker ▸ tracked)))
      (twins.agrees.skip f.unit Pass.alreadyResolved)

theorem sweepEntry (depth : Nat) {archive : Path} {entry : String} (listed : ⟨archive, entry⟩ ∈ es)
    (listed' : ⟨archive, entry⟩ ∈ es') {p q : Pass}
    (twins : Twins plan other archives before heard earlier u ⟨p, [], ss, es⟩ ⟨q, [], ss', es'⟩) :
    Twins plan other archives before heard earlier u ⟨p.sweepEntry plan depth archive entry, [], ss, es⟩
      ⟨q.sweepEntry (plan.withService other) depth archive entry, [], ss', es'⟩ := by
  rw [Pass.sweepEntry_eq, Pass.sweepEntry_eq]
  refine unlessStopped paired twins fun p q twins => ?_
  have tracker : q.tracker = p.tracker := twins.agrees.tracker
  change Twins plan other archives before heard earlier u
    ⟨p.takeEntry plan depth (.ofEntry plan.roots.ending ⟨archive, entry⟩), [], ss, es⟩
    ⟨q.takeEntry (plan.withService other) depth (.ofEntry plan.roots.ending ⟨archive, entry⟩), [],
      ss', es'⟩
  rcases tracked : p.tracker.has (Candidate.ofEntry plan.roots.ending ⟨archive, entry⟩).unit with _ | _
  · have tracked' : q.tracker.has (Candidate.ofEntry plan.roots.ending ⟨archive, entry⟩).unit = false :=
      tracker ▸ tracked
    have read := twins.first.cached_same paired.ahead (UnitId.tidy_ofEntry entry plan.roots.ending)
      (UnitId.straight_ofEntry entry plan.roots.ending) tracked
    have read' := twins.second.cached_same paired.ahead' (UnitId.tidy_ofEntry entry plan.roots.ending)
      (UnitId.straight_ofEntry entry plan.roots.ending) tracked'
    generalize kept : plan.cache.read before (.ofEntry entry plan.roots.ending) = cached at read
    rw [Pass.takeEntry_fresh tracked read, Pass.takeEntry_fresh tracked' (read'.trans kept)]
    rcases cached with _ | artifact
    · exact take paired [] depth (.entry listed read) (.entry listed' (read'.trans kept))
        tracked twins
    · exact twins.advance [] paired (.of (.keep listed tracked read))
        (.of (.keep listed' tracked' (read'.trans kept)))
        ((twins.agrees.skip _ _).record _ _ _)
  · rw [Pass.takeEntry_tracked tracked, Pass.takeEntry_tracked (tracker ▸ tracked)]
    exact twins.advance [] paired (.of (.pass tracked)) (.of (.pass (tracker ▸ tracked)))
      (twins.agrees.skip _ Pass.alreadyResolved)

end Twins

/-- Two builds with compilers that differ in one unit, with no unit in hand. -/
def Meet (plan : Plan) (other : Service) (archives : Archives) (before : Disk) (heard : Bool)
    (earlier : List UnitSource) (u : UnitId) (p q : Pass) : Prop :=
  ∃ ss es ss' es', Twins plan other archives before heard earlier u ⟨p, [], ss, es⟩ ⟨q, [], ss', es'⟩

namespace Meet

variable (paired : plan.Paired other archives before u)

include paired

/-- What is passed over in one build alone is of the unit they differ in. -/
theorem sweepFiles {visit visit' : Pass → SourceFile → Pass} {root : SourceRoot}
    (known : root ∈ plan.roots.roots)
    (both : ∀ f ss es ss' es' p q, (root, f) ∈ ss → (root, f) ∈ ss' →
      Twins plan other archives before heard earlier u ⟨p, [], ss, es⟩ ⟨q, [], ss', es'⟩ →
      Twins plan other archives before heard earlier u ⟨visit p f, [], ss, es⟩ ⟨visit' q f, [], ss', es'⟩)
    (onward : ∀ f p, Onward p (visit p f))
    (passed : ∀ f p, p.cancelled = false → p.tracker.has f.unit = true →
      visit p f = (p.check plan).2.skip f.unit Pass.alreadyResolved)
    (passed' : ∀ f q, q.cancelled = false → q.tracker.has f.unit = true →
      visit' q f = (q.check (plan.withService other)).2.skip f.unit Pass.alreadyResolved)
    (met : Meet plan other archives before heard earlier u p q) :
    Meet plan other archives before heard earlier u ((plan.roots.sweep p.disk root).foldl visit p)
      ((plan.roots.sweep q.disk root).foldl visit' q) := by
  obtain ⟨ss, es, ss', es', twins⟩ := met
  have listing := twins.advance [] paired (.of (.list known)) (.of (.list known)) twins.agrees
  have same := Twins.listed paired twins known (fun f => !(f.unit == u) || !p.tracker.has u) (by
    intro f chosen own
    simpa [own] using chosen)
  have idle : ∀ f : SourceFile, (!(f.unit == u) || !p.tracker.has u) = false →
      (f.unit == u) = true ∧ p.tracker.has u = true := by
    intro f dropped
    simpa using dropped
  refine ⟨_, _, _, _, (foldl_paired (fun s t =>
    Twins plan other archives before heard earlier u
      ⟨s, [], ss ++ (plan.roots.sweep p.disk root).map (root, ·), es⟩
      ⟨t, [], ss' ++ (plan.roots.sweep q.disk root).map (root, ·), es'⟩ ∧
      (p.tracker.has u = true → s.tracker.has u = true)) _ ?_ ?_ ?_ same.symm ⟨listing, id⟩).1⟩
  · rintro f first second s t ⟨twins, tracked⟩
    refine ⟨both f _ _ _ _ s t (by simp [first]) (by simp [second]) twins, fun begun => ?_⟩
    exact (onward f s).tracked u (tracked begun)
  · rintro f _ dropped s t ⟨twins, tracked⟩
    obtain ⟨own, begun⟩ := idle f dropped
    have done : s.tracker.has f.unit = true := (Tracker.has_congr own).trans (tracked begun)
    refine ⟨?_, fun begun => (onward f s).tracked u (tracked begun)⟩
    rw [passed f s twins.calm.1 done]
    exact twins.advance [] paired ((Course.of .check).trans (.of (.pass done))) (.refl _)
      ((twins.agrees.checked_left plan).skip_left own _)
  · rintro f _ dropped s t ⟨twins, tracked⟩
    obtain ⟨own, begun⟩ := idle f dropped
    have done : t.tracker.has f.unit = true := by
      rw [show t.tracker = s.tracker from twins.agrees.tracker]
      exact (Tracker.has_congr own).trans (tracked begun)
    refine ⟨?_, tracked⟩
    rw [passed' f t twins.calm.2 done]
    exact twins.advance [] paired (.refl _) ((Course.of .check).trans (.of (.pass done)))
      ((twins.agrees.checked_right (plan.withService other)).skip_right own _)

omit paired in
/-- Two walks along one list. -/
theorem foldl {α : Type} {visit visit' : Pass → α → Pass} {all : List α}
    (both : ∀ x ∈ all, ∀ p q, Meet plan other archives before heard earlier u p q →
      Meet plan other archives before heard earlier u (visit p x) (visit' q x))
    (met : Meet plan other archives before heard earlier u p q) :
    Meet plan other archives before heard earlier u (all.foldl visit p) (all.foldl visit' q) :=
  foldl_paired _ (fun _ => true) (fun x member _ => both x member) (by simp) (by simp) rfl met

theorem sweepRoot (depth : Nat) {root : SourceRoot} (known : root ∈ plan.roots.roots)
    (declared : root.generated = false) (met : Meet plan other archives before heard earlier u p q) :
    Meet plan other archives before heard earlier u (p.sweepRoot plan depth root)
      (q.sweepRoot (plan.withService other) depth root) := by
  refine sweepFiles paired known (fun f _ _ _ _ _ _ listed listed' twins =>
    Twins.sweepSource paired depth listed listed' declared twins) (fun f p => ?_)
    (fun f p calm tracked => ?_) (fun f q calm tracked => ?_) met
  · have course : Course plan [] ⟨p, [], [(root, f)], []⟩
        ⟨p.sweepSource plan depth f, [], [(root, f)], []⟩ :=
      Pass.sweepSource_course depth (by simp) declared p
    exact Onward.of_course course
  · rw [Pass.sweepSource_eq, Pass.unlessStopped_calm paired.endless calm]
    exact Pass.takeSource_tracked tracked
  · rw [Pass.sweepSource_eq, Pass.unlessStopped_calm paired.endless' calm]
    exact Pass.takeSource_tracked tracked

theorem sweepGenerated (depth : Nat) (met : Meet plan other archives before heard earlier u p q) :
    Meet plan other archives before heard earlier u (p.sweepGenerated plan depth)
      (q.sweepGenerated (plan.withService other) depth) := by
  have roots : (plan.withService other).roots = plan.roots := rfl
  simp only [Pass.sweepGenerated, roots]
  rcases found : plan.roots.roots.find? (·.generated) with _ | root
  · simpa only [found] using met
  simp only [found]
  have generated : root.generated = true := List.find?_some found
  refine sweepFiles paired (List.mem_of_find?_eq_some found) (fun f _ _ _ _ _ _ listed listed' twins =>
    Twins.sweepGeneratedSource paired depth listed listed' generated twins) (fun f p => ?_)
    (fun f p calm tracked => ?_) (fun f q calm tracked => ?_) met
  · have course : Course plan [] ⟨p, [], [(root, f)], []⟩
        ⟨p.sweepGeneratedSource plan depth f, [], [(root, f)], []⟩ :=
      Pass.sweepGeneratedSource_course depth (by simp) generated p
    exact Onward.of_course course
  · rw [Pass.sweepGeneratedSource, Pass.unlessStopped_calm paired.endless calm]
    exact if_pos tracked
  · rw [Pass.sweepGeneratedSource,
      Pass.unlessStopped_calm paired.endless' calm]
    exact if_pos tracked

theorem sweepArchive (depth : Nat) {archive : Path} (registered : archive ∈ archives.paths)
    (met : Meet plan other archives before heard earlier u p q) :
    Meet plan other archives before heard earlier u (p.sweepArchive plan depth archive)
      (q.sweepArchive (plan.withService other) depth archive) := by
  obtain ⟨ss, es, ss', es', twins⟩ := met
  have entries := twins.first.entries_same paired.ahead registered
  have entries' := twins.second.entries_same paired.ahead' registered
  have first : archive ∈ p.archives.paths := by
    rw [twins.first.contained.paths]
    exact registered
  have second : archive ∈ q.archives.paths := by
    rw [twins.second.contained.paths]
    exact registered
  have listing := twins.advance [] paired (.of (.unpack first)) (.of (.unpack second))
    (twins.agrees.learnt _ _)
  unfold Pass.sweepArchive
  generalize p.archives.entries p.disk archive = unpacked at entries listing ⊢
  generalize q.archives.entries q.disk archive = unpacked' at entries' listing ⊢
  obtain ⟨all, known⟩ := unpacked
  obtain ⟨all', known'⟩ := unpacked'
  obtain rfl : all' = all := entries'.trans entries.symm
  refine ⟨ss, es ++ all'.map (⟨archive, ·⟩), ss', es' ++ all'.map (⟨archive, ·⟩),
    foldl_paired (fun s t =>
      Twins plan other archives before heard earlier u ⟨s, [], ss, es ++ all'.map (⟨archive, ·⟩)⟩
        ⟨t, [], ss', es' ++ all'.map (⟨archive, ·⟩)⟩) (fun _ => true)
      (fun entry member _ s t twins => ?_) (by simp) (by simp) rfl listing⟩
  exact Twins.sweepEntry paired depth (by simp [member]) (by simp [member]) twins

theorem sweepArchives (depth : Nat) (met : Meet plan other archives before heard earlier u p q) :
    Meet plan other archives before heard earlier u (p.sweepArchives plan depth)
      (q.sweepArchives (plan.withService other) depth) := by
  have paths : p.archives.paths = archives.paths ∧ q.archives.paths = archives.paths := by
    obtain ⟨_, _, _, _, twins⟩ := met
    exact ⟨twins.first.contained.paths, twins.second.contained.paths⟩
  rw [Pass.sweepArchives, Pass.sweepArchives, paths.1, paths.2]
  exact foldl (fun archive registered _ _ => sweepArchive paired depth registered) met

/-- One unit's failure changes nothing in the others as long as a build goes on. -/
theorem sweep (depth : Nat) (points : List String)
    (met : Meet plan other archives before heard earlier u p q) :
    Meet plan other archives before heard earlier u (p.sweep plan depth points)
      (q.sweep (plan.withService other) depth points) := by
  have entered : Meet plan other archives before heard earlier u
      (points.foldl (Pass.enter plan depth) p)
      (points.foldl (Pass.enter (plan.withService other) depth) q) :=
    foldl (fun symbol asked p q met => by
      obtain ⟨ss, es, ss', es', twins⟩ := met
      exact ⟨ss, es, ss', es', Twins.enter paired depth asked twins⟩) met
  have rooted : Meet plan other archives before heard earlier u
      ((points.foldl (Pass.enter plan depth) p).sweepRoots plan depth)
      ((points.foldl (Pass.enter (plan.withService other) depth) q).sweepRoots
        (plan.withService other) depth) :=
    foldl (fun root member _ _ => by
      obtain ⟨known, declared⟩ := List.mem_filter.mp member
      exact sweepRoot paired depth known (by simpa using declared)) entered
  exact sweepArchives paired depth (sweepGenerated paired depth rooted)

end Meet

/-! The end of both builds. -/

/-- A compiler that always fails on a unit has it never compiled. -/
theorem Course.uncompiled
    (fails : ∀ n source, (source.unit == u) = true → ∀ artifact,
      ¬ (plan.service n source).Ends (.ok artifact))
    (course : Course plan points m next) (jobs : m.jobs = [])
    (untold : ∀ e ∈ m.pass.log.events, e.outcome = .compiled → (e.identity == u) = false) :
    ∀ e ∈ next.pass.log.events, e.outcome = .compiled → (e.identity == u) = false := by
  have all : (∀ e ∈ next.pass.log.events, e.outcome = .compiled → (e.identity == u) = false) ∧
      ∀ t ∈ next.jobs, (t.candidate.unit == u) = true → ∀ s, t.conversation = some s →
        ∀ artifact, ¬ s.Ends (.ok artifact) := by
    refine course.invariant (fun m =>
      (∀ e ∈ m.pass.log.events, e.outcome = .compiled → (e.identity == u) = false) ∧
      ∀ t ∈ m.jobs, (t.candidate.unit == u) = true → ∀ s, t.conversation = some s →
        ∀ artifact, ¬ s.Ends (.ok artifact)) ?_ ⟨untold, by simp [jobs]⟩
    rintro m next ⟨told, held⟩ move
    have more : ∀ log : List Event, ∀ e : Event, log = m.pass.log.events ++ [e] → e.outcome ≠ .compiled →
        ∀ e ∈ log, e.outcome = .compiled → (e.identity == u) = false := by
      rintro _ last rfl other e member compiled
      exact told e (Log.compiled_of_other other e member compiled) compiled
    cases move with
    | pass | yield | keep => exact ⟨more _ _ (Log.events_addSkipped _ _ _) (by simp), held⟩
    | begin =>
      refine ⟨told, fun t inside own s talk => ?_⟩
      rcases List.mem_cons.mp inside with rfl | old
      · cases talk
      · exact held t old own s talk
    | unread => exact ⟨more _ _ (Log.events_addError _ _ _ _) (by simp),
        fun t inside => held t (List.mem_cons_of_mem _ inside)⟩
    | reject => exact ⟨more _ _ (Log.events_addError _ _ _ _) (by simp),
        fun t inside => held t (List.mem_cons_of_mem _ inside)⟩
    | call =>
      refine ⟨told, fun t inside own s talk => ?_⟩
      rcases List.mem_cons.mp inside with rfl | old
      · obtain rfl := Option.some.inj talk
        exact fails _ _ own
      · exact held t (List.mem_cons_of_mem _ old) own s talk
    | @deliver p c goal s ts ss es artifact ends =>
      refine ⟨?_, fun t inside => held t (List.mem_cons_of_mem _ inside)⟩
      rcases p.deliver_cases plan c goal artifact with ⟨_, _, _, delivered⟩ | ⟨_, _, delivered⟩ <;>
        rw [delivered]
      · exact more _ _ (Log.events_addError _ _ _ _) (by simp)
      · intro e member compiled
        rcases List.mem_append.mp ((Log.events_addCompiled _ _ _) ▸ member) with old | last
        · exact told e old compiled
        · rw [List.mem_singleton.mp last, Event.identity_logical]
          by_contra own
          exact held _ List.mem_cons_self (by simpa using own) s rfl artifact ends
    | _ => exact ⟨told, held⟩
  exact all.1

/-- The folder of the cache, when it is made, makes no place a unit's. -/
theorem Plan.Owns.mono {d d' : Disk} (made : d.Changes (fun _ => False) d') {place : Place}
    (owns : plan.Owns d' u place) : plan.Owns d u place := by
  cases owns with
  | cached same tidy =>
    rw [ArtifactCache.placeFor, made.placeOf]
    exact .cached same tidy
  | beside known generated holds parts alike same =>
    rw [made.placeOf]
    exact .beside known generated ((Roots.Holds.mono made).mp holds) parts alike same
  | source known generated holds same =>
    rw [made.placeOf]
    exact .source known generated ((Roots.Holds.mono made).mp holds) same

theorem AgreesBut.of_agrees {p' q' : Pass} (agrees : AgreesBut plan before u p' q')
    (first : p.Agrees p') (second : q.Agrees q') : AgreesBut plan before u p q where
  tracker := by rw [first.tracker, second.tracker, agrees.tracker]
  called := by rw [first.called, second.called, agrees.called]
  events := by rw [first.log, second.log, agrees.events]
  records logical other := by rw [first.manifest, second.manifest, agrees.records logical other]
  read place free := by rw [first.disk, second.disk, agrees.read place free]

/-- The same earlier records are kept for units of which both builds tell the same. -/
theorem Twins.carryOver {n : Stage} (paired : plan.Paired other archives before u)
    (twins : Twins plan other archives before heard earlier u m n) (previous : Option Manifest)
    {logical : String} (apart : (UnitId.ofLogical logical == u) = false) :
    (n.pass.carryOver (plan.withService other) previous).manifest.units.find? logical =
      (m.pass.carryOver plan previous).manifest.units.find? logical := by
  have same := twins.agrees.records logical apart
  cases previous with
  | none => exact same
  | some earlier =>
    refine Manifest.find?_carryOver_congr same fun r => ?_
    rw [twins.first.stillHolds_eq paired.ahead, twins.second.stillHolds_eq paired.ahead',
      twins.agrees.tracker]
    rfl

end

namespace Builder

variable {b : Builder} {env : Environment} {heard : Bool} {cancel cancel' : Cancel} {s s' : Site}
  {summary : Summary} {u : UnitId} {other : Service}

theorem paired {config : Config} {project : Path} (accepted : config.check = .ok ())
    (layout : b.layout = .resolve project config) (quiet : b.service.Quiet)
    (sheltered : b.Sheltered env s.disk) (spoiled : b.service.Spoiled u other)
    (made : b.cache.ensureFolder s.disk = (.ok (), (b.cache.ensureFolder s.disk).2)) :
    (b.plan env .never).Paired other b.archives (b.cache.ensureFolder s.disk).2 u where
  ahead := sheltered.foreseeable accepted layout quiet made
  ahead' := (sheltered.foreseeable accepted layout quiet made).withService (spoiled.quiet quiet)
  endless := rfl
  spoiled

/-- In the end, too, one unit is all that both builds differ in. -/
theorem settled_meet (paired : (b.plan env .never).Paired other b.archives
    (b.cache.ensureFolder s.disk).2 u) (sound : s.disk.Sound) :
    Meet (b.plan env .never) other b.archives (b.cache.ensureFolder s.disk).2 heard s.called u
      (b.settled env heard .never s) ((b.withService other).settled env heard .never s) := by
  refine Meet.sweep paired (b.depthAt env s) b.layout.naming.entryPoints
    (p := b.start env heard s) (q := b.start env heard s) ⟨[], [], [], [], ?_⟩
  exact ⟨foreseen_start paired.ahead sound, (b.withService other).foreseen_start paired.ahead' sound,
    .refl _, rfl, rfl⟩

/-- A unit that was taken up and not compiled has failed, and has once. -/
theorem fails_once {ss : List (SourceRoot × SourceFile)} {es : List EntryRef} {p : Pass}
    {earlier : List UnitSource} (account : Account heard earlier ⟨p, [], ss, es⟩)
    (tracked : p.tracker.has u = true)
    (uncompiled : ∀ e ∈ p.log.events, e.outcome = .compiled → (e.identity == u) = false) :
    p.log.events.countP (fun e => e.outcome == .error && e.identity == u) = 1 := by
  have once := account.countP_finals u
  simp only [tracked, if_true, List.countP_nil, Nat.add_zero] at once
  rw [← once, finals, List.countP_filter]
  refine List.countP_congr fun e told => ?_
  have free := uncompiled e told
  rcases e with ⟨unit, outcome, message⟩
  cases outcome <;> simp_all [Event.isFinal]

/-- The failure of one unit is its own affair: a build with a compiler that fails on it takes up the
same units in the same order, tells and records the same of all others and leaves the same files but
for those of that unit, of which it tells that it failed. -/
theorem compile_isolates {config : Config} {project : Path} (accepted : config.check = .ok ())
    (layout : b.layout = .resolve project config) (quiet : b.service.Quiet)
    (sheltered : b.Sheltered env s.disk) (spoiled : b.service.Spoiled u other)
    (built : b.compile env heard cancel s = (.ok summary, s')) (ran : summary.ran = true)
    (calm : summary.cancelled = false) :
    ∃ failing s'', (b.withService other).compile env heard cancel' s = (.ok failing, s'') ∧
      failing.ran = true ∧ (failing.cancelled = false →
        failing.resolved = summary.resolved ∧ s''.called = s'.called ∧
        failing.events.filter (·.isBut u) = summary.events.filter (·.isBut u) ∧
        (∀ place, ¬ (b.plan env .never).Owns s.disk u place →
          place ≠ s.disk.placeOf b.layout.cache ++ [Manifest.fileName] →
            s''.disk.readAt place = s'.disk.readAt place) ∧
        (s'.disk = ((b.filled env heard cancel s).save (b.settled env heard cancel s).disk
            b.layout.cache).2 ∧
          s''.disk = (((b.withService other).filled env heard cancel' s).save
            ((b.withService other).settled env heard cancel' s).disk b.layout.cache).2 ∧
          ∀ logical, (UnitId.ofLogical logical == u) = false →
            ((b.withService other).filled env heard cancel' s).units.find? logical =
              (b.filled env heard cancel s).units.find? logical) ∧
        ((∃ e ∈ summary.events, e.outcome = .compiled ∧ (e.identity == u) = true) →
          failing.events.countP (fun e => e.outcome == .error && e.identity == u) = 1 ∧
          ∀ e ∈ failing.events, e.outcome = .compiled → (e.identity == u) = false)) := by
  have sound := sheltered.sound
  obtain ⟨events, resolved, cancelled, called, made⟩ := compile_settled built ran
  rw [cancelled] at calm
  obtain ⟨failing, s'', again, also⟩ : ∃ failing s'', (b.withService other).compile env heard cancel' s =
      (.ok failing, s'') ∧ failing.ran = summary.ran :=
    compile_alike (b := b) (c := b.withService other) rfl built
  rw [ran] at also
  refine ⟨failing, s'', again, also, fun calm' => ?_⟩
  obtain ⟨events', resolved', cancelled', called', _⟩ := compile_settled again also
  rw [cancelled'] at calm'
  have paired := paired accepted layout quiet sheltered spoiled made
  obtain ⟨ss, es, ss', es', twins⟩ : Meet (b.plan env .never) other b.archives
      (b.cache.ensureFolder s.disk).2 heard s.called u _ _ := settled_meet paired sound
  have agrees : AgreesBut (b.plan env .never) (b.cache.ensureFolder s.disk).2 u
      (b.settled env heard cancel s) ((b.withService other).settled env heard cancel' s) := by
    have first := settled_agrees calm
    have second := settled_agrees calm'
    generalize b.settled env heard .never s = p at twins first
    generalize (b.withService other).settled env heard .never s = q at twins second
    exact twins.agrees.of_agrees first second
  have ensured := b.ensured sound
  refine ⟨?_, ?_, ?_, fun place free note => ?_, ⟨compile_saves built ran, compile_saves again also,
    fun logical apart => ?_⟩, fun ⟨e, told, compiled, own⟩ => ?_⟩
  · rw [resolved, resolved', agrees.tracker]
  · rw [called, called', agrees.called]
  · rw [events, events', agrees.events]
  · have plain := sheltered.plain
    have moved := sheltered.orderly.mono sound ensured
    have ground : (b.plan env cancel).Grounded (b.cache.ensureFolder s.disk).2 :=
      grounded accepted layout quiet ensured.sound (ensured.plain plain) moved
    have ground' : ((b.withService other).plan env cancel').Grounded (b.cache.ensureFolder s.disk).2 :=
      grounded (b := b.withService other) accepted layout (spoiled.quiet quiet) ensured.sound
        (ensured.plain plain) moved
    rw [readAt_saved plain sound ground built ran note,
      readAt_saved (b := b.withService other) plain sound ground' again also note]
    exact agrees.read place fun owned => free (owned.mono ensured)
  · rw [filled_agrees calm, filled_agrees calm', filled, filled]
    have kept := twins.carryOver paired (b.previous s) apart
    generalize (b.withService other).settled env heard .never s = q at kept ⊢
    generalize b.settled env heard .never s = p at kept ⊢
    exact kept
  · have taken : (b.settled env heard cancel s).tracker.has u = true := by
      obtain ⟨_, _, account⟩ := b.account_settled env heard cancel s
      rw [events] at told
      rw [← Tracker.has_congr own]
      generalize b.settled env heard cancel s = p at account told ⊢
      exact account.tracked told (by simp [Event.isFinal, compiled]) (UnitId.logical_ofLogical _).symm
    have uncompiled : ∀ e ∈ ((b.withService other).settled env heard cancel' s).log.events,
        e.outcome = .compiled → (e.identity == u) = false := by
      obtain ⟨_, _, course⟩ := (b.withService other).settled_course env heard cancel' s
      have fails : ∀ n source, (source.unit == u) = true → ∀ artifact,
          ¬ (other n source).Ends (.ok artifact) :=
        fun n source own artifact => (spoiled.spoils n source own).fails artifact
      generalize (b.withService other).settled env heard cancel' s = q at course ⊢
      exact course.uncompiled fails rfl (by simp [start, opening, Log.start])
    rw [events']
    obtain ⟨ss, es, account⟩ := (b.withService other).account_settled env heard cancel' s
    exact ⟨fails_once account (by rw [agrees.tracker]; exact taken) uncompiled, uncompiled⟩

/-- A unit that others refer to, and that is generated, fails. -/
theorem compile_isolates_aside : ∃ summary s' failing s'',
    aside.compile .prod true .never asideSite = (.ok summary, s') ∧
    (aside.withService (aside.service.spoil (.ofLogical "C") (.rejected "no" none))).compile .prod true
      .never asideSite = (.ok failing, s'') ∧
    failing.resolved = summary.resolved ∧
    failing.events.filter (·.isBut (.ofLogical "C")) = summary.events.filter (·.isBut (.ofLogical "C")) ∧
    failing.events.countP (fun e => e.outcome == .error && e.identity == .ofLogical "C") = 1 := by
  obtain ⟨summary, s', built, ran, calm, events, _⟩ := aside_outcome
  have calm' : ((aside.withService (aside.service.spoil (.ofLogical "C")
      (.rejected "no" none))).settled .prod true .never asideSite).cancelled = false := by
    decide +kernel
  have quiet : aside.service.Quiet := quiet_scripted
  obtain ⟨failing, s'', again, also, isolated⟩ := @compile_isolates _ _ _ _ .never _ _ _ _ _
    asideConfig ⟨"/p"⟩ (by decide +kernel) rfl quiet sheltered_aside
    (Service.spoiled_spoil quiet (.ofLogical "C") (.rejected "no" none)) built ran calm
  obtain ⟨_, _, cancelled', _⟩ := compile_settled again also
  rw [← cancelled'] at calm'
  obtain ⟨resolved, _, others, _, _, fails⟩ := isolated calm'
  refine ⟨summary, s', failing, s'', built, again, resolved, others, (fails ?_).1⟩
  rw [events]
  exact ⟨⟨"C", .compiled, "C.php"⟩, by simp, rfl, UnitId.beq_self _⟩

/-- The same project where the compiler rejects the one source. -/
def blocked : Builder :=
  passage.withService (passage.service.spoil (.ofLogical "App/A") (.rejected "no" none))

/-- With the unit whose artifact makes the folder all units of the archive are lost. -/
theorem compile_fails_beyond : ∃ summary s' failing s'',
    passage.compile .prod true .never passageSite = (.ok summary, s') ∧ summary.ran = true ∧
      summary.cancelled = false ∧
    blocked.compile .prod true .never passageSite = (.ok failing, s'') ∧ failing.ran = true ∧
      failing.cancelled = false ∧
    passageConfig.check = .ok () ∧ passage.service.Quiet ∧
    passage.service.Spoiled (.ofLogical "App/A") blocked.service ∧
    passageSite.disk.Sound ∧ (∀ p, passageSite.disk.Plain p) ∧
    (passage.roots .prod).Orderly passageSite.disk ∧ (passage.roots .prod).Legible passageSite.disk ∧
    (∀ root ∈ (passage.roots .prod).roots,
      ¬ passageSite.disk.placeOf root.path <+: passageSite.disk.placeOf passage.layout.cache ∧
      ¬ passageSite.disk.placeOf passage.layout.cache <+: passageSite.disk.placeOf root.path) ∧
    summary.events = [⟨"App/A", .compiled, "App/A.php"⟩, ⟨"B", .compiled, "B.php"⟩] ∧
    failing.events = [⟨"App/A", .error, "no"⟩] ∧ failing.resolved ≠ summary.resolved := by
  obtain ⟨summary, s', built, ran, calm, told, _⟩ := passage_outcome
  have failed : (blocked.cache.ensureFolder passageSite.disk).1.toOption = some () ∧
      (blocked.settled .prod true .never passageSite).cancelled = false ∧
      (blocked.settled .prod true .never passageSite).log.events = [⟨"App/A", .error, "no"⟩] := by
    decide +kernel
  obtain ⟨opened, failed⟩ := failed
  obtain ⟨failing, s'', again, ran', cancelled', events', _⟩ :=
    @compile_runs blocked .prod true .never passageSite rfl opened
  rw [← cancelled', ← events'] at failed
  have quiet : passage.service.Quiet := quiet_scripted
  obtain ⟨accepted, sound, plain, orderly, legible, apart⟩ := passage_plain
  refine ⟨summary, s', failing, s'', built, ran, calm, again, ran', failed.1,
    accepted, quiet, Service.spoiled_spoil quiet _ _, sound, plain, orderly, legible, apart,
    told, failed.2, fun same => ?_⟩
  have one := (compile_resolved built).length_eq
  have two := (compile_resolved again).length_eq
  rw [same, one, told, failed.2] at two
  cases two

end Builder

end LayerCache
