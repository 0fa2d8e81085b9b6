import LayerCache.Build.Run
import LayerCache.Proofs.Archives
import Mathlib.Data.List.Induction
import Mathlib.Logic.Relation

/-! A build as a course of moves. Units that were taken up and are not finished form a stack: a
compiler that asks for a symbol waits for the unit behind it. Every build goes through such a
course, whatever its compiler does, so what each move keeps every build keeps. -/
namespace LayerCache

namespace Session

/-- What a conversation may end in, depending on what it is told. -/
inductive Ends : Session → Except CompileError ByteArray → Prop where
  | finish (artifact : ByteArray) : Ends (finish artifact) (.ok artifact)
  | fail (e : CompileError) : Ends (fail e) (.error e)
  | breakdown (b : Breakdown) : Ends (breakdown b) (.error (.panicked b.message))
  | resolve {symbol next found result} :
      Ends (next found) result → Ends (resolve symbol next) result
  | look {next d result} : Ends (next d) result → Ends (look next) result
  | replace {d next result} : Ends next result → Ends (replace d next) result

/-- A symbol that a conversation may ask for. -/
inductive Asks : Session → String → Prop where
  | now (symbol : String) (next : Bool → Session) : Asks (resolve symbol next) symbol
  | resolve {asked next found symbol} :
      Asks (next found) symbol → Asks (resolve asked next) symbol
  | look {next d symbol} : Asks (next d) symbol → Asks (look next) symbol
  | replace {d next symbol} : Asks next symbol → Asks (replace d next) symbol

end Session

/-- A compiler that leaves the disk to the build. -/
def Service.Quiet (service : Service) : Prop := ∀ n u, (service n u).Quiet

/-- A symbol that a build may have to resolve. -/
def Plan.Asks (plan : Plan) (points : List String) (symbol : String) : Prop :=
  symbol ∈ points ∨ ∃ n u, (plan.service n u).Asks symbol

/-- A unit that was taken up. There is a conversation about it once the compiler was called. -/
structure Job where
  candidate : Candidate
  goal : Destination
  conversation : Option Session

/-- A build between two moves: the jobs from the innermost on, and what sweeps have listed. -/
structure Stage where
  pass : Pass
  jobs : List Job
  sources : List (SourceRoot × SourceFile)
  entries : List EntryRef

variable {plan : Plan} {points : List String}

/-- How a unit comes to be taken up, with its destination and what is then known of archives. -/
inductive Offer (plan : Plan) (points : List String) :
    Stage → Candidate → Destination → Archives → Prop where
  | asked {p ts ss es c archives} (symbol : String) (known : plan.Asks points symbol)
      (named : (UnitId.ofSymbol symbol).isEmpty = false)
      (fresh : p.tracker.has (.ofSymbol symbol) = false)
      (located : p.locate plan (.ofSymbol symbol) = (some c, { p with archives })) :
      Offer plan points ⟨p, ts, ss, es⟩ c (plan.destination c.origin) archives
  | source {p ss es root f} (listed : (root, f) ∈ ss) (declared : root.generated = false)
      (first : ∀ winner, plan.roots.resolve p.disk f.unit = some winner → f.rank ≤ winner.rank) :
      Offer plan points ⟨p, [], ss, es⟩ (.ofSource f) .cache p.archives
  | generated {p ss es root f} (listed : (root, f) ∈ ss) (generated : root.generated = true) :
      Offer plan points ⟨p, [], ss, es⟩ (.ofSource f) (.beside (plan.besideSource f.path)) p.archives
  | entry {p ss es r} (listed : r ∈ es)
      (missing : plan.cache.read p.disk (Candidate.ofEntry plan.roots.ending r).unit = none) :
      Offer plan points ⟨p, [], ss, es⟩ (.ofEntry plan.roots.ending r) .cache p.archives

inductive Move (plan : Plan) (points : List String) : Stage → Stage → Prop where
  | check {p ss es} : Move plan points ⟨p, [], ss, es⟩ ⟨(p.check plan).2, [], ss, es⟩
  | search {p ts ss es} (u : UnitId) :
      Move plan points ⟨p, ts, ss, es⟩
        ⟨{ p with archives := (p.archives.find p.disk u).2 }, ts, ss, es⟩
  | list {p ss es root} (known : root ∈ plan.roots.roots) :
      Move plan points ⟨p, [], ss, es⟩
        ⟨p, [], ss ++ (plan.roots.sweep p.disk root).map (root, ·), es⟩
  | unpack {p ss es archive} (known : archive ∈ p.archives.paths) :
      Move plan points ⟨p, [], ss, es⟩
        ⟨{ p with archives := (p.archives.entries p.disk archive).2 }, [], ss,
          es ++ (p.archives.entries p.disk archive).1.map (⟨archive, ·⟩)⟩
  | pass {p ss es u} (done : p.tracker.has u = true) :
      Move plan points ⟨p, [], ss, es⟩ ⟨p.skip u Pass.alreadyResolved, [], ss, es⟩
  | yield {p ss es root f winner} (listed : (root, f) ∈ ss) (fresh : p.tracker.has f.unit = false)
      (found : plan.roots.resolve p.disk f.unit = some winner) (above : winner.rank < f.rank) :
      Move plan points ⟨p, [], ss, es⟩
        ⟨p.skip f.unit ("shadowed by root " ++ toString winner.rank), [], ss, es⟩
  | keep {p ss es r artifact} (listed : r ∈ es)
      (fresh : p.tracker.has (Candidate.ofEntry plan.roots.ending r).unit = false)
      (cached : plan.cache.read p.disk (Candidate.ofEntry plan.roots.ending r).unit =
        some artifact) :
      Move plan points ⟨p, [], ss, es⟩
        ⟨(p.skip (Candidate.ofEntry plan.roots.ending r).unit "already cached").record
          (Candidate.ofEntry plan.roots.ending r).unit (.archive r) artifact, [], ss, es⟩
  | begin {p ts ss es c goal archives} (offer : Offer plan points ⟨p, ts, ss, es⟩ c goal archives)
      (fresh : p.tracker.has c.unit = false) :
      Move plan points ⟨p, ts, ss, es⟩
        ⟨{ p with archives, tracker := (p.tracker.mark c.unit).2 }, ⟨c, goal, none⟩ :: ts, ss, es⟩
  | unread {p c goal ts ss es e archives} (loaded : p.load c.origin = (.error e, { p with archives })) :
      Move plan points ⟨p, ⟨c, goal, none⟩ :: ts, ss, es⟩
        ⟨Pass.fail c e.message none { p with archives }, ts, ss, es⟩
  | call {p c goal ts ss es content archives}
      (loaded : p.load c.origin = (.ok content, { p with archives })) :
      Move plan points ⟨p, ⟨c, goal, none⟩ :: ts, ss, es⟩
        ⟨{ p with archives, called := p.called ++ [⟨c.unit, c.origin, content⟩] },
          ⟨c, goal, some (plan.service p.called.length ⟨c.unit, c.origin, content⟩)⟩ :: ts, ss, es⟩
  | replace {p ts ss es} (loud : ¬ plan.service.Quiet) (d : Disk) :
      Move plan points ⟨p, ts, ss, es⟩ ⟨p.setDisk d, ts, ss, es⟩
  | reject {p c goal s ts ss es e} (ends : s.Ends (.error e)) :
      Move plan points ⟨p, ⟨c, goal, some s⟩ :: ts, ss, es⟩
        ⟨p.fail c e.message e.line, ts, ss, es⟩
  | deliver {p c goal s ts ss es artifact} (ends : s.Ends (.ok artifact)) :
      Move plan points ⟨p, ⟨c, goal, some s⟩ :: ts, ss, es⟩
        ⟨p.deliver plan c goal artifact, ts, ss, es⟩

/-- Any number of moves. -/
def Course (plan : Plan) (points : List String) : Stage → Stage → Prop :=
  Relation.ReflTransGen (Move plan points)

namespace Course

variable {a b c : Stage}

theorem refl (m : Stage) : Course plan points m m := Relation.ReflTransGen.refl

theorem of (h : Move plan points a b) : Course plan points a b := Relation.ReflTransGen.single h

theorem trans (first : Course plan points a b) (second : Course plan points b c) :
    Course plan points a c := Relation.ReflTransGen.trans first second

theorem invariant (property : Stage → Prop)
    (preserved : ∀ m next, property m → Move plan points m next → property next)
    (course : Course plan points a b) (initial : property a) : property b := by
  induction course with
  | refl => exact initial
  | tail _ move ih => exact preserved _ _ ih move

/-- An invariant may rely on where a course comes from and on where it leads. -/
theorem invariant_between (property : Stage → Prop)
    (preserved : ∀ m next, Course plan points a m → Course plan points next b → property m →
      Move plan points m next → property next)
    (course : Course plan points a b) (initial : property a) : property b := by
  have reached : ∀ c, Course plan points a c → Course plan points c b → property c := by
    intro c first
    induction first with
    | refl => exact fun _ => initial
    | tail before move ih =>
      exact fun rest => preserved _ _ before rest (ih ((Course.of move).trans rest)) move
  exact reached b course (.refl b)

end Course

namespace Pass

/-- Loading a source may open its archive and changes nothing else. -/
theorem load_rest {origin : Origin} {p after : Pass} {result : Except CompileError ByteArray}
    (loaded : p.load origin = (result, after)) :
    ∃ archives, (archives = p.archives ∨ ∃ r, archives = (p.archives.read p.disk r).2) ∧
      after = { p with archives } := by
  cases origin with
  | root _ path =>
    refine ⟨p.archives, .inl rfl, ?_⟩
    simp only [load] at loaded
    split at loaded <;> exact (Prod.mk.inj loaded).2.symm
  | archive entry => exact ⟨_, .inr ⟨entry, rfl⟩, (Prod.mk.inj loaded).2.symm⟩

theorem store_rest {plan : Plan} {u : UnitId} {goal : Destination} {artifact : ByteArray}
    {p after : Pass} {result : Except CacheError Unit}
    (stored : p.store plan u goal artifact = (result, after)) : ∃ d, after = p.setDisk d := by
  cases goal <;> exact ⟨_, (Prod.mk.inj stored).2.symm⟩

theorem removeSource_rest (origin : Origin) (goal : Destination) (p : Pass) :
    p.removeSource origin goal = p.setDisk (p.removeSource origin goal).disk := by
  unfold removeSource
  split <;> rfl

/-- An artifact is either not written, which is an error, or written and recorded. -/
theorem deliver_cases (plan : Plan) (c : Candidate) (goal : Destination) (artifact : ByteArray)
    (p : Pass) :
    (∃ e d, p.store plan c.unit goal artifact = (.error e, p.setDisk d) ∧
      p.deliver plan c goal artifact = (p.setDisk d).fail c e.message none) ∨
    (∃ d, p.store plan c.unit goal artifact = (.ok (), p.setDisk d) ∧
      p.deliver plan c goal artifact =
        { p.record c.unit c.origin artifact with
          disk := ((p.setDisk d).removeSource c.origin goal).disk
          log := p.log.addCompiled c.unit.logical c.name }) := by
  rcases stored : p.store plan c.unit goal artifact with ⟨e | _, after⟩
  · obtain ⟨d, rfl⟩ := store_rest stored
    exact .inl ⟨e, d, rfl, by simp only [deliver, stored]⟩
  · obtain ⟨d, rfl⟩ := store_rest stored
    refine .inr ⟨d, rfl, ?_⟩
    simp only [deliver, stored]
    rw [removeSource_rest]
    rfl

theorem locate_rest (plan : Plan) (u : UnitId) (p : Pass) :
    (p.locate plan u).2 = p ∨
      (p.locate plan u).2 = { p with archives := (p.archives.find p.disk u).2 } := by
  simp only [locate]
  split
  · exact .inl rfl
  · exact .inr rfl

/-- Records of earlier builds go into the manifest and nowhere else. -/
theorem carryOver_rest (plan : Plan) (previous : Option Manifest) (p : Pass) :
    p.carryOver plan previous = { p with manifest := (p.carryOver plan previous).manifest } := by
  cases previous <;> rfl

end Pass

/-! What is asked for while a unit is compiled is compiled on top of it. -/

section

variable {answer : String → Pass → Bool × Pass} {ss : List (SourceRoot × SourceFile)}
  {es : List EntryRef}

theorem Session.run_course
    (answers : ∀ symbol p ts, plan.Asks points symbol →
      Course plan points ⟨p, ts, ss, es⟩ ⟨(answer symbol p).2, ts, ss, es⟩)
    (c : Candidate) (goal : Destination) (ts : List Job) {whole : Session} (s : Session) (p : Pass)
    (ends : ∀ result, s.Ends result → whole.Ends result)
    (asks : ∀ symbol, s.Asks symbol → plan.Asks points symbol)
    (quiet : plan.service.Quiet → s.Quiet) :
    Course plan points ⟨p, ⟨c, goal, some whole⟩ :: ts, ss, es⟩
        ⟨(s.run answer Pass.disk Pass.setDisk p).2, ⟨c, goal, some whole⟩ :: ts, ss, es⟩ ∧
      whole.Ends (s.run answer Pass.disk Pass.setDisk p).1 := by
  induction s generalizing p with
  | finish artifact => exact ⟨Course.refl _, ends _ (.finish artifact)⟩
  | fail e => exact ⟨Course.refl _, ends _ (.fail e)⟩
  | breakdown b => exact ⟨Course.refl _, ends _ (.breakdown b)⟩
  | resolve symbol next ih =>
    have first := answers symbol p (⟨c, goal, some whole⟩ :: ts) (asks _ (.now symbol next))
    have rest := ih (answer symbol p).1 (answer symbol p).2
      (fun _ h => ends _ (.resolve h)) (fun _ h => asks _ (.resolve h)) (fun h => quiet h _)
    exact ⟨first.trans rest.1, rest.2⟩
  | look next ih =>
    exact ih p.disk p (fun _ h => ends _ (.look h)) (fun _ h => asks _ (.look h))
      (fun h => (quiet h).elim)
  | replace d next ih =>
    have first : Course plan points ⟨p, ⟨c, goal, some whole⟩ :: ts, ss, es⟩
        ⟨p.setDisk d, ⟨c, goal, some whole⟩ :: ts, ss, es⟩ := .of (.replace (fun h => quiet h) d)
    have rest := ih (p.setDisk d) (fun _ h => ends _ (.replace h)) (fun _ h => asks _ (.replace h))
      (fun h => (quiet h).elim)
    exact ⟨first.trans rest.1, rest.2⟩

theorem Pass.compile_course
    (answers : ∀ symbol p ts, plan.Asks points symbol →
      Course plan points ⟨p, ts, ss, es⟩ ⟨(answer symbol p).2, ts, ss, es⟩)
    (c : Candidate) (goal : Destination) (ts : List Job) (p : Pass) :
    Course plan points ⟨p, ⟨c, goal, none⟩ :: ts, ss, es⟩
      ⟨p.compile plan answer c goal, ts, ss, es⟩ := by
  rcases loaded : p.load c.origin with ⟨e | content, after⟩
  · obtain ⟨archives, _, rfl⟩ := load_rest loaded
    simp only [compile, loaded]
    exact .of (.unread loaded)
  · obtain ⟨archives, _, rfl⟩ := load_rest loaded
    have called : Course plan points ⟨p, ⟨c, goal, none⟩ :: ts, ss, es⟩ _ := .of (.call loaded)
    have talked := Session.run_course answers c goal ts
      (plan.service p.called.length ⟨c.unit, c.origin, content⟩)
      { p with archives, called := p.called ++ [⟨c.unit, c.origin, content⟩] }
      (fun _ h => h) (fun _ h => .inr ⟨_, _, h⟩) (fun quiet => quiet _ _)
    rcases said : call plan answer c content { p with archives } with ⟨e | artifact, after⟩
    all_goals
      simp only [compile, loaded, said]
      simp only [call] at said
      rw [said] at talked
    · exact (called.trans talked.1).trans (.of (.reject talked.2))
    · exact (called.trans talked.1).trans (.of (.deliver talked.2))

theorem Pass.resolve_course (depth : Nat) (symbol : String) (p : Pass) (ts : List Job)
    (asked : plan.Asks points symbol) :
    Course plan points ⟨p, ts, ss, es⟩ ⟨(resolve plan depth symbol p).2, ts, ss, es⟩ := by
  induction depth generalizing symbol p ts with
  | zero => exact .refl _
  | succ depth ih =>
    simp only [resolve]
    split
    · exact .refl _
    rename_i named
    split
    · exact .refl _
    rename_i fresh
    have searched : Course plan points ⟨p, ts, ss, es⟩
        ⟨(p.locate plan (.ofSymbol symbol)).2, ts, ss, es⟩ := by
      rcases locate_rest plan (.ofSymbol symbol) p with same | same
      · rw [same]; exact .refl _
      · rw [same]; exact .of (.search _)
    have changes := locate_rest plan (.ofSymbol symbol) p
    rcases located : p.locate plan (.ofSymbol symbol) with ⟨_ | c, after⟩
    · simpa [located] using searched
    rw [located] at searched changes
    obtain ⟨archives, rfl⟩ : ∃ archives, after = { p with archives } := by
      rcases changes with rfl | rfl
      · exact ⟨_, rfl⟩
      · exact ⟨_, rfl⟩
    by_cases known : p.tracker.has c.unit = true
    · simpa [Tracker.mark, known] using searched
    · have offer : Offer plan points ⟨p, ts, ss, es⟩ c (plan.destination c.origin) archives :=
        .asked symbol asked (by simpa using named) (by simpa using fresh) located
      have begun : Course plan points ⟨p, ts, ss, es⟩ _ := .of (.begin offer (by simpa using known))
      have compiled := compile_course ih c (plan.destination c.origin) ts
        { p with archives, tracker := (p.tracker.mark c.unit).2 }
      simpa [Tracker.mark, known] using begun.trans compiled

/-! The sweeps. -/

namespace Pass

theorem unlessStopped_course {work : Pass → Pass} (p : Pass)
    (working : ∀ q, Course plan points ⟨q, [], ss, es⟩ ⟨work q, [], ss, es⟩) :
    Course plan points ⟨p, [], ss, es⟩ ⟨p.unlessStopped plan work, [], ss, es⟩ := by
  have checked : Course plan points ⟨p, [], ss, es⟩ ⟨(p.check plan).2, [], ss, es⟩ := .of .check
  simp only [unlessStopped]
  split
  · exact checked
  · exact checked.trans (working _)

theorem enter_course (depth : Nat) {symbol : String} (entered : symbol ∈ points) (p : Pass) :
    Course plan points ⟨p, [], ss, es⟩ ⟨p.enter plan depth symbol, [], ss, es⟩ :=
  unlessStopped_course p fun q => resolve_course depth symbol q [] (.inl entered)

theorem take_course (depth : Nat) {c : Candidate} {goal : Destination} {p : Pass}
    (offer : Offer plan points ⟨p, [], ss, es⟩ c goal p.archives)
    (fresh : p.tracker.has c.unit = false) :
    Course plan points ⟨p, [], ss, es⟩ ⟨p.take plan depth c goal, [], ss, es⟩ :=
  (Course.of (.begin offer fresh)).trans
    (compile_course (fun symbol q ts => resolve_course depth symbol q ts) c goal [] _)

theorem sweepSource_course (depth : Nat) {root : SourceRoot} {f : SourceFile}
    (listed : (root, f) ∈ ss) (declared : root.generated = false) (p : Pass) :
    Course plan points ⟨p, [], ss, es⟩ ⟨p.sweepSource plan depth f, [], ss, es⟩ := by
  apply unlessStopped_course
  intro q
  split
  · rename_i done
    exact .of (.pass done)
  rename_i fresh
  split
  · rename_i winner found
    split
    · rename_i above
      exact .of (.yield listed (by simpa using fresh) found above)
    · rename_i below
      refine take_course depth (.source listed declared ?_) (by simpa [Candidate.ofSource] using fresh)
      intro other same
      rw [found] at same
      cases same
      exact Nat.not_lt.mp below
  · rename_i missing
    refine take_course depth (.source listed declared ?_) (by simpa [Candidate.ofSource] using fresh)
    simp [missing]

theorem sweepGeneratedSource_course (depth : Nat) {root : SourceRoot} {f : SourceFile}
    (listed : (root, f) ∈ ss) (generated : root.generated = true) (p : Pass) :
    Course plan points ⟨p, [], ss, es⟩ ⟨p.sweepGeneratedSource plan depth f, [], ss, es⟩ := by
  apply unlessStopped_course
  intro q
  split
  · rename_i done
    exact .of (.pass done)
  · rename_i fresh
    exact take_course depth (.generated listed generated)
      (by simpa [Candidate.ofSource] using fresh)

theorem sweepEntry_course (depth : Nat) {archive : Path} {entry : String}
    (listed : ⟨archive, entry⟩ ∈ es) (p : Pass) :
    Course plan points ⟨p, [], ss, es⟩ ⟨p.sweepEntry plan depth archive entry, [], ss, es⟩ := by
  apply unlessStopped_course
  intro q
  dsimp only
  split
  · rename_i done
    exact .of (.pass done)
  rename_i fresh
  split
  · rename_i cached
    exact .of (.keep listed (by simpa using fresh) cached)
  · rename_i missing
    exact take_course depth (.entry listed missing) (by simpa using fresh)

end Pass

section

variable {α : Type} {visit : Pass → α → Pass}

theorem foldl_course {all : List α} (p : Pass) (visits : ∀ x ∈ all, ∀ q,
      Course plan points ⟨q, [], ss, es⟩ ⟨visit q x, [], ss, es⟩) :
    Course plan points ⟨p, [], ss, es⟩ ⟨all.foldl visit p, [], ss, es⟩ := by
  induction all generalizing p with
  | nil => exact .refl _
  | cons x rest ih =>
    exact (visits x (by simp) p).trans (ih _ fun y member => visits y (by simp [member]))

end

end

/-! Along a course archives are looked into and nothing else is done to them. -/

theorem Offer.archives {m : Stage} {c : Candidate} {goal : Destination} {archives : Archives}
    (offer : Offer plan points m c goal archives) : archives = m.pass.archives ∨
      ∃ u, archives = (m.pass.archives.find m.pass.disk u).2 := by
  cases offer with
  | @asked p _ _ _ _ _ symbol _ _ _ located =>
    have changes := Pass.locate_rest plan (.ofSymbol symbol) p
    rw [located] at changes
    rcases changes with same | found
    · exact .inl (congrArg Pass.archives same)
    · exact .inr ⟨_, congrArg Pass.archives found⟩
  | source | generated | entry => exact .inl rfl

/-- A move looks into archives on the disk as it is then. -/
theorem Move.looks {m next : Stage} (keeps : Archives → Prop)
    (find : ∀ u, keeps m.pass.archives → keeps (m.pass.archives.find m.pass.disk u).2)
    (entries : ∀ p, keeps m.pass.archives → keeps (m.pass.archives.entries m.pass.disk p).2)
    (read : ∀ r, keeps m.pass.archives → keeps (m.pass.archives.read m.pass.disk r).2)
    (move : Move plan points m next) (kept : keeps m.pass.archives) : keeps next.pass.archives := by
  cases move with
  | search u => exact find _ kept
  | unpack known => exact entries _ kept
  | begin offer fresh =>
    rcases offer.archives with same | ⟨u, found⟩
    · exact same ▸ kept
    · exact found ▸ find u kept
  | unread loaded | call loaded =>
    obtain ⟨archives, looked, equal⟩ := Pass.load_rest loaded
    have here := congrArg Pass.archives equal
    rcases looked with same | ⟨r, opened⟩
    · exact (here.trans same) ▸ kept
    · exact (here.trans opened) ▸ read r kept
  | @deliver p c goal _ _ _ _ artifact _ =>
    rcases p.deliver_cases plan c goal artifact with ⟨_, _, _, h⟩ | ⟨_, _, h⟩
    · rw [h]; exact kept
    · rw [h]; exact kept
  | _ => exact kept

theorem Course.looks {a b : Stage} (keeps : Archives → Prop)
    (find : ∀ as d u, keeps as → keeps (as.find d u).2)
    (entries : ∀ as d p, keeps as → keeps (as.entries d p).2)
    (read : ∀ as d r, keeps as → keeps (as.read d r).2)
    (course : Course plan points a b) (initial : keeps a.pass.archives) :
    keeps b.pass.archives :=
  course.invariant (fun m => keeps m.pass.archives)
    (fun _ _ kept move => move.looks keeps (find _ _) (entries _ _) (read _ _) kept) initial

theorem Course.paths {a b : Stage} (course : Course plan points a b) :
    b.pass.archives.paths = a.pass.archives.paths :=
  course.looks (·.paths = a.pass.archives.paths) (fun _ _ _ same => by simpa using same)
    (fun _ _ _ same => by simpa using same) (fun _ _ _ same => by simpa using same) rfl

/-- Work between two passes with no unit in hand, whatever was listed before. It may be work that
opens archives to list what they hold. -/
def Leads (plan : Plan) (points : List String) (opens : Prop) (p q : Pass) : Prop :=
  ∀ ss es, ∃ ss' es', (es' = es ∨ opens) ∧ Course plan points ⟨p, [], ss, es⟩ ⟨q, [], ss', es'⟩

namespace Leads

variable {opens : Prop} {p q r : Pass}

theorem refl (p : Pass) : Leads plan points opens p p :=
  fun ss es => ⟨ss, es, .inl rfl, .refl _⟩

theorem trans (first : Leads plan points opens p q) (second : Leads plan points opens q r) :
    Leads plan points opens p r := by
  intro ss es
  obtain ⟨ss', es', kept, before⟩ := first ss es
  obtain ⟨ss'', es'', same, after⟩ := second ss' es'
  refine ⟨ss'', es'', ?_, before.trans after⟩
  rcases kept with rfl | opened
  · exact same
  · exact .inr opened

theorem mono {wider : Prop} (leads : Leads plan points opens p q) (wide : opens → wider) :
    Leads plan points wider p q := by
  intro ss es
  obtain ⟨ss', es', kept, course⟩ := leads ss es
  exact ⟨ss', es', kept.imp id wide, course⟩

theorem of_course (course : ∀ ss es, Course plan points ⟨p, [], ss, es⟩ ⟨q, [], ss, es⟩) :
    Leads plan points opens p q := fun ss es => ⟨ss, es, .inl rfl, course ss es⟩

theorem paths (leads : Leads plan points opens p q) : q.archives.paths = p.archives.paths := by
  obtain ⟨_, _, _, course⟩ := leads [] []
  exact course.paths

theorem foldl {α : Type} {visit : Pass → α → Pass} {all : List α}
    (visits : ∀ x ∈ all, ∀ q, Leads plan points opens p q → Leads plan points opens q (visit q x)) :
    Leads plan points opens p (all.foldl visit p) := by
  induction all using List.reverseRecOn with
  | nil => exact .refl p
  | append_singleton before x ih =>
    have first := ih fun y member => visits y (by simp [member])
    simpa using first.trans (visits x (by simp) _ first)

end Leads

namespace Pass

theorem sweepRoot_leads (depth : Nat) {root : SourceRoot} (known : root ∈ plan.roots.roots)
    (declared : root.generated = false) (p : Pass) :
    Leads plan points False p (p.sweepRoot plan depth root) := by
  intro ss es
  refine ⟨_, es, .inl rfl, (Course.of (.list known)).trans (foldl_course p ?_)⟩
  intro f member q
  exact sweepSource_course depth (by simpa using .inr member) declared q

theorem sweepRoots_leads (depth : Nat) (p : Pass) :
    Leads plan points False p (p.sweepRoots plan depth) := by
  apply Leads.foldl
  intro root member q _
  obtain ⟨known, declared⟩ := List.mem_filter.mp member
  exact sweepRoot_leads depth known (by simpa using declared) q

theorem sweepGenerated_leads (depth : Nat) (p : Pass) :
    Leads plan points False p (p.sweepGenerated plan depth) := by
  unfold sweepGenerated
  split
  · rename_i root found
    intro ss es
    refine ⟨_, es, .inl rfl,
      (Course.of (.list (List.mem_of_find?_eq_some found))).trans (foldl_course p ?_)⟩
    intro f member q
    have listed : (root, f) ∈ ss ++ (plan.roots.sweep p.disk root).map (root, ·) := by
      simpa using .inr member
    exact sweepGeneratedSource_course depth listed (by simpa using List.find?_some found) q
  · exact .refl p

theorem sweepArchive_leads (depth : Nat) {archive : Path} {p : Pass}
    (known : archive ∈ p.archives.paths) :
    Leads plan points True p (p.sweepArchive plan depth archive) := by
  intro ss es
  refine ⟨ss, _, .inr trivial, (Course.of (.unpack known)).trans (foldl_course _ ?_)⟩
  intro entry member q
  exact sweepEntry_course depth (by simpa using .inr member) q

theorem sweepArchives_leads (depth : Nat) (p : Pass) :
    Leads plan points True p (p.sweepArchives plan depth) := by
  apply Leads.foldl
  intro archive member q leads
  exact sweepArchive_leads depth (by rwa [leads.paths])

/-- The entry points and all roots, before any archive is swept. -/
def sweepSources (plan : Plan) (depth : Nat) (points : List String) (p : Pass) : Pass :=
  ((points.foldl (Pass.enter plan depth) p).sweepRoots plan depth).sweepGenerated plan depth

theorem sweepSources_leads (depth : Nat) (p : Pass) :
    Leads plan points False p (p.sweepSources plan depth points) := by
  have entered : Leads plan points False p (points.foldl (Pass.enter plan depth) p) :=
    Leads.foldl fun symbol member q _ => .of_course fun _ _ => enter_course depth member q
  exact (entered.trans (sweepRoots_leads depth _)).trans (sweepGenerated_leads depth _)

theorem sweep_leads (depth : Nat) (p : Pass) :
    Leads plan points True p (p.sweep plan depth points) :=
  ((sweepSources_leads depth p).mono False.elim).trans (sweepArchives_leads depth _)

end Pass

namespace Builder

/-- A build before its first move. -/
def opening (b : Builder) (env : Environment) (heard : Bool) (d : Disk) (called : List UnitSource) :
    Pass :=
  { disk := d, archives := b.archives, tracker := .empty, log := .start heard,
    manifest := .new version env, called, checks := 0, cancelled := false }

/-- A build after its last move. -/
def closing (b : Builder) (env : Environment) (heard : Bool) (cancel : Cancel) (d : Disk)
    (called : List UnitSource) : Pass :=
  (b.opening env heard d called).sweep (b.plan env cancel) (b.reach env d + spareDepth)
    b.layout.naming.entryPoints

theorem fill_eq (b : Builder) (env : Environment) (heard : Bool) (cancel : Cancel) (d : Disk)
    (called : List UnitSource) :
    b.fill env heard cancel d called = (b.closing env heard cancel d called).carryOver
      (b.plan env cancel) (Manifest.load d b.layout.cache).toOption.join := rfl

theorem closing_leads (b : Builder) (env : Environment) (heard : Bool) (cancel : Cancel) (d : Disk)
    (called : List UnitSource) :
    Leads (b.plan env cancel) b.layout.naming.entryPoints True (b.opening env heard d called)
      (b.closing env heard cancel d called) := Pass.sweep_leads _ _

/-- Asking for the settings may change the settings. -/
theorem wanted_rest {env : Environment} {s after : Site} {result : Except BuildError Bool}
    (asked : wanted env s = (result, after)) : ∃ settings, after = { s with settings } := by
  unfold wanted at asked
  split at asked
  · split at asked <;> exact ⟨_, (Prod.mk.inj asked).2.symm⟩
  · exact ⟨s.settings, (Prod.mk.inj asked).2.symm⟩

/-- A compilation that ends well did nothing or filled the cache. -/
theorem compile_cases {b : Builder} {env : Environment} {heard : Bool} {cancel : Cancel}
    {s s' : Site} {summary : Summary} (built : b.compile env heard cancel s = (.ok summary, s')) :
    (summary = {} ∧ s'.disk = s.disk ∧ s'.called = s.called) ∨
      ∃ d, b.cache.ensureFolder s.disk = (.ok (), d) ∧
        summary = summarize (b.fill env heard cancel d s.called) ∧
        s'.disk = ((b.fill env heard cancel d s.called).manifest.save
          (b.closing env heard cancel d s.called).disk b.layout.cache).2 ∧
        s'.called = (b.closing env heard cancel d s.called).called := by
  rcases asked : wanted env s with ⟨e | _ | _, after⟩
  all_goals
    obtain ⟨settings, rfl⟩ := wanted_rest asked
    simp only [compile, asked] at built
  · cases (Prod.mk.inj built).1
  · simp only [Prod.mk.injEq, Except.ok.injEq] at built
    obtain ⟨rfl, rfl⟩ := built
    exact .inl ⟨rfl, rfl, rfl⟩
  · rcases made : b.cache.ensureFolder s.disk with ⟨e | _, d⟩
    · simp [made] at built
    · simp only [made, Prod.mk.injEq, Except.ok.injEq] at built
      obtain ⟨rfl, rfl⟩ := built
      refine .inr ⟨d, rfl, rfl, ?_⟩
      rw [b.fill_eq env heard cancel d s.called, Pass.carryOver_rest]
      generalize b.closing env heard cancel d s.called = p
      exact ⟨rfl, rfl⟩

variable {b : Builder} {env : Environment} {heard : Bool} {cancel : Cancel} {s s' : Site}
  {summary : Summary}

/-- A build of a site before its first move. -/
def start (b : Builder) (env : Environment) (heard : Bool) (s : Site) : Pass :=
  b.opening env heard (b.cache.ensureFolder s.disk).2 s.called

/-- How deep compilations of a site may nest. -/
def depthAt (b : Builder) (env : Environment) (s : Site) : Nat :=
  b.reach env (b.cache.ensureFolder s.disk).2 + spareDepth

/-- A build of a site once all roots are swept. -/
def swept (b : Builder) (env : Environment) (heard : Bool) (cancel : Cancel) (s : Site) : Pass :=
  (b.start env heard s).sweepSources (b.plan env cancel) (b.depthAt env s)
    b.layout.naming.entryPoints

/-- A build of a site after its last move. -/
def settled (b : Builder) (env : Environment) (heard : Bool) (cancel : Cancel) (s : Site) : Pass :=
  (b.swept env heard cancel s).sweepArchives (b.plan env cancel) (b.depthAt env s)

/-- The manifest that a build starts from. -/
def previous (b : Builder) (s : Site) : Option Manifest :=
  (Manifest.load (b.cache.ensureFolder s.disk).2 b.layout.cache).toOption.join

/-- The manifest that a build tries to save. -/
def filled (b : Builder) (env : Environment) (heard : Bool) (cancel : Cancel) (s : Site) : Manifest :=
  ((b.settled env heard cancel s).carryOver (b.plan env cancel) (b.previous s)).manifest

theorem compile_summarizes (built : b.compile env heard cancel s = (.ok summary, s'))
    (ran : summary.ran = true) : summary = summarize (b.settled env heard cancel s) ∧
      s'.called = (b.settled env heard cancel s).called ∧
      b.cache.ensureFolder s.disk = (.ok (), (b.cache.ensureFolder s.disk).2) := by
  rcases compile_cases built with ⟨rfl, _, _⟩ | ⟨d, ensured, rfl, _, called⟩
  · cases ran
  have same : d = (b.cache.ensureFolder s.disk).2 := by rw [ensured]
  rw [same] at called ensured ⊢
  have last : b.closing env heard cancel (b.cache.ensureFolder s.disk).2 s.called =
      b.settled env heard cancel s := rfl
  refine ⟨?_, called.trans (congrArg Pass.called last), ensured⟩
  rw [fill_eq, Pass.carryOver_rest, last]
  generalize b.settled env heard cancel s = q
  rfl

/-- A compilation that ran tells what is settled in the end. -/
theorem compile_settled (built : b.compile env heard cancel s = (.ok summary, s'))
    (ran : summary.ran = true) : summary.events = (b.settled env heard cancel s).log.events ∧
      summary.resolved = (b.settled env heard cancel s).tracker.names ∧
      summary.cancelled = (b.settled env heard cancel s).cancelled ∧
      s'.called = (b.settled env heard cancel s).called ∧
      b.cache.ensureFolder s.disk = (.ok (), (b.cache.ensureFolder s.disk).2) := by
  obtain ⟨same, called, ensured⟩ := compile_summarizes built ran
  refine ⟨?_, ?_, ?_, called, ensured⟩
  all_goals
    rw [same, summarize]

theorem compile_saves (built : b.compile env heard cancel s = (.ok summary, s'))
    (ran : summary.ran = true) : s'.disk =
      ((b.filled env heard cancel s).save (b.settled env heard cancel s).disk b.layout.cache).2 := by
  rcases compile_cases built with ⟨rfl, _, _⟩ | ⟨d, ensured, rfl, disk, _⟩
  · cases ran
  have same : d = (b.cache.ensureFolder s.disk).2 := by rw [ensured]
  rw [disk, same]
  rfl

/-- The compiler is called by what fills the cache alone. -/
theorem compile_called (b : Builder) (env : Environment) (heard : Bool) (cancel : Cancel) (s : Site) :
    (b.compile env heard cancel s).2.called = s.called ∨
      (b.compile env heard cancel s).2.called = (b.settled env heard cancel s).called := by
  rcases asked : wanted env s with ⟨e | _ | _, after⟩
  all_goals
    obtain ⟨settings, rfl⟩ := wanted_rest asked
    simp only [compile, asked]
  · exact .inl trivial
  · exact .inl trivial
  · rcases made : b.cache.ensureFolder s.disk with ⟨e | _, d⟩
    · exact .inl rfl
    · right
      have filled : (b.fill env heard cancel d s.called).called =
          (b.closing env heard cancel d s.called).called := by
        rw [fill_eq, Pass.carryOver_rest]
      have here : b.settled env heard cancel s = b.closing env heard cancel d s.called := by
        rw [show d = (b.cache.ensureFolder s.disk).2 by rw [made]]
        rfl
      rw [here, ← filled]

/-- A build that is to fill the cache and can make its folder runs, and tells of what it settles. -/
theorem compile_runs (asked : (wanted env s).1.toOption = some true)
    (opened : (b.cache.ensureFolder s.disk).1.toOption = some ()) :
    ∃ summary s', b.compile env heard cancel s = (.ok summary, s') ∧ summary.ran = true ∧
      summary.cancelled = (b.settled env heard cancel s).cancelled ∧
      summary.events = (b.settled env heard cancel s).log.events ∧
      s'.called = (b.settled env heard cancel s).called := by
  rcases answered : wanted env s with ⟨_ | wanted, after⟩
  · simp [answered, Except.toOption] at asked
  obtain ⟨settings, rfl⟩ := wanted_rest answered
  simp only [answered, Except.toOption, Option.some.injEq] at asked
  subst asked
  rcases ensured : b.cache.ensureFolder s.disk with ⟨_ | _, d⟩
  · simp [ensured, Except.toOption] at opened
  obtain ⟨s', built⟩ : ∃ s', b.compile env heard cancel s =
      (.ok (summarize (b.fill env heard cancel d s.called)), s') := by
    simp only [compile, answered, ensured]
    exact ⟨_, rfl⟩
  obtain ⟨events, _, cancelled, called, _⟩ := compile_settled built rfl
  exact ⟨_, s', built, rfl, cancelled, events, called⟩

/-- A build runs once it was prepared, where the cache is wanted and can be opened. -/
theorem build_runs {preparation : Preparation} {prior : Disk}
    (prepared : b.prepare s.disk = (.ok preparation, prior))
    (asked : (wanted env { s with disk := prior }).1.toOption = some true)
    (opened : (b.cache.ensureFolder prior).1.toOption = some ()) : ∃ summary s',
      b.build env heard cancel s = (.ok ⟨preparation, summary⟩, s') ∧
      b.compile env heard cancel { s with disk := prior } = (.ok summary, s') ∧
      summary.ran = true := by
  obtain ⟨summary, s', compiled, ran, _⟩ := @compile_runs b env heard cancel _ asked opened
  exact ⟨summary, s', by simp only [build, prepared, compiled], compiled, ran⟩

end Builder
end LayerCache
