import LayerCache.Proofs.Build.Coverage

/-! What a build learns of its compiler is what the compiler says in the calls the build makes.
Another compiler that says the same in these calls makes the same build. -/
namespace LayerCache

open Classical in
/-- A compiler that speaks in some calls only. -/
noncomputable def Service.within (service : Service) (calls : List UnitSource) : Service :=
  fun n u => if calls[n]? = some u then service n u else .finish .empty

/-- Another compiler says the same in all calls that were made. -/
def Service.Concurs (service other : Service) (p : Pass) : Prop :=
  ∀ n u, p.called[n]? = some u → other n u = service n u

namespace Service

variable {service other : Service} {p q : Pass}

theorem Concurs.before (concurs : service.Concurs other q) (grows : p.called <+: q.called) :
    service.Concurs other p := by
  intro n u called
  obtain ⟨more, later⟩ := grows
  refine concurs n u ?_
  rw [← later, List.getElem?_append_left (List.getElem?_eq_some_iff.mp called).1, called]

theorem concurs_within (service : Service) (p : Pass) :
    service.Concurs (service.within p.called) p := by
  intro n u called
  exact if_pos called

theorem within_cases (service : Service) (calls : List UnitSource) (n : Nat) (u : UnitSource) :
    service.within calls n u = .finish .empty ∨
      calls[n]? = some u ∧ service.within calls n u = service n u := by
  by_cases called : calls[n]? = some u
  · exact .inr ⟨called, if_pos called⟩
  · exact .inl (if_neg called)

theorem quiet_within (quiet : service.Quiet) (calls : List UnitSource) :
    (service.within calls).Quiet := by
  intro n u
  rcases service.within_cases calls n u with silent | ⟨_, same⟩
  · rw [silent]
    trivial
  · rw [same]
    exact quiet n u

end Service

/-- The same plan with another compiler. -/
def Plan.withService (plan : Plan) (other : Service) : Plan := { plan with service := other }

/-- A part of a build that only adds calls, and goes the same way with a compiler that says the
same in them. -/
def Service.Echoes (service other : Service) (work again : Pass → Pass) : Prop :=
  ∀ p, p.called <+: (work p).called ∧ (service.Concurs other (work p) → again p = work p)

/-- The same of an answer to the compiler. -/
def Service.Answers (service other : Service) (answer reply : String → Pass → Bool × Pass) : Prop :=
  ∀ symbol p, p.called <+: (answer symbol p).2.called ∧
    (service.Concurs other (answer symbol p).2 → reply symbol p = answer symbol p)

namespace Service.Echoes

variable {service other : Service} {work again more further : Pass → Pass}

theorem comp (first : service.Echoes other work again) (second : service.Echoes other more further) :
    service.Echoes other (fun p => more (work p)) (fun p => further (again p)) := by
  intro p
  obtain ⟨grows, same⟩ := first p
  obtain ⟨longer, alike⟩ := second (work p)
  refine ⟨grows.trans longer, fun concurs => ?_⟩
  simp only [same (concurs.before longer)]
  exact alike concurs

theorem foldl {α : Type} {visit revisit : Pass → α → Pass} (all : List α)
    (echoes : ∀ x, service.Echoes other (visit · x) (revisit · x)) :
    service.Echoes other (all.foldl visit ·) (all.foldl revisit ·) := by
  induction all with
  | nil => exact fun _ => ⟨List.prefix_rfl, fun _ => rfl⟩
  | cons x rest ih => exact (echoes x).comp ih

end Service.Echoes

section

variable {plan : Plan} {other : Service}

theorem Session.run_echoes {answer reply : String → Pass → Bool × Pass}
    (answers : plan.service.Answers other answer reply) (s : Session) (p : Pass) :
    p.called <+: (s.run answer Pass.disk Pass.setDisk p).2.called ∧
      (plan.service.Concurs other (s.run answer Pass.disk Pass.setDisk p).2 →
        s.run reply Pass.disk Pass.setDisk p = s.run answer Pass.disk Pass.setDisk p) := by
  induction s generalizing p with
  | finish | fail | breakdown => exact ⟨List.prefix_rfl, fun _ => rfl⟩
  | resolve symbol next ih =>
    obtain ⟨grows, same⟩ := answers symbol p
    obtain ⟨longer, again⟩ := ih (answer symbol p).1 (answer symbol p).2
    refine ⟨grows.trans longer, fun concurs => ?_⟩
    simp only [Session.run, same (concurs.before longer)]
    exact again concurs
  | look next ih => exact ih p.disk p
  | replace d next ih => exact ih (p.setDisk d)

namespace Pass

theorem called_deliver (c : Candidate) (goal : Destination) (artifact : ByteArray) (p : Pass) :
    (p.deliver plan c goal artifact).called = p.called := by
  rcases p.deliver_cases plan c goal artifact with ⟨_, _, _, after⟩ | ⟨_, _, after⟩
  · simp only [after, fail, setDisk]
  · simp only [after, record]

theorem deliver_withService (c : Candidate) (goal : Destination) (artifact : ByteArray) (p : Pass) :
    p.deliver (plan.withService other) c goal artifact = p.deliver plan c goal artifact := by
  simp only [deliver, store, Plan.withService]

theorem locate_withService (u : UnitId) (p : Pass) :
    p.locate (plan.withService other) u = p.locate plan u := by
  simp only [locate, Plan.withService]

section

variable {answer reply : String → Pass → Bool × Pass}
  (answers : plan.service.Answers other answer reply)

include answers

theorem call_echoes (c : Candidate) (content : ByteArray) (p : Pass) :
    p.called <+: (p.call plan answer c content).2.called ∧
      (plan.service.Concurs other (p.call plan answer c content).2 →
        p.call (plan.withService other) reply c content = p.call plan answer c content) := by
  obtain ⟨longer, again⟩ := Session.run_echoes answers
    (plan.service p.called.length ⟨c.unit, c.origin, content⟩)
    { p with called := p.called ++ [⟨c.unit, c.origin, content⟩] }
  refine ⟨(List.prefix_append p.called _).trans longer, fun concurs => ?_⟩
  have last : (p.called ++ [(⟨c.unit, c.origin, content⟩ : UnitSource)])[p.called.length]? =
      some ⟨c.unit, c.origin, content⟩ := by simp
  have spoken := concurs.before longer p.called.length ⟨c.unit, c.origin, content⟩ last
  simp only [call, Plan.withService, spoken]
  exact again concurs

theorem compile_echoes (c : Candidate) (goal : Destination) : plan.service.Echoes other
    (·.compile plan answer c goal) (·.compile (plan.withService other) reply c goal) := by
  intro p
  rcases loaded : p.load c.origin with ⟨e | content, q⟩
  all_goals
    obtain ⟨archives, _, rfl⟩ := load_rest loaded
    simp only [compile, loaded]
  · exact ⟨List.prefix_rfl, fun _ => trivial⟩
  · obtain ⟨longer, again⟩ := call_echoes answers c content { p with archives }
    generalize call plan answer c content { p with archives } = said at longer again ⊢
    rcases said with ⟨e | artifact, q⟩
    · exact ⟨longer, fun concurs => by rw [again concurs]⟩
    · dsimp only
      rw [called_deliver]
      refine ⟨longer, fun concurs => ?_⟩
      have before : plan.service.Concurs other q :=
        concurs.before (by simp only [called_deliver, List.prefix_rfl])
      rw [again before]
      exact deliver_withService c goal artifact q

end

theorem resolve_echoes (depth : Nat) : plan.service.Answers other (resolve plan depth)
    (resolve (plan.withService other) depth) := by
  induction depth with
  | zero => exact fun _ _ => ⟨List.prefix_rfl, fun _ => rfl⟩
  | succ depth ih =>
    intro symbol p
    have rest := p.locate_rest plan (.ofSymbol symbol)
    simp only [resolve, locate_withService]
    split
    · exact ⟨List.prefix_rfl, fun _ => rfl⟩
    split
    · exact ⟨List.prefix_rfl, fun _ => rfl⟩
    rcases located : p.locate plan (.ofSymbol symbol) with ⟨_ | c, q⟩
    all_goals
      rw [located] at rest
      have called : q.called = p.called := by
        rcases rest with rfl | rfl
        · rfl
        · rfl
      dsimp only
      rw [← called]
    · exact ⟨List.prefix_rfl, fun _ => rfl⟩
    · split
      · obtain ⟨grows, same⟩ := compile_echoes ih c (plan.destination c.origin)
          { q with tracker := (q.tracker.mark c.unit).2 }
        exact ⟨grows, fun concurs => congrArg (Prod.mk true) (same concurs)⟩
      · exact ⟨List.prefix_rfl, fun _ => rfl⟩

theorem unlessStopped_echoes {work again : Pass → Pass} (echoes : plan.service.Echoes other work again) :
    plan.service.Echoes other (·.unlessStopped plan work) (·.unlessStopped (plan.withService other) again) := by
  intro p
  have checked : p.check (plan.withService other) = p.check plan := rfl
  simp only [unlessStopped, checked]
  split
  · exact ⟨List.prefix_rfl, fun _ => rfl⟩
  · exact echoes (p.check plan).2

theorem enter_echoes (depth : Nat) (symbol : String) : plan.service.Echoes other
    (·.enter plan depth symbol) (·.enter (plan.withService other) depth symbol) := by
  refine unlessStopped_echoes fun p => ?_
  obtain ⟨grows, same⟩ := @resolve_echoes plan other depth symbol p
  exact ⟨grows, fun concurs => congrArg Prod.snd (same concurs)⟩

theorem take_echoes (depth : Nat) (c : Candidate) (goal : Destination) : plan.service.Echoes other
    (·.take plan depth c goal) (·.take (plan.withService other) depth c goal) :=
  fun p => compile_echoes (resolve_echoes depth) c goal { p with tracker := (p.tracker.mark c.unit).2 }

theorem sweepSource_echoes (depth : Nat) (f : SourceFile) : plan.service.Echoes other
    (·.sweepSource plan depth f) (·.sweepSource (plan.withService other) depth f) := by
  refine unlessStopped_echoes fun p => ?_
  have taken := @take_echoes plan other depth (.ofSource f) .cache p
  have found : (plan.withService other).roots.resolve p.disk f.unit = plan.roots.resolve p.disk f.unit := rfl
  rw [found]
  split
  · exact ⟨List.prefix_rfl, fun _ => rfl⟩
  split
  · split
    · exact ⟨List.prefix_rfl, fun _ => rfl⟩
    · exact taken
  · exact taken

theorem sweepGeneratedSource_echoes (depth : Nat) (f : SourceFile) : plan.service.Echoes other
    (·.sweepGeneratedSource plan depth f) (·.sweepGeneratedSource (plan.withService other) depth f) := by
  refine unlessStopped_echoes fun p => ?_
  split
  · exact ⟨List.prefix_rfl, fun _ => rfl⟩
  · exact take_echoes depth (.ofSource f) (.beside (plan.besideSource f.path)) p

theorem sweepEntry_echoes (depth : Nat) (archive : Path) (entry : String) : plan.service.Echoes other
    (·.sweepEntry plan depth archive entry) (·.sweepEntry (plan.withService other) depth archive entry) := by
  have ending : (plan.withService other).roots.ending = plan.roots.ending := rfl
  simp only [sweepEntry, ending]
  generalize Candidate.ofEntry plan.roots.ending ⟨archive, entry⟩ = c
  refine unlessStopped_echoes fun p => ?_
  have cached : (plan.withService other).cache.read p.disk c.unit = plan.cache.read p.disk c.unit := rfl
  rw [cached]
  split
  · exact ⟨List.prefix_rfl, fun _ => rfl⟩
  split
  · exact ⟨List.prefix_rfl, fun _ => rfl⟩
  · exact take_echoes depth c .cache p

theorem sweepRoot_echoes (depth : Nat) (root : SourceRoot) : plan.service.Echoes other
    (·.sweepRoot plan depth root) (·.sweepRoot (plan.withService other) depth root) :=
  fun p => Service.Echoes.foldl (plan.roots.sweep p.disk root) (sweepSource_echoes depth) p

theorem sweepGenerated_echoes (depth : Nat) : plan.service.Echoes other
    (·.sweepGenerated plan depth) (·.sweepGenerated (plan.withService other) depth) := by
  intro p
  have roots : (plan.withService other).roots = plan.roots := rfl
  simp only [sweepGenerated, roots]
  split
  · exact Service.Echoes.foldl _ (sweepGeneratedSource_echoes depth) p
  · exact ⟨List.prefix_rfl, fun _ => rfl⟩

theorem sweepArchive_echoes (depth : Nat) (archive : Path) : plan.service.Echoes other
    (·.sweepArchive plan depth archive) (·.sweepArchive (plan.withService other) depth archive) :=
  fun p => Service.Echoes.foldl (p.archives.entries p.disk archive).1 (sweepEntry_echoes depth archive)
    { p with archives := (p.archives.entries p.disk archive).2 }

theorem sweep_echoes (depth : Nat) (points : List String) : plan.service.Echoes other
    (·.sweep plan depth points) (·.sweep (plan.withService other) depth points) := by
  have entered := Service.Echoes.foldl points (@enter_echoes plan other depth)
  have rooted := Service.Echoes.foldl (plan.roots.roots.filter fun root => !root.generated)
    (@sweepRoot_echoes plan other depth)
  have unpacked : plan.service.Echoes other (·.sweepArchives plan depth)
      (·.sweepArchives (plan.withService other) depth) :=
    fun p => Service.Echoes.foldl p.archives.paths (sweepArchive_echoes depth) p
  exact ((entered.comp rooted).comp (sweepGenerated_echoes depth)).comp unpacked

end Pass

/-- No call of the compiler is taken back. -/
theorem Course.called {points : List String} {a b : Stage} (course : Course plan points a b) :
    a.pass.called <+: b.pass.called := by
  refine course.invariant (fun m => a.pass.called <+: m.pass.called) ?_ (List.prefix_refl _)
  intro m next before move
  refine before.trans ?_
  cases move with
  | call => exact List.prefix_append _ _
  | deliver => exact ⟨[], by rw [Pass.called_deliver, List.append_nil]⟩
  | unread | _ => exact List.prefix_refl _

end

namespace Builder

/-- The same builder with another compiler. -/
def withService (b : Builder) (other : Service) : Builder := { b with service := other }

/-- What the compiler would say in calls that are not made makes no difference. -/
theorem settled_withService {b : Builder} {env : Environment} {heard : Bool} {cancel : Cancel} {s : Site}
    {other : Service} (concurs : b.service.Concurs other (b.settled env heard cancel s)) :
    (b.withService other).settled env heard cancel s = b.settled env heard cancel s := by
  have whole : ∀ c : Builder, c.settled env heard cancel s = (c.start env heard s).sweep
      (c.plan env cancel) (c.depthAt env s) c.layout.naming.entryPoints := fun _ => rfl
  rw [whole] at concurs ⊢
  rw [whole]
  exact (Pass.sweep_echoes (b.depthAt env s) b.layout.naming.entryPoints (b.start env heard s)).2 concurs

end Builder
end LayerCache
