import LayerCache.Proofs.Build.Frame

/-! What a build covers. A source that is passed over is left to a root before its own, whose
source stands or was compiled already; so every source that lay under a root is compiled. -/
namespace LayerCache

/-! What a build adds to and never takes back. -/

theorem Tracker.has_mark {t : Tracker} {u v : UnitId} (known : t.has u = true) :
    (t.mark v).2.has u = true := by
  unfold mark
  split
  · exact known
  · simp only [has, List.any_append, Bool.or_eq_true] at known ⊢
    exact .inl known

structure Onward (p q : Pass) : Prop where
  tracked : ∀ u, p.tracker.has u = true → q.tracker.has u = true
  told : p.log.events ⊆ q.log.events
  stopped : p.cancelled = true → q.cancelled = true
  settled : ∀ path held, p.archives.settled path = some held → q.archives.settled path = some held

namespace Onward

variable {plan : Plan} {points : List String} {p q r : Pass}

theorem refl (p : Pass) : Onward p p :=
  ⟨fun _ h => h, fun _ h => h, fun h => h, fun _ _ h => h⟩

theorem trans (first : Onward p q) (second : Onward q r) : Onward p r :=
  ⟨fun u h => second.tracked u (first.tracked u h), fun _ h => second.told (first.told h),
    fun h => second.stopped (first.stopped h),
    fun path held h => second.settled path held (first.settled path held h)⟩

theorem calm (onward : Onward p q) (calm : q.cancelled = false) : p.cancelled = false := by
  cases stop : p.cancelled with
  | false => rfl
  | true =>
    rw [onward.stopped stop] at calm
    cases calm

/-- Only what is known of archives may change otherwise. -/
theorem of_rest (tracked : ∀ u, p.tracker.has u = true → q.tracker.has u = true)
    (told : p.log.events ⊆ q.log.events) (stopped : p.cancelled = true → q.cancelled = true)
    (archives : q.archives = p.archives) : Onward p q :=
  ⟨tracked, told, stopped, fun _ _ h => archives ▸ h⟩

theorem of_archives {archives : Archives} (settled : ∀ path held,
    p.archives.settled path = some held → archives.settled path = some held) :
    Onward p { p with archives } := ⟨fun _ h => h, fun _ h => h, fun h => h, settled⟩

theorem of_logged (tracker : q.tracker = p.tracker) (told : p.log.events ⊆ q.log.events)
    (cancelled : q.cancelled = p.cancelled) (archives : q.archives = p.archives) : Onward p q :=
  of_rest (fun _ h => tracker ▸ h) told (fun h => cancelled ▸ h) archives

theorem of_load {origin : Origin} {result : Except CompileError ByteArray}
    (loaded : p.load origin = (result, q)) : Onward p q := by
  obtain ⟨archives, looked, rfl⟩ := Pass.load_rest loaded
  rcases looked with rfl | ⟨r, rfl⟩
  · exact refl p
  · exact of_archives fun _ _ => Archives.read_keeps

theorem of_move {a b : Stage} (move : Move plan points a b) : Onward a.pass b.pass := by
  cases move with
  | check => exact of_rest (fun _ h => h) (fun _ h => h) (by simp +contextual [Pass.check]) rfl
  | search u => exact of_archives fun _ _ => Archives.find_keeps
  | unpack known => exact of_archives fun _ _ => Archives.entries_keeps
  | list | replace => exact of_logged rfl (fun _ h => h) rfl rfl
  | pass | yield | keep =>
    exact of_logged rfl (by simp [Pass.skip, Pass.record]) rfl rfl
  | @begin p _ _ _ c _ archives offer fresh =>
    have marked : Onward p { p with tracker := (p.tracker.mark c.unit).2 } :=
      of_rest (fun _ h => Tracker.has_mark h) (fun _ h => h) (fun h => h) rfl
    refine marked.trans (of_archives fun path held settled => ?_)
    rcases offer.archives with same | ⟨u, found⟩
    · rwa [same]
    · rw [found]
      exact Archives.find_keeps settled
  | unread loaded =>
    exact (of_load loaded).trans (of_logged rfl (by simp [Pass.fail]) rfl rfl)
  | call loaded => exact (of_load loaded).trans (of_logged rfl (fun _ h => h) rfl rfl)
  | reject => exact of_logged rfl (by simp [Pass.fail]) rfl rfl
  | @deliver p c goal _ _ _ _ artifact _ =>
    rcases p.deliver_cases plan c goal artifact with ⟨e, d, _, h⟩ | ⟨d, _, h⟩
    · rw [h]
      exact of_logged rfl (by simp [Pass.fail, Pass.setDisk]) rfl rfl
    · rw [h]
      exact of_logged rfl (by simp) rfl rfl

theorem of_course {a b : Stage} (course : Course plan points a b) : Onward a.pass b.pass :=
  course.invariant (fun m => Onward a.pass m.pass)
    (fun _ _ before move => before.trans (of_move move)) (refl _)

theorem of_leads {opens : Prop} (leads : Leads plan points opens p q) : Onward p q := by
  obtain ⟨_, _, _, course⟩ := leads [] []
  exact of_course course

end Onward

/-- A tree of sources that a build may rely on: there are no links, no root lies in another, no
name of a source holds a backslash, and a root that holds sources can be opened. -/
structure Roots.Orderly (r : Roots) (d : Disk) : Prop where
  plain : ∀ root ∈ r.roots, d.Plain root.path
  apart : ∀ a ∈ r.roots, ∀ b ∈ r.roots, d.placeOf a.path <+: d.placeOf b.path →
    d.placeOf a.path = d.placeOf b.path
  straight : ∀ root ∈ r.roots, ∀ names, r.Holds d root names → ∀ name ∈ names, '\\' ∉ name.toList
  reachable : ∀ root ∈ r.roots, ∀ names, r.Holds d root names → d.isFolder root.path = true

/-- Names below two roots lead to one place only if the roots are one folder. -/
theorem Roots.Orderly.names_eq {r : Roots} {d : Disk} (orderly : r.Orderly d) {a b : SourceRoot}
    (first : a ∈ r.roots) (second : b ∈ r.roots) {front back : List String}
    (same : d.placeOf a.path ++ front = d.placeOf b.path ++ back) : front = back := by
  have equal : d.placeOf a.path = d.placeOf b.path := by
    rcases List.prefix_or_prefix_of_prefix (List.prefix_append _ front) ⟨back, same.symm⟩ with
      inside | inside
    · exact orderly.apart a first b second inside
    · exact (orderly.apart b second a first inside).symm
  rw [equal] at same
  exact List.append_cancel_left same

section

variable {plan : Plan} {points : List String} {before : Disk} {heard : Bool}
  {earlier : List UnitSource} {m : Stage}

theorem Account.tracked (account : Account heard earlier m) {e : Event} (told : e ∈ m.pass.log.events)
    (final : e.isFinal = true) {u : UnitId} (unit : e.unit = u.logical) :
    m.pass.tracker.has u = true := by
  have ended : e.unit ∈ (finals m.pass.log.events).map (·.unit) :=
    List.mem_map.mpr ⟨e, by simp [finals, told, final], rfl⟩
  have known := account.finished.symm.subset (List.mem_append_left _ ended)
  obtain ⟨v, member, same⟩ := List.mem_map.mp known
  refine Tracker.has_iff.mpr ⟨v, member, ?_⟩
  rw [v.digest_eq, u.digest_eq, same, unit]

namespace Frame

/-- A source that is there was there from the beginning. -/
theorem holds_before (proper : plan.Proper) (frame : Frame plan before m) {root : SourceRoot}
    {names : List String} (holds : plan.roots.Holds m.pass.disk root names) :
    plan.roots.Holds before root names := by
  obtain ⟨carries, file⟩ := holds
  rw [frame.changes.placeOf] at file
  refine ⟨carries, ?_⟩
  rcases frame.changes.leaves (before.placeOf root.path ++ names) with
    same | ⟨⟨folder, _, artifact⟩, _⟩ | consumed
  · exact file.congr same.symm
  · exact absurd artifact (not_isArtifactIn proper.artifact proper.differ
      (carries.append (file.proper frame.changes.sound)))
  · exact absurd consumed.1 file.leaf

/-- A source is there until its unit is compiled. -/
theorem stands_or_tracked (proper : plan.Proper) (orderly : plan.roots.Orderly before)
    (frame : Frame plan before m) (account : Account heard earlier m) (sound : before.Sound)
    {root : SourceRoot} (known : root ∈ plan.roots.roots) {names : List String}
    (holds : plan.roots.Holds before root names) :
    plan.roots.Holds m.pass.disk root names ∨
      m.pass.tracker.has (plan.roots.below root names).unit = true := by
  obtain ⟨carries, file⟩ := holds
  rcases frame.changes.leaves (before.placeOf root.path ++ names) with
    same | ⟨⟨folder, _, artifact⟩, _⟩ | ⟨_, other, member, _, others, _, place, e, told, compiled, unit⟩
  · refine .inl ⟨carries, ?_⟩
    rw [frame.changes.placeOf]
    exact file.congr same
  · exact absurd artifact (not_isArtifactIn proper.artifact proper.differ
      (carries.append (file.proper sound)))
  · right
    rw [← orderly.names_eq known member place] at unit
    exact account.tracked told (by simp [Event.isFinal, compiled]) unit

end Frame

end

/-- What a plan and the disk it starts from are to be like. -/
structure Plan.Grounded (plan : Plan) (before : Disk) : Prop where
  proper : plan.Proper
  outputs : plan.Plain before
  quiet : plan.service.Quiet
  sound : before.Sound
  orderly : plan.roots.Orderly before
  single : ∀ a ∈ plan.roots.roots, ∀ b ∈ plan.roots.roots,
    a.generated = true → b.generated = true → a.path = b.path

/-- What holds at every stage of a build. -/
structure Midway (plan : Plan) (before : Disk) (heard : Bool) (earlier : List UnitSource)
    (m : Stage) : Prop where
  frame : Frame plan before m
  account : Account heard earlier m

section

variable {plan : Plan} {points : List String} {before : Disk} {heard : Bool}
  {earlier : List UnitSource} {m last : Stage}

theorem Midway.after (ground : plan.Grounded before) (midway : Midway plan before heard earlier m)
    (course : Course plan points m last) : Midway plan before heard earlier last :=
  ⟨midway.frame.after ground.proper ground.outputs ground.quiet course, midway.account.after course⟩

theorem Leads.foldl_at {opens : Prop} {α : Type} {visit : Pass → α → Pass} {all : List α} {p : Pass}
    {x : α} (member : x ∈ all)
    (visits : ∀ x ∈ all, ∀ q, Leads plan points opens p q → Leads plan points opens q (visit q x)) :
    ∃ front back, all = front ++ x :: back ∧ Leads plan points opens p (front.foldl visit p) ∧
      Leads plan points opens (visit (front.foldl visit p) x) (all.foldl visit p) := by
  obtain ⟨front, back, rfl⟩ := List.append_of_mem member
  have first : Leads plan points opens p (front.foldl visit p) :=
    Leads.foldl fun y inside => visits y (by simp [inside])
  refine ⟨front, back, rfl, first, ?_⟩
  rw [List.foldl_append, List.foldl_cons]
  have here := first.trans (visits x (by simp) _ first)
  exact Leads.foldl fun y inside q reached =>
    visits y (by simp [inside]) q (here.trans reached)

theorem foldl_course_at {α : Type} {visit : Pass → α → Pass} {all : List α} {p : Pass} {x : α}
    {ss : List (SourceRoot × SourceFile)} {es : List EntryRef} (member : x ∈ all)
    (visits : ∀ x ∈ all, ∀ q, Course plan points ⟨q, [], ss, es⟩ ⟨visit q x, [], ss, es⟩) :
    ∃ front back, all = front ++ x :: back ∧
      Course plan points ⟨p, [], ss, es⟩ ⟨front.foldl visit p, [], ss, es⟩ ∧
      Course plan points ⟨visit (front.foldl visit p) x, [], ss, es⟩
        ⟨all.foldl visit p, [], ss, es⟩ := by
  obtain ⟨front, back, rfl⟩ := List.append_of_mem member
  have first : Course plan points ⟨p, [], ss, es⟩ ⟨front.foldl visit p, [], ss, es⟩ :=
    foldl_course p fun y inside => visits y (by simp [inside])
  refine ⟨front, back, rfl, first, ?_⟩
  rw [List.foldl_append, List.foldl_cons]
  exact foldl_course _ fun y inside => visits y (by simp [inside])

/-- A build that is not stopped in the end does its work. -/
theorem Pass.unlessStopped_eq {work : Pass → Pass} {p q : Pass}
    (onward : Onward (p.unlessStopped plan work) q) (calm : q.cancelled = false) :
    p.unlessStopped plan work = work (p.check plan).2 := by
  simp only [unlessStopped] at onward ⊢
  split
  · rename_i stop
    rw [if_pos stop] at onward
    have stopped : q.cancelled = true := onward.stopped stop
    rw [calm] at stopped
    cases stopped
  · rfl

theorem Pass.tracked_of_take (plan : Plan) (depth : Nat) (c : Candidate) (goal : Destination)
    (p : Pass) : (p.take plan depth c goal).tracker.has c.unit = true := by
  have compiled : Course plan [] ⟨{ p with tracker := (p.tracker.mark c.unit).2 },
      [⟨c, goal, none⟩], [], []⟩ ⟨p.take plan depth c goal, [], [], []⟩ :=
    compile_course (fun symbol q ts => resolve_course depth symbol q ts) c goal [] _
  exact (Onward.of_course compiled).tracked _ (Tracker.has_mark_self ..)

/-- A swept source is tracked, or left to a root before its own. -/
theorem Pass.sweepSource_cases {depth : Nat} {f : SourceFile} {p q : Pass}
    (onward : Onward (p.sweepSource plan depth f) q) (calm : q.cancelled = false) :
    q.tracker.has f.unit = true ∨
      ∃ winner, plan.roots.resolve p.disk f.unit = some winner ∧ winner.rank < f.rank := by
  have done : p.sweepSource plan depth f = _ := unlessStopped_eq onward calm
  rw [done] at onward
  split at onward
  · rename_i known
    exact .inl (onward.tracked _ known)
  split at onward
  · rename_i winner found
    split at onward
    · rename_i above
      exact .inr ⟨winner, found, above⟩
    · exact .inl (onward.tracked _ (tracked_of_take ..))
  · exact .inl (onward.tracked _ (tracked_of_take ..))

theorem Pass.tracked_of_sweepGeneratedSource {depth : Nat} {f : SourceFile} {p q : Pass}
    (onward : Onward (p.sweepGeneratedSource plan depth f) q) (calm : q.cancelled = false) :
    q.tracker.has f.unit = true := by
  have done : p.sweepGeneratedSource plan depth f = _ := unlessStopped_eq onward calm
  rw [done] at onward
  split at onward
  · rename_i known
    exact onward.tracked _ known
  · exact onward.tracked _ (tracked_of_take ..)

/-- The source that a unit is left to was there from the beginning. -/
theorem Frame.winner_spec (ground : plan.Grounded before) (frame : Frame plan before m)
    {root : SourceRoot} (known : root ∈ plan.roots.roots) {names : List String}
    (holds : plan.roots.Holds before root names) {winner : SourceFile}
    (found : plan.roots.resolve m.pass.disk (plan.roots.below root names).unit = some winner) :
    ∃ other ∈ plan.roots.roots, ∃ others, plan.roots.Holds before other others ∧
      winner.rank = other.rank ∧
      ((plan.roots.below other others).unit == (plan.roots.below root names).unit) = true := by
  have straight := ground.orderly.straight root known names holds
  rw [Roots.unit_below] at found
  obtain ⟨other, member, others, here, same, spelled⟩ := Roots.holds_of_resolve frame.changes.sound
    (fun root member => frame.changes.plain (ground.orderly.plain root member))
    (UnitId.tidy_ofRelative _ _) ground.proper.source
    (UnitId.filled_ofRelative holds.1 straight) found
  have there := frame.holds_before ground.proper here
  refine ⟨other, member, others, there, by rw [same, Roots.rank_below], UnitId.beq_of_lower_eq ?_⟩
  rw [Roots.unit_below, Roots.unit_below]
  exact UnitId.lower_ofRelative_of_spelled there.1
    (ground.orderly.straight other member others there) spelled

theorem Tracker.has_congr {t : Tracker} {u v : UnitId} (same : (u == v) = true) :
    t.has u = t.has v := by
  rw [Bool.eq_iff_iff, has_iff, has_iff, UnitId.beq_iff.mp same]

/-- When a sweep begins, it finds every source that was not compiled before. -/
theorem Midway.listed_or_tracked (ground : plan.Grounded before)
    (midway : Midway plan before heard earlier m) {root : SourceRoot}
    (known : root ∈ plan.roots.roots) {names : List String}
    (holds : plan.roots.Holds before root names) :
    plan.roots.below root names ∈ plan.roots.sweep m.pass.disk root ∨
      m.pass.tracker.has (plan.roots.below root names).unit = true := by
  have frame := midway.frame
  rcases frame.stands_or_tracked ground.proper ground.orderly midway.account ground.sound known
    holds with there | done
  · have plain := ground.orderly.plain root known
    have opened := ground.orderly.reachable root known names holds
    exact .inl (Roots.mem_sweep_of_holds frame.changes.sound (frame.changes.plain plain)
      (frame.changes.isFolder ground.sound plain opened) there)
  · exact .inr done

/-- The sources of a declared root are covered if those of the roots before it are. -/
theorem Pass.sweepRoot_covers (ground : plan.Grounded before) {depth : Nat} {p q : Pass}
    {ss : List (SourceRoot × SourceFile)} {es : List EntryRef}
    (midway : Midway plan before heard earlier ⟨p, [], ss, es⟩) {root : SourceRoot}
    (known : root ∈ plan.roots.roots) (declared : root.generated = false)
    (onward : Onward (p.sweepRoot plan depth root) q) (calm : q.cancelled = false)
    (above : ∀ other ∈ plan.roots.roots, other.rank < root.rank → ∀ names,
      plan.roots.Holds before other names →
        q.tracker.has (plan.roots.below other names).unit = true)
    {names : List String} (holds : plan.roots.Holds before root names) :
    q.tracker.has (plan.roots.below root names).unit = true := by
  have listed : Course plan [] ⟨p, [], ss, es⟩
      ⟨p, [], ss ++ (plan.roots.sweep p.disk root).map (root, ·), es⟩ := .of (.list known)
  have visits : ∀ f ∈ plan.roots.sweep p.disk root, ∀ q,
      Course plan [] ⟨q, [], ss ++ (plan.roots.sweep p.disk root).map (root, ·), es⟩
        ⟨q.sweepSource plan depth f, [], ss ++ (plan.roots.sweep p.disk root).map (root, ·), es⟩ :=
    fun f member q => sweepSource_course depth (by simpa using .inr member) declared q
  rcases midway.listed_or_tracked ground known holds with member | done
  · obtain ⟨_, _, _, reached, rest⟩ := foldl_course_at member visits
    have here := (midway.after ground listed).after ground reached
    have step : Onward (Pass.sweepSource plan depth _ (plan.roots.below root names)) q :=
      (Onward.of_course rest).trans onward
    rcases sweepSource_cases step calm with done | ⟨winner, found, lower⟩
    · exact done
    · obtain ⟨other, inside, others, stood, rank, same⟩ :=
        here.frame.winner_spec ground known holds found
      rw [← Tracker.has_congr same]
      exact above other inside (by rwa [rank, Roots.rank_below] at lower) others stood
  · have swept := foldl_course p visits
    exact onward.tracked _ ((Onward.of_course swept).tracked _ done)

/-- The sources of the generated root are covered by its own sweep. -/
theorem Pass.sweepGenerated_covers (ground : plan.Grounded before) {depth : Nat} {p : Pass}
    {ss : List (SourceRoot × SourceFile)} {es : List EntryRef}
    (midway : Midway plan before heard earlier ⟨p, [], ss, es⟩) {root : SourceRoot}
    (known : root ∈ plan.roots.roots) (generated : root.generated = true)
    (calm : (p.sweepGenerated plan depth).cancelled = false)
    {names : List String} (holds : plan.roots.Holds before root names) :
    (p.sweepGenerated plan depth).tracker.has (plan.roots.below root names).unit = true := by
  rcases found : plan.roots.roots.find? (·.generated) with _ | other
  · exact absurd generated (List.find?_eq_none.mp found root known)
  have member := List.mem_of_find?_eq_some found
  have marked : other.generated = true := by simpa using List.find?_some found
  have same := ground.single root known other member generated marked
  have unit : (plan.roots.below root names).unit = (plan.roots.below other names).unit := by
    rw [Roots.unit_below, Roots.unit_below]
  have stood : plan.roots.Holds before other names := ⟨holds.1, by rw [← same]; exact holds.2⟩
  have swept : p.sweepGenerated plan depth =
      (plan.roots.sweep p.disk other).foldl (Pass.sweepGeneratedSource plan depth) p := by
    simp only [sweepGenerated, found]
  have visits : ∀ f ∈ plan.roots.sweep p.disk other, ∀ q,
      Course plan [] ⟨q, [], (plan.roots.sweep p.disk other).map (other, ·), es⟩
        ⟨q.sweepGeneratedSource plan depth f, [],
          (plan.roots.sweep p.disk other).map (other, ·), es⟩ :=
    fun f inside q => sweepGeneratedSource_course depth (by simpa using inside) marked q
  rw [swept] at calm ⊢
  rw [unit]
  rcases midway.listed_or_tracked ground member stood with listed | done
  · obtain ⟨_, _, _, _, rest⟩ := foldl_course_at listed visits
    have step : Onward (Pass.sweepGeneratedSource plan depth _ (plan.roots.below other names)) _ :=
      Onward.of_course rest
    exact tracked_of_sweepGeneratedSource step calm
  · exact (Onward.of_course (foldl_course p visits)).tracked _ done

theorem Midway.leads (ground : plan.Grounded before) {opens : Prop} {p q : Pass}
    {ss : List (SourceRoot × SourceFile)} {es : List EntryRef}
    (midway : Midway plan before heard earlier ⟨p, [], ss, es⟩)
    (leads : Leads plan points opens p q) :
    ∃ ss' es', Midway plan before heard earlier ⟨q, [], ss', es'⟩ := by
  obtain ⟨ss', es', _, course⟩ := leads ss es
  exact ⟨ss', es', midway.after ground course⟩

/-- Every source that lay under a root is compiled once all roots are swept. -/
theorem Pass.sweepSources_covers (ground : plan.Grounded before) {depth : Nat} {p : Pass}
    (midway : Midway plan before heard earlier ⟨p, [], [], []⟩)
    (calm : (p.sweepSources plan depth points).cancelled = false) {root : SourceRoot}
    (known : root ∈ plan.roots.roots) {names : List String}
    (holds : plan.roots.Holds before root names) :
    (p.sweepSources plan depth points).tracker.has (plan.roots.below root names).unit = true := by
  -- Roots are swept in order, but a unit may be left to any root before its own.
  induction rank : root.rank using Nat.strongRecOn generalizing root names with
  | ind n ih =>
    have entered : Leads plan points False p (points.foldl (Pass.enter plan depth) p) :=
      Leads.foldl fun symbol member q _ => .of_course fun _ _ => enter_course depth member q
    obtain ⟨ss, es, first⟩ := midway.leads ground entered
    simp only [sweepSources] at calm ih ⊢
    generalize points.foldl (Pass.enter plan depth) p = start at first calm ih ⊢
    cases generated : root.generated with
    | true =>
      have declared : Leads plan points False start (start.sweepRoots plan depth) :=
        sweepRoots_leads depth start
      obtain ⟨ss', es', second⟩ := first.leads ground declared
      exact sweepGenerated_covers ground second known generated calm holds
    | false =>
      have member : root ∈ plan.roots.roots.filter fun root => !root.generated := by
        simp [known, generated]
      obtain ⟨_, _, _, reached, rest⟩ := Leads.foldl_at member
        fun root member q (_ : Leads plan points False start q) =>
          sweepRoot_leads depth (List.mem_filter.mp member).1
            (by simpa using (List.mem_filter.mp member).2) q
      obtain ⟨ss', es', second⟩ := first.leads ground reached
      have last : Leads plan points False (start.sweepRoots plan depth) _ :=
        sweepGenerated_leads depth _
      refine sweepRoot_covers ground second known generated
        ((Onward.of_leads rest).trans (Onward.of_leads last)) calm ?_ holds
      intro other inside lower others stood
      exact ih other.rank (rank ▸ lower) inside stood rfl

/-! Archives. -/

/-- The build when its sweep of archives comes to an entry. -/
def Pass.Meets (plan : Plan) (depth : Nat) (start : Pass) (archive : Path) (entry : String)
    (q : Pass) : Prop :=
  ∃ before after front back p, start.archives.paths = before ++ archive :: after ∧
    p = before.foldl (Pass.sweepArchive plan depth) start ∧
    (p.archives.entries p.disk archive).1 = front ++ entry :: back ∧
    q = front.foldl (Pass.sweepEntry plan depth archive)
      { p with archives := (p.archives.entries p.disk archive).2 }

theorem Pass.sweepEntry_cases {depth : Nat} {archive : Path} {entry : String} {p q : Pass}
    (onward : Onward (p.sweepEntry plan depth archive entry) q) (calm : q.cancelled = false) :
    q.tracker.has (.ofEntry entry plan.roots.ending) = true ∨
      (plan.cache.read p.disk (.ofEntry entry plan.roots.ending)).isSome = true ∧
      ⟨(UnitId.ofEntry entry plan.roots.ending).logical, .skipped, "already cached"⟩ ∈
        q.log.events := by
  have done : p.sweepEntry plan depth archive entry = _ := unlessStopped_eq onward calm
  rw [done] at onward
  dsimp only at onward
  split at onward
  · rename_i known
    exact .inl (onward.tracked _ known)
  split at onward
  · rename_i artifact cached
    have read : plan.cache.read p.disk (.ofEntry entry plan.roots.ending) = some artifact := cached
    refine .inr ⟨by simp [read], onward.told ?_⟩
    exact List.mem_append_right _ (List.mem_singleton.mpr rfl)
  · exact .inl (onward.tracked _ (tracked_of_take ..))

theorem Pass.sweepEntries_course (plan : Plan) (depth : Nat) (archive : Path) (all : List String) :
    ∀ entry ∈ all, ∀ q, Course plan [] ⟨q, [], [], all.map (⟨archive, ·⟩)⟩
      ⟨q.sweepEntry plan depth archive entry, [], [], all.map (⟨archive, ·⟩)⟩ :=
  fun _ inside q => sweepEntry_course depth (by simpa using inside) q

theorem Pass.sweepArchive_at {depth : Nat} {archive : Path} {p : Pass} {entry : String}
    (listed : entry ∈ (p.archives.entries p.disk archive).1) :
    ∃ front back, (p.archives.entries p.disk archive).1 = front ++ entry :: back ∧
      Onward (Pass.sweepEntry plan depth archive (front.foldl (Pass.sweepEntry plan depth archive)
        { p with archives := (p.archives.entries p.disk archive).2 }) entry)
        (p.sweepArchive plan depth archive) := by
  obtain ⟨front, back, parts, _, rest⟩ :=
    foldl_course_at listed (sweepEntries_course plan depth archive _)
  exact ⟨front, back, parts, Onward.of_course rest⟩

/-- What an archive is found to hold when it is swept it holds from then on. -/
theorem Pass.sweepArchive_settles {opens : Prop} {depth : Nat} {archive : Path} {p q : Pass}
    (leads : Leads plan points opens (p.sweepArchive plan depth archive) q) (d : Disk) :
    (q.archives.entries d archive).1 = (p.archives.entries p.disk archive).1 := by
  obtain ⟨held, settled, entries⟩ := p.archives.entries_settles p.disk archive
  have opened : Onward { p with archives := (p.archives.entries p.disk archive).2 }
      (p.sweepArchive plan depth archive) :=
    Onward.of_course (foldl_course _ (sweepEntries_course plan depth archive _))
  have kept := (opened.trans (Onward.of_leads leads)).settled _ _ settled
  rw [Archives.entries_of_settled kept, entries]

/-- Every entry that is listed is compiled, unless its artifact is there when its turn comes. -/
theorem Pass.sweepArchives_covers {depth : Nat} {start : Pass} {archive : Path}
    (known : archive ∈ start.archives.paths)
    (calm : (start.sweepArchives plan depth).cancelled = false) {d : Disk} {entry : String}
    (listed : entry ∈ ((start.sweepArchives plan depth).archives.entries d archive).1) :
    (start.sweepArchives plan depth).tracker.has (.ofEntry entry plan.roots.ending) = true ∨
      ∃ q, Meets plan depth start archive entry q ∧
        (plan.cache.read q.disk (.ofEntry entry plan.roots.ending)).isSome = true ∧
        ⟨(UnitId.ofEntry entry plan.roots.ending).logical, .skipped, "already cached"⟩ ∈
          (start.sweepArchives plan depth).log.events := by
  have visits : ∀ a ∈ start.archives.paths, ∀ q, Leads plan [] True start q →
      Leads plan [] True q (q.sweepArchive plan depth a) :=
    fun a member q leads => sweepArchive_leads depth (by rwa [leads.paths])
  obtain ⟨before, after, cut, _, rest⟩ := Leads.foldl_at known visits
  have last : Leads plan [] True _ (start.sweepArchives plan depth) := rest
  rw [sweepArchive_settles last] at listed
  obtain ⟨front, back, parts, onward⟩ := sweepArchive_at listed
  rcases sweepEntry_cases (onward.trans (Onward.of_leads last)) calm with done | ⟨cached, told⟩
  · exact .inl done
  · exact .inr ⟨_, ⟨before, after, front, back, _, cut, rfl, parts, rfl⟩, cached, told⟩

end

namespace Roots

theorem Holds.mono {r : Roots} {d d' : Disk} (change : d.Changes (fun _ => False) d')
    {root : SourceRoot} {names : List String} :
    r.Holds d' root names ↔ r.Holds d root names := by
  have same := fun place => (change.leaves place).resolve_right id
  simp only [Holds, change.placeOf]
  exact and_congr_right fun _ =>
    ⟨fun file => file.congr (same _).symm, fun file => file.congr (same _)⟩

theorem Orderly.mono {r : Roots} {d d' : Disk} (orderly : r.Orderly d) (sound : d.Sound)
    (change : d.Changes (fun _ => False) d') : r.Orderly d' := by
  refine ⟨fun root known => change.plain (orderly.plain root known), ?_, ?_, ?_⟩
  · simpa only [change.placeOf] using orderly.apart
  · exact fun root known names holds =>
      orderly.straight root known names ((Holds.mono change).mp holds)
  · exact fun root known names holds => change.isFolder sound (orderly.plain root known)
      (orderly.reachable root known names ((Holds.mono change).mp holds))

/-- A source can be looked up. -/
theorem holds_of_content {r : Roots} {d : Disk} (sound : d.Sound) {root : SourceRoot}
    {names : List String} (file : (d.content? (d.placeOf root.path ++ names)).isSome = true)
    (ends : (Disk.relativePath names).hasExtension r.ending = true) : r.Holds d root names := by
  have there : d.IsFileAt (d.placeOf root.path ++ names) := by
    simp only [Disk.content?] at file
    split at file
    · rename_i serial content entry
      exact .inl ⟨serial, content, entry⟩
    · cases file
  have proper : ∀ name ∈ names, IsName name :=
    fun name member => there.proper sound name (by simp [member])
  exact ⟨(hasExtension_relativePath proper).mp ends, there⟩

/-- A root that holds sources has entries below it. -/
theorem reachable_of_entries {r : Roots} {d : Disk} (sound : d.Sound)
    (opened : ∀ root ∈ r.roots, (∃ pair ∈ d.entries.pairs, d.placeOf root.path <+: pair.1) →
      d.isFolder root.path = true) :
    ∀ root ∈ r.roots, ∀ names, r.Holds d root names → d.isFolder root.path = true := by
  rintro root known names ⟨carries, file⟩
  have filled : d.placeOf root.path ++ names ≠ [] := by simp [carries.filled]
  obtain ⟨entry, found⟩ : ∃ entry, d.entryAt (d.placeOf root.path ++ names) = some entry := by
    rcases file with ⟨_, _, there⟩ | ⟨_, there⟩ <;> exact ⟨_, there⟩
  exact opened root known ⟨_, (sound.mem_pairs filled).mpr found, List.prefix_append _ _⟩

/-- Backslashes can be looked for among all entries. -/
theorem straight_of_entries {r : Roots} {d : Disk} (sound : d.Sound)
    (clean : ∀ pair ∈ d.entries.pairs, ∀ name ∈ pair.1, '\\' ∉ name.toList) :
    ∀ root ∈ r.roots, ∀ names, r.Holds d root names → ∀ name ∈ names, '\\' ∉ name.toList := by
  rintro root _ names ⟨carries, file⟩ name member
  have filled : d.placeOf root.path ++ names ≠ [] := by simp [carries.filled]
  rcases file with ⟨serial, content, there⟩ | ⟨program, there⟩
  · exact clean _ ((sound.mem_pairs filled).mpr there) name (by simp [member])
  · exact clean _ ((sound.mem_pairs filled).mpr there) name (by simp [member])

end Roots

namespace Builder

variable {b : Builder} {env : Environment} {heard : Bool} {cancel : Cancel} {s s' : Site}
  {summary : Summary}

theorem grounded {config : Config} {project : Path} (accepted : config.check = .ok ())
    (layout : b.layout = .resolve project config) (quiet : b.service.Quiet) {d : Disk}
    (sound : d.Sound) (plain : d.Plain b.layout.cache) (orderly : (b.roots env).Orderly d) :
    (b.plan env cancel).Grounded d := by
  have naming : b.layout.naming = config.naming := by rw [layout, Layout.resolve]
  obtain ⟨source, artifact, differ⟩ := Config.extensions_of_check accepted
  rw [← naming] at source artifact differ
  refine ⟨plan_proper source artifact differ, ?_, quiet, sound, orderly, ?_⟩
  · rintro folder (rfl | ⟨root, known, _, rfl⟩)
    · exact plain
    · exact orderly.plain root known
  · intro x first y second marked also
    have one := Roots.mem_ofPaths first
    have two := Roots.mem_ofPaths second
    rw [if_pos marked] at one
    rw [if_pos also, one] at two
    exact Option.some.inj two

end Builder

/-- A unit is among those resolved, and one event ends it. -/
structure Summary.Covers (summary : Summary) (u : UnitId) : Prop where
  resolved : ∃ name ∈ summary.resolved, (UnitId.ofLogical name == u) = true
  once : (finals summary.events).countP (·.identity == u) = 1

namespace Builder

variable {b : Builder} {env : Environment} {heard : Bool} {cancel : Cancel} {s s' : Site}
  {summary : Summary}

theorem covers_of_tracked (built : b.compile env heard cancel s = (.ok summary, s'))
    (ran : summary.ran = true) {u : UnitId}
    (tracked : (b.settled env heard cancel s).tracker.has u = true) : summary.Covers u := by
  obtain ⟨_, resolved, _⟩ := compile_settled built ran
  obtain ⟨v, known, same⟩ := Tracker.has_iff.mp tracked
  have listed : v.logical ∈ summary.resolved := by
    rw [resolved]
    exact (Tracker.names_perm _).symm.subset (List.mem_map.mpr ⟨v, known, rfl⟩)
  have equal : (UnitId.ofLogical v.logical).digest = u.digest := by
    rw [(UnitId.ofLogical v.logical).digest_eq, UnitId.logical_ofLogical, ← v.digest_eq, same]
  obtain ⟨e, ended, unit⟩ := List.mem_map.mp ((compile_resolved built).subset listed)
  have digest : u.digest ∈ (finals summary.events).map fun e => e.identity.digest :=
    List.mem_map.mpr ⟨e, ended, by rw [← equal, Event.identity, unit]⟩
  refine ⟨⟨v.logical, listed, UnitId.beq_iff.mpr equal⟩, ?_⟩
  have one := List.count_eq_one_of_mem (compile_finals built) digest
  rwa [List.count, List.countP_map] at one

theorem swept_onward (b : Builder) (env : Environment) (heard : Bool) (cancel : Cancel) (s : Site) :
    Onward (b.swept env heard cancel s) (b.settled env heard cancel s) := by
  have last : Leads (b.plan env cancel) [] True (b.swept env heard cancel s)
      (b.settled env heard cancel s) := Pass.sweepArchives_leads _ _
  exact Onward.of_leads last

theorem midway_start (b : Builder) (env : Environment) (heard : Bool) (cancel : Cancel)
    (sound : s.disk.Sound) : Midway (b.plan env cancel) (b.cache.ensureFolder s.disk).2 heard s.called
      ⟨b.start env heard s, [], [], []⟩ :=
  ⟨Frame.opening b env heard (b.ensured sound).sound s.called [],
    Account.opening b env heard _ s.called [] []⟩

/-- No unit is lost: in a tree whose roots can be opened, every source is compiled, wherever the
roots it is left to lie, and every entry of an archive is, unless its artifact is there. -/
theorem compile_covers {config : Config} {project : Path} (accepted : config.check = .ok ())
    (layout : b.layout = .resolve project config) (quiet : b.service.Quiet)
    (sound : s.disk.Sound) (plain : s.disk.Plain b.layout.cache)
    (orderly : (b.roots env).Orderly s.disk)
    (built : b.compile env heard cancel s = (.ok summary, s')) (ran : summary.ran = true)
    (calm : summary.cancelled = false) :
    (∀ root ∈ (b.roots env).roots, ∀ names, (b.roots env).Holds s.disk root names →
      summary.Covers (.ofRelative (Disk.relativePath names) b.layout.naming.sourceExt)) ∧
    ∀ archive ∈ b.archives.paths, ∀ d, ∀ entry ∈
      ((b.settled env heard cancel s).archives.entries d archive).1,
      summary.Covers (.ofEntry entry b.layout.naming.sourceExt) ∨
      ∃ q, Pass.Meets (b.plan env cancel) (b.depthAt env s) (b.swept env heard cancel s) archive
          entry q ∧
        (b.cache.read q.disk (.ofEntry entry b.layout.naming.sourceExt)).isSome = true ∧
        ⟨(UnitId.ofEntry entry b.layout.naming.sourceExt).logical, .skipped, "already cached"⟩ ∈
          summary.events := by
  obtain ⟨events, _, cancelled, _⟩ := compile_settled built ran
  rw [cancelled] at calm
  have ensured := b.ensured sound
  have ground : (b.plan env cancel).Grounded (b.cache.ensureFolder s.disk).2 :=
    grounded accepted layout quiet ensured.sound (ensured.plain plain)
      (orderly.mono sound ensured)
  have midway := b.midway_start env heard cancel sound
  constructor
  · intro root known names holds
    have rest := b.swept_onward env heard cancel s
    have tracked := Pass.sweepSources_covers ground midway (rest.calm calm) known
      ((Roots.Holds.mono ensured).mpr holds)
    rw [Roots.unit_below] at tracked
    exact covers_of_tracked built ran (rest.tracked _ tracked)
  · intro archive known d entry listed
    have there : archive ∈ (b.swept env heard cancel s).archives.paths := by
      have leads : Leads (b.plan env cancel) b.layout.naming.entryPoints False (b.start env heard s)
          (b.swept env heard cancel s) := Pass.sweepSources_leads _ _
      rw [leads.paths]
      exact known
    rcases Pass.sweepArchives_covers there calm listed with tracked | ⟨q, met, cached, told⟩
    · exact .inl (covers_of_tracked built ran tracked)
    · exact .inr ⟨q, met, cached, by rw [events, settled]; exact told⟩

/-- In a project without links it can be looked up whether the tree of sources is orderly. -/
theorem orderly_siteOf {r : Roots} {files : List (String × String)}
    (told : (∀ a ∈ r.roots, ∀ b ∈ r.roots,
        (siteOf files).disk.placeOf a.path <+: (siteOf files).disk.placeOf b.path →
          (siteOf files).disk.placeOf a.path = (siteOf files).disk.placeOf b.path) ∧
      (∀ pair ∈ (siteOf files).disk.entries.pairs, ∀ name ∈ pair.1, '\\' ∉ name.toList) ∧
      ∀ root ∈ r.roots, (∃ pair ∈ (siteOf files).disk.entries.pairs,
        (siteOf files).disk.placeOf root.path <+: pair.1) →
          (siteOf files).disk.isFolder root.path = true) : r.Orderly (siteOf files).disk where
  plain root _ := plain_siteOf files root.path
  apart := told.1
  straight := Roots.straight_of_entries (sound_siteOf files) told.2.1
  reachable := Roots.reachable_of_entries (sound_siteOf files) told.2.2

/-- A project of two roots and an archive. -/
def packedConfig : Config :=
  ⟨"p", "", { generated := "gen" }, none, {}, none, ["l.jar"], []⟩

def packed : Builder := ⟨.resolve ⟨"/p"⟩ packedConfig, Scripted.service, .absent⟩

def packedFiles : List (String × String) :=
  [("/p/src/Main.php", "use app/Gen\n"), ("/p/gen/app/Gen.php", "gen"), ("/p/l.jar", jarText)]

def packedSite : Site := siteOf packedFiles

theorem compile_covers_packed : ∃ summary s',
    packed.compile .prod true .never packedSite = (.ok summary, s') ∧
      summary.Covers (.ofRelative (Disk.relativePath ["app", "Gen.php"]) "php") ∧
      summary.Covers (.ofEntry "B.php" "php") := by
  have told : ((packed.cache.ensureFolder packedSite.disk).1.toOption,
      (packed.settled .prod true .never packedSite).cancelled,
      (packed.settled .prod true .never packedSite).log.events,
      ((packed.settled .prod true .never packedSite).archives.entries packedSite.disk
        ⟨"/p/l.jar"⟩).1) =
      (some (), false, [⟨"app/Gen", .compiled, "app/Gen.php"⟩, ⟨"Main", .compiled, "Main.php"⟩,
        ⟨"B", .compiled, "B.php"⟩], ["B.php"]) := by
    decide +kernel
  simp only [Prod.mk.injEq] at told
  obtain ⟨opened, calm, events, entries⟩ := told
  obtain ⟨summary, s', built, ran, cancelled, listed, _⟩ :=
    @compile_runs packed .prod true .never packedSite rfl opened
  rw [← cancelled] at calm
  rw [← listed] at events
  have accepted : packedConfig.check = .ok () := by decide +kernel
  have layout : packed.layout = .resolve ⟨"/p"⟩ packedConfig := rfl
  have sound : packedSite.disk.Sound := sound_siteOf packedFiles
  have plain : packedSite.disk.Plain packed.layout.cache := plain_siteOf packedFiles _
  have orderly : (packed.roots .prod).Orderly packedSite.disk :=
    orderly_siteOf (by decide +kernel)
  obtain ⟨sources, archived⟩ := compile_covers accepted layout quiet_scripted sound
    plain orderly built ran calm
  refine ⟨summary, s', built, ?_, ?_⟩
  · have generated : ⟨⟨"/p/gen"⟩, 0, true⟩ ∈ (packed.roots .prod).roots := by decide +kernel
    exact sources _ generated ["app", "Gen.php"]
      (Roots.holds_of_content sound (by decide +kernel) (by decide +kernel))
  · have listed : "B.php" ∈ ((packed.settled .prod true .never packedSite).archives.entries
        packedSite.disk ⟨"/p/l.jar"⟩).1 := by simp [entries]
    rcases archived ⟨"/p/l.jar"⟩ (by decide) packedSite.disk "B.php" listed with
      covers | ⟨_, _, _, cached⟩
    · exact covers
    · rw [events] at cached
      exact absurd cached (by decide)

/-- A project with a root that cannot be opened before the cache holds a folder `App`. -/
def strayConfig : Config :=
  ⟨"p", "", { generated := "gen", roots := ["build/App/../../lib", "src"] }, some "build", {}, none,
    [], []⟩

def stray : Builder := ⟨.resolve ⟨"/p"⟩ strayConfig, Scripted.service, .absent⟩

def strayFiles : List (String × String) :=
  [("/p/lib/X.php", "lib"), ("/p/src/App/A.php", "a"), ("/p/src/X.php", "src")]

def straySite : Site := siteOf strayFiles

theorem stray_outcome : ∃ summary s', stray.compile .prod true .never straySite = (.ok summary, s') ∧
    summary.ran = true ∧ summary.cancelled = false ∧
      summary.events = [⟨"App/A", .compiled, "App/A.php"⟩, ⟨"X", .skipped, "shadowed by root 1"⟩] := by
  have told : (stray.cache.ensureFolder straySite.disk).1.toOption = some () ∧
      (stray.settled .prod true .never straySite).cancelled = false ∧
      (stray.settled .prod true .never straySite).log.events =
        [⟨"App/A", .compiled, "App/A.php"⟩, ⟨"X", .skipped, "shadowed by root 1"⟩] := by
    decide +kernel
  obtain ⟨opened, told⟩ := told
  obtain ⟨summary, s', built, ran, cancelled, events, _⟩ :=
    @compile_runs stray .prod true .never straySite rfl opened
  rw [← cancelled, ← events] at told
  exact ⟨summary, s', built, ran, told⟩

/-- A source is left to a root that could not be opened when its own turn came, and is lost. -/
theorem compile_loses_unreachable : ∃ summary s',
    stray.compile .prod true .never straySite = (.ok summary, s') ∧ summary.ran = true ∧
      summary.cancelled = false ∧ stray.service.Quiet ∧ strayConfig.check = .ok () ∧
      straySite.disk.Sound ∧ (∀ p, straySite.disk.Plain p) ∧
      (∀ a ∈ (stray.roots .prod).roots, ∀ b ∈ (stray.roots .prod).roots,
        straySite.disk.placeOf a.path <+: straySite.disk.placeOf b.path →
          straySite.disk.placeOf a.path = straySite.disk.placeOf b.path) ∧
      (∀ root ∈ (stray.roots .prod).roots, ∀ names, (stray.roots .prod).Holds straySite.disk root names →
        ∀ name ∈ names, '\\' ∉ name.toList) ∧
      ∃ root ∈ (stray.roots .prod).roots, (stray.roots .prod).Holds straySite.disk root ["X.php"] ∧
        ¬ summary.Covers (.ofRelative (Disk.relativePath ["X.php"]) "php") := by
  obtain ⟨summary, s', built, ran, calm, events⟩ := stray_outcome
  have sound : straySite.disk.Sound := sound_siteOf strayFiles
  have seen : strayConfig.check = .ok () ∧
      (∀ a ∈ (stray.roots .prod).roots, ∀ b ∈ (stray.roots .prod).roots,
        straySite.disk.placeOf a.path <+: straySite.disk.placeOf b.path →
          straySite.disk.placeOf a.path = straySite.disk.placeOf b.path) ∧
      (∀ pair ∈ straySite.disk.entries.pairs, ∀ name ∈ pair.1, '\\' ∉ name.toList) ∧
      ⟨⟨"/p/src"⟩, 2, false⟩ ∈ (stray.roots .prod).roots ∧
      (straySite.disk.content? (straySite.disk.placeOf ⟨"/p/src"⟩ ++ ["X.php"])).isSome = true := by
    decide +kernel
  obtain ⟨accepted, apart, straight, member, file⟩ := seen
  refine ⟨summary, s', built, ran, calm, quiet_scripted, accepted, sound,
    fun p => plain_siteOf strayFiles p, apart, Roots.straight_of_entries sound straight, _, member,
    Roots.holds_of_content sound file (by decide +kernel), ?_⟩
  intro covers
  have once := covers.once
  rw [events] at once
  exact absurd once (by decide +kernel)

end Builder
end LayerCache
