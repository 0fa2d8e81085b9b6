import LayerCache.Proofs.Build.Foresight

/-! Two builds of one project come to the same, in whatever order they take up its units. What comes
of a unit can be told from the disk that a build starts from: which source or entry of an archive it
is compiled from, what that reads as, and what the compiler makes of it. -/
namespace LayerCache

open Disk

/-- What is put on record with an artifact. -/
def Candidate.recordOf (c : Candidate) (artifact : ByteArray) : ArtifactRecord :=
  ⟨c.origin.kind, toString c.origin, .ofContent artifact⟩

/-- What the outcome of a build depends on. -/
structure Footing where
  plan : Plan
  archives : Archives
  before : Disk
  result : UnitId → ByteArray → Except CompileError ByteArray

theorem Job.Goes.congr {plan : Plan} {d : Disk} {t t' : Job} {place : Place}
    (goes : t.Goes plan d place) (candidate : t'.candidate = t.candidate) (goal : t'.goal = t.goal) :
    t'.Goes plan d place := by
  cases goes with
  | cached cached =>
    rw [← candidate]
    exact .cached (goal.trans cached)
  | beside known generated proper parts same source =>
    exact .beside known generated proper parts same (candidate.trans source)

namespace Footing

variable (f : Footing)

/-- What a unit is to be compiled from: its source in the first root that holds one, or else its
entry in the first archive that does. -/
inductive Picks : Candidate → Prop where
  | source {root names} (known : root ∈ f.plan.roots.roots)
      (holds : f.plan.roots.Holds f.before root names)
      (least : ∀ other ∈ f.plan.roots.roots, ∀ others, f.plan.roots.Holds f.before other others →
        ((f.plan.roots.below other others).unit == (f.plan.roots.below root names).unit) = true →
          root.rank ≤ other.rank) :
      Picks (.ofSource (f.plan.roots.below root names))
  | entry {r} (unrooted : ∀ root ∈ f.plan.roots.roots, ∀ names,
        f.plan.roots.Holds f.before root names →
          ((f.plan.roots.below root names).unit == .ofEntry r.entry f.plan.roots.ending) = false)
      (first : f.archives.holder f.before (.ofEntry r.entry f.plan.roots.ending) = some r) :
      Picks (.ofEntry f.plan.roots.ending r)

def content (c : Candidate) : Except CompileError ByteArray := c.origin.contentOn f.archives f.before

def job (c : Candidate) : Job := ⟨c, f.plan.destination c.origin, none⟩

/-- The artifact that is delivered for a unit, or why there is none. -/
def product (c : Candidate) : Except String ByteArray :=
  match f.content c with
  | .error e => .error e.message
  | .ok content => match f.result c.unit content with
    | .error e => .error e.message
    | .ok artifact =>
      let path := (f.plan.destination c.origin).path f.plan c.unit
      match (ArtifactCache.writeArtifact f.before path artifact).1 with
      | .error e => .error e.message
      | .ok () => .ok artifact

/-- The event that a unit ends in. -/
def event (c : Candidate) : Event :=
  match f.product c with
  | .ok _ => ⟨c.unit.logical, .compiled, c.name⟩
  | .error message => ⟨c.unit.logical, .error, message⟩

/-- A unit that came to its end. -/
def Done (events : List Event) (c : Candidate) : Prop := f.Picks c ∧ f.event c ∈ events

def Makes (events : List Event) (c : Candidate) (artifact : ByteArray) : Prop :=
  f.Done events c ∧ f.product c = .ok artifact

/-- What is read at a place after some events: the artifact of a unit that goes there, nothing where
a source was consumed, and else what was read there at first. -/
inductive Leaves (events : List Event) (place : Place) : Option ByteArray → Prop where
  | stored {c artifact} (made : f.Makes events c artifact)
      (goes : (f.job c).Goes f.plan f.before place)
      (target : (f.job c).target f.plan f.before = place) :
      Leaves events place (some (f.before.written place artifact))
  | consumed {c artifact} (made : f.Makes events c artifact)
      (source : (f.job c).source? f.before = some place) : Leaves events place none
  | untouched (free : ∀ c artifact, f.Makes events c artifact →
      (f.job c).target f.plan f.before ≠ place ∧ (f.job c).source? f.before ≠ some place) :
      Leaves events place (f.before.readAt place)

/-- What is to be so for a build to come to what can be told. -/
structure Firm (asked : String → Prop) : Prop where
  ahead : f.plan.Foreseeable f.archives f.before
  first : ∀ root ∈ f.plan.roots.roots, root.generated = true → root.rank = 0
  ending : f.archives.ending = f.plan.roots.ending
  unmistaken : f.plan.roots.Unmistaken f.before asked
  /-- Nothing is cached that would not be made again. -/
  empty : ∀ u, f.plan.Provides f.archives f.before u → f.plan.cache.read f.before u = none

variable {f : Footing} {asked : String → Prop} {c c' : Candidate}

theorem holder_congr {as : Archives} {d : Disk} {u v : UnitId} (same : (u == v) = true) :
    as.holder d u = as.holder d v := by
  simp only [Archives.holder, EntryName.entryIn_congr same]

/-- There is one candidate for a unit. -/
theorem Picks.unique (firm : f.Firm asked) (picks : f.Picks c) (also : f.Picks c')
    (same : (c.unit == c'.unit) = true) : c = c' := by
  have ground := firm.ahead.ground
  have back : (c'.unit == c.unit) = true := by
    rw [UnitId.beq_iff] at same ⊢
    exact same.symm
  cases picks with
  | @source root names known holds least =>
    cases also with
    | @source other others known' holds' least' =>
      obtain rfl := ground.proper.ranks root known other known'
        (Nat.le_antisymm (least other known' others holds' back) (least' root known names holds same))
      have lower := firm.unmistaken.sources root known names holds root known others holds' same
      have straight := ground.orderly.straight root known
      have one := (Roots.spells_iff holds (straight names holds)).mp lower
      have two := (Roots.spells_iff holds' (straight others holds')).mp rfl
      rw [(firm.ahead.legible.clear root known others holds').unique ground.sound holds.there
        (one.trans two.symm)]
    | entry unrooted => exact absurd ((unrooted root known names holds).symm.trans same) Bool.false_ne_true
  | @entry r unrooted first =>
    cases also with
    | @source other others known holds _ =>
      exact absurd ((unrooted other known others holds).symm.trans back) Bool.false_ne_true
    | @entry r' _ first' =>
      have equal : f.archives.holder f.before _ = f.archives.holder f.before _ := holder_congr same
      rw [show f.archives.holder f.before (Candidate.ofEntry f.plan.roots.ending r).unit = _ from first,
        show f.archives.holder f.before (Candidate.ofEntry f.plan.roots.ending r').unit = _ from first'] at equal
      rw [Option.some.inj equal]

theorem product_eq {content artifact : ByteArray} (reads : f.content c = .ok content)
    (result : f.result c.unit content = .ok artifact) : f.product c =
      match (ArtifactCache.writeArtifact f.before
        ((f.plan.destination c.origin).path f.plan c.unit) artifact).1 with
      | .error e => .error e.message
      | .ok () => .ok artifact := by
  simp only [product, reads, result]

theorem isFinal_event (c : Candidate) : (f.event c).isFinal = true := by
  rw [event]
  split <;> rfl

theorem unit_event (c : Candidate) : (f.event c).unit = c.unit.logical := by
  rw [event]
  split <;> rfl

/-- An event tells whose it is. -/
theorem Picks.eq_of_event (firm : f.Firm asked) (picks : f.Picks c) (also : f.Picks c')
    (same : f.event c = f.event c') : c = c' := by
  refine picks.unique firm also (UnitId.beq_of_lower_eq ?_)
  rw [← unit_event, same, unit_event]

/-- A unit that comes to its end is the only one more that is done. -/
theorem Done.cases (firm : f.Firm asked) {events : List Event} (picks : f.Picks c')
    (done : f.Done (events ++ [f.event c']) c) : f.Done events c ∨ c = c' := by
  rcases List.mem_append.mp done.2 with old | new
  · exact .inl ⟨done.1, old⟩
  · exact .inr (done.1.eq_of_event firm picks (List.mem_singleton.mp new))

end Footing

/-- A stage of a build that has gone as could be told. -/
structure Foretold (f : Footing) (earlier : List UnitSource) (m : Stage) : Prop where
  jobs : ∀ t ∈ m.jobs, f.Picks t.candidate ∧ t.goal = f.plan.destination t.candidate.origin
  talks : ∀ t ∈ m.jobs, ∀ s, t.conversation = some s → ∃ content,
    f.content t.candidate = .ok content ∧ ∀ r, s.Ends r → r = f.result t.candidate.unit content
  events : ∀ e ∈ m.pass.log.events, e.isFinal = true → ∃ c, f.Picks c ∧ e = f.event c
  renews : ∀ e ∈ m.pass.log.events, ¬ e.IsCached
  calls : ∃ calls, m.pass.called = earlier ++ calls ∧
    (∀ call ∈ calls, ∃ c content, f.Picks c ∧ f.content c = .ok content ∧
      call = ⟨c.unit, c.origin, content⟩) ∧
    ∀ c content, f.content c = .ok content →
      (f.Done m.pass.log.events c ∨ ∃ t ∈ m.jobs, t.candidate = c ∧ t.conversation.isSome = true) →
        ⟨c.unit, c.origin, content⟩ ∈ calls
  booked : ∀ logical r, m.pass.manifest.units.find? logical = some r → ∃ c artifact,
    f.Makes m.pass.log.events c artifact ∧ c.unit.logical = logical ∧ r = c.recordOf artifact
  recorded : ∀ c artifact, f.Makes m.pass.log.events c artifact →
    ∃ r, m.pass.manifest.units.find? c.unit.logical = some r
  disk : ∀ place, f.Leaves m.pass.log.events place (m.pass.disk.readAt place)

section

variable {f : Footing} {asked : String → Prop} {points : List String} {heard : Bool}
  {earlier : List UnitSource} {service : Service} {m next : Stage} {p q : Pass} {ts ts' : List Job}
  {ss ss' : List (SourceRoot × SourceFile)} {es es' : List EntryRef}

namespace Footing

theorem done_append {events more : List Event} (passing : ∀ e ∈ more, e.isFinal = false)
    (c : Candidate) : f.Done (events ++ more) c ↔ f.Done events c := by
  refine ⟨fun ⟨picks, told⟩ => ⟨picks, ?_⟩, fun ⟨picks, told⟩ => ⟨picks, List.mem_append_left _ told⟩⟩
  rcases List.mem_append.mp told with old | new
  · exact old
  · exact absurd ((f.isFinal_event c).symm.trans (passing _ new)) (by simp)

theorem Leaves.congr {events later : List Event}
    (same : ∀ c artifact, f.Makes later c artifact ↔ f.Makes events c artifact) {place : Place}
    {content : Option ByteArray} (leaves : f.Leaves events place content) :
    f.Leaves later place content := by
  cases leaves with
  | stored made goes target => exact .stored ((same _ _).mpr made) goes target
  | consumed made source => exact .consumed ((same _ _).mpr made) source
  | untouched free => exact .untouched fun c artifact made => free c artifact ((same c artifact).mp made)

end Footing

namespace Foretold

/-- A build may look around and pass over units. -/
theorem congr (foretold : Foretold f earlier ⟨p, ts, ss, es⟩) {more : List Event}
    (events : q.log.events = p.log.events ++ more)
    (passing : ∀ e ∈ more, e.isFinal = false ∧ ¬ e.IsCached) (called : q.called = p.called)
    (manifest : q.manifest = p.manifest) (disk : q.disk = p.disk) :
    Foretold f earlier ⟨q, ts, ss', es'⟩ := by
  have same : ∀ c, f.Done q.log.events c ↔ f.Done p.log.events c := by
    rw [events]
    exact f.done_append fun e member => (passing e member).1
  have made : ∀ c artifact, f.Makes q.log.events c artifact ↔ f.Makes p.log.events c artifact :=
    fun c artifact => and_congr_left' (same c)
  refine ⟨foretold.jobs, foretold.talks, ?_, ?_, ?_, ?_, ?_, ?_⟩
  · intro e member final
    rcases List.mem_append.mp (events ▸ member) with old | new
    · exact foretold.events e old final
    · rw [(passing e new).1] at final
      cases final
  · intro e member
    rcases List.mem_append.mp (events ▸ member) with old | new
    · exact foretold.renews e old
    · exact (passing e new).2
  · simp only [called, same]
    exact foretold.calls
  · simp only [manifest, made]
    exact foretold.booked
  · simp only [manifest, made]
    exact foretold.recorded
  · simp only [disk]
    exact fun place => (foretold.disk place).congr made

/-- A unit that is taken up is in hand. -/
theorem begin {c : Candidate} {goal : Destination} (foretold : Foretold f earlier ⟨p, ts, ss, es⟩)
    (picks : f.Picks c) (lawful : goal = f.plan.destination c.origin) (archives : Archives)
    (tracker : Tracker) :
    Foretold f earlier ⟨{ p with archives, tracker }, ⟨c, goal, none⟩ :: ts, ss, es⟩ := by
  refine ⟨?_, ?_, foretold.events, foretold.renews, ?_, foretold.booked, foretold.recorded, foretold.disk⟩
  · intro t member
    rcases List.mem_cons.mp member with rfl | old
    · exact ⟨picks, lawful⟩
    · exact foretold.jobs t old
  · intro t member s talk
    rcases List.mem_cons.mp member with rfl | old
    · cases talk
    · exact foretold.talks t old s talk
  · obtain ⟨calls, all, drawn, made⟩ := foretold.calls
    refine ⟨calls, all, drawn, fun c content reads here => made c content reads (here.imp_right ?_)⟩
    rintro ⟨t, member, same, talk⟩
    rcases List.mem_cons.mp member with rfl | old
    · cases talk
    · exact ⟨t, old, same, talk⟩

/-- The compiler is called with what the source of a unit read as at first. -/
theorem call {c : Candidate} {goal : Destination} {content : ByteArray} {s : Session}
    (foretold : Foretold f earlier ⟨p, ⟨c, goal, none⟩ :: ts, ss, es⟩)
    (reads : f.content c = .ok content) (speaks : ∀ r, s.Ends r → r = f.result c.unit content)
    (archives : Archives) :
    Foretold f earlier ⟨{ p with archives, called := p.called ++ [⟨c.unit, c.origin, content⟩] },
      ⟨c, goal, some s⟩ :: ts, ss, es⟩ := by
  have here := foretold.jobs ⟨c, goal, none⟩ (by simp)
  refine ⟨?_, ?_, foretold.events, foretold.renews, ?_, foretold.booked, foretold.recorded, foretold.disk⟩
  · intro t member
    rcases List.mem_cons.mp member with rfl | old
    · exact here
    · exact foretold.jobs t (List.mem_cons_of_mem _ old)
  · intro t member session talk
    rcases List.mem_cons.mp member with rfl | old
    · cases talk
      exact ⟨content, reads, speaks⟩
    · exact foretold.talks t (List.mem_cons_of_mem _ old) session talk
  · obtain ⟨calls, all, drawn, made⟩ := foretold.calls
    refine ⟨calls ++ [⟨c.unit, c.origin, content⟩], by rw [← List.append_assoc, ← all], ?_, ?_⟩
    · intro call member
      rcases List.mem_append.mp member with old | new
      · exact drawn call old
      · exact ⟨c, content, here.1, reads, List.mem_singleton.mp new⟩
    · intro other text readable place
      rcases place with done | ⟨t, member, rfl, talk⟩
      · exact List.mem_append_left _ (made other text readable (.inl done))
      · rcases List.mem_cons.mp member with rfl | old
        · obtain rfl := Except.ok.inj (reads.symm.trans readable)
          exact List.mem_append_right _ (List.mem_singleton.mpr rfl)
        · exact List.mem_append_left _ (made _ text readable
            (.inr ⟨t, List.mem_cons_of_mem _ old, rfl, talk⟩))

/-- What the end of a unit does to the records and the disk. -/
inductive Books (f : Footing) (c : Candidate) (p q : Pass) : Prop where
  | failed {message} (lost : f.product c = .error message) (manifest : q.manifest = p.manifest)
      (read : ∀ place, q.disk.readAt place = p.disk.readAt place)
  | made {artifact} (kept : f.product c = .ok artifact)
      (manifest : q.manifest = p.manifest.record c.unit.logical (c.recordOf artifact))
      (goes : (f.job c).Goes f.plan f.before ((f.job c).target f.plan f.before))
      (read : ∀ place, q.disk.readAt place =
        if place = (f.job c).target f.plan f.before then some (f.before.written place artifact)
        else if (f.job c).source? f.before = some place then none else p.disk.readAt place)

/-- The innermost unit comes to its end. -/
theorem finish (firm : f.Firm asked) {t : Job} (foretold : Foretold f earlier ⟨p, t :: ts, ss, es⟩)
    (events : q.log.events = p.log.events ++ [f.event t.candidate]) (called : q.called = p.called)
    (spoken : ∀ content, f.content t.candidate = .ok content → t.conversation.isSome = true)
    (books : Books f t.candidate p q) : Foretold f earlier ⟨q, ts, ss, es⟩ := by
  have picks := (foretold.jobs t List.mem_cons_self).1
  have mono : ∀ c artifact, f.Makes p.log.events c artifact → f.Makes q.log.events c artifact :=
    fun c artifact made => ⟨⟨made.1.1, events ▸ List.mem_append_left _ made.1.2⟩, made.2⟩
  have cases : ∀ c artifact, f.Makes q.log.events c artifact →
      f.Makes p.log.events c artifact ∨ c = t.candidate := by
    rintro c artifact ⟨done, made⟩
    rw [events] at done
    exact (done.cases firm picks).imp_left fun old => ⟨old, made⟩
  refine ⟨fun t inside => foretold.jobs t (List.mem_cons_of_mem _ inside),
    fun t inside => foretold.talks t (List.mem_cons_of_mem _ inside), ?_, ?_, ?_, ?_, ?_, ?_⟩
  · intro e member final
    rcases List.mem_append.mp (events ▸ member) with old | new
    · exact foretold.events e old final
    · exact ⟨_, picks, List.mem_singleton.mp new⟩
  · intro e member cached
    rcases List.mem_append.mp (events ▸ member) with old | new
    · exact foretold.renews e old cached
    · have final := f.isFinal_event t.candidate
      rw [← List.mem_singleton.mp new, Event.isFinal, cached.1] at final
      cases final
  · obtain ⟨calls, all, drawn, made⟩ := foretold.calls
    refine ⟨calls, called.trans all, drawn, fun c content reads place => ?_⟩
    rcases place with done | ⟨t', inside, same, talk⟩
    · rw [events] at done
      rcases done.cases firm picks with old | rfl
      · exact made c content reads (.inl old)
      · exact made _ content reads (.inr ⟨t, List.mem_cons_self, rfl, spoken content reads⟩)
    · exact made c content reads (.inr ⟨t', List.mem_cons_of_mem _ inside, same, talk⟩)
  · intro logical r found
    cases books with
    | failed _ manifest =>
      rw [manifest] at found
      obtain ⟨c, artifact, made, rest⟩ := foretold.booked logical r found
      exact ⟨c, artifact, mono c artifact made, rest⟩
    | @made artifact kept manifest =>
      rw [manifest] at found
      rcases Manifest.find?_record_cases found with ⟨rfl, rfl⟩ | ⟨_, old⟩
      · exact ⟨t.candidate, artifact, ⟨⟨picks, by simp [events]⟩, kept⟩, rfl, rfl⟩
      · obtain ⟨c, other, made, rest⟩ := foretold.booked logical r old
        exact ⟨c, other, mono c other made, rest⟩
  · intro c artifact made
    cases books with
    | failed lost manifest =>
      rw [manifest]
      rcases cases c artifact made with old | rfl
      · exact foretold.recorded c artifact old
      · cases lost.symm.trans made.2
    | made kept manifest =>
      rw [manifest]
      rcases cases c artifact made with old | rfl
      · exact Manifest.find?_record_of_find? (foretold.recorded c artifact old)
      · exact ⟨_, Dict.find?_insert_self _ _ _⟩
  · intro place
    have before := foretold.disk place
    cases books with
    | failed lost _ read =>
      rw [read]
      refine before.congr fun c artifact => ⟨fun made => (cases c artifact made).resolve_right ?_,
        mono c artifact⟩
      rintro rfl
      cases lost.symm.trans made.2
    | @made artifact kept _ goes read =>
      rw [read]
      have done : f.Makes q.log.events t.candidate artifact := ⟨⟨picks, by simp [events]⟩, kept⟩
      split
      · rename_i target
        exact .stored done (target ▸ goes) target.symm
      rename_i off
      split
      · rename_i source
        exact .consumed done source
      rename_i apart
      generalize p.disk.readAt place = content at before
      cases before with
      | stored made goes target => exact .stored (mono _ _ made) goes target
      | consumed made source => exact .consumed (mono _ _ made) source
      | untouched free =>
        refine .untouched fun c other made => ?_
        rcases cases c other made with old | rfl
        · exact free c other old
        · exact ⟨fun same => off same.symm, apart⟩

/-- Every move goes as could be told, if what is taken up is what its unit is to be compiled from and
the compiler makes of it what it always makes of it. -/
theorem move (firm : f.Firm asked) (quiet : service.Quiet)
    (foreseen : Foreseen (f.plan.withService service) f.archives f.before heard earlier m)
    (foretold : Foretold f earlier m) (move : Move (f.plan.withService service) points m next)
    (picks : ∀ c goal archives, Offer (f.plan.withService service) points m c goal archives →
      m.pass.tracker.has c.unit = false →
        f.Picks c ∧ goal = f.plan.destination c.origin)
    (yields : ∀ n u, next.pass.called[n]? = some u → ∀ r, (service n u).Ends r →
      r = f.result u.unit u.content) : Foretold f earlier next := by
  have ahead := firm.ahead.withService quiet
  cases move with
  | check | search | list | unpack =>
    exact foretold.congr (List.append_nil _).symm (by simp) rfl rfl rfl
  | pass =>
    exact foretold.congr (Log.events_addSkipped _ _ _) (by simp [Event.isFinal, Event.IsCached, Pass.alreadyResolved]) rfl rfl rfl
  | @yield p ss es root file winner =>
    refine foretold.congr (Log.events_addSkipped _ _ _) ?_ rfl rfl rfl
    simp only [List.mem_singleton, forall_eq]
    refine ⟨rfl, fun cached => ?_⟩
    have first := congrArg (fun text : String => text.toList.head?) cached.2
    simp at first
  | @keep p ss es r artifact listed fresh cached =>
    -- nothing is cached of a unit that was not taken up
    have provided := foreseen.provides (foreseen.underway.sourced.entries r listed)
    have same := foreseen.cached_same ahead (UnitId.tidy_ofEntry _ _) (UnitId.straight_ofEntry _ _) fresh
    have none := firm.empty _ (provided.withService f.plan.service)
    exact absurd (cached.symm.trans (same.trans none)) (by simp)
  | begin offer fresh =>
    obtain ⟨right, goal⟩ := picks _ _ _ offer fresh
    exact foretold.begin right goal _ _
  | @unread p c goal ts ss es e archives loaded =>
    have reads := foreseen.load_same ahead (t := ⟨c, goal, none⟩) List.mem_cons_self
    simp only [loaded] at reads
    have lost : f.product c = .error e.message := by simp only [Footing.product, Footing.content, ← reads]
    refine foretold.finish firm ?_ rfl ?_ (.failed lost rfl fun _ => rfl)
    · simp [Footing.event, lost, Pass.fail]
    · intro content readable
      rw [Footing.content, ← reads] at readable
      cases readable
  | @call p c goal ts ss es content archives loaded =>
    have reads := foreseen.load_same ahead (t := ⟨c, goal, none⟩) List.mem_cons_self
    simp only [loaded] at reads
    exact foretold.call reads.symm (yields _ _ (by simp)) _
  | replace loud => exact absurd quiet loud
  | @reject p c goal s ts ss es e ends =>
    obtain ⟨content, reads, speaks⟩ := foretold.talks _ List.mem_cons_self s rfl
    have lost : f.product c = .error e.message := by
      simp only [Footing.product, reads, ← speaks _ ends]
    refine foretold.finish firm ?_ rfl (fun _ _ => rfl) (.failed lost rfl fun _ => rfl)
    simp [Footing.event, lost, Pass.fail]
  | @deliver p c goal s ts ss es artifact ends =>
    obtain ⟨content, reads, speaks⟩ := foretold.talks _ List.mem_cons_self s rfl
    obtain rfl : goal = f.plan.destination c.origin := (foretold.jobs _ List.mem_cons_self).2
    have delivery := foreseen.delivered ahead (t := ⟨c, f.plan.destination c.origin, some s⟩) rfl artifact
    rw [show Destination.path (f.plan.withService service) = Destination.path f.plan from rfl] at delivery
    rcases delivery with ⟨e, d, stored, delivered, leaves⟩ | ⟨stored, goes, d, delivered, read⟩
    · have lost : f.product c = .error e.message := by
        rw [Footing.product_eq reads (speaks _ ends).symm, stored]
      rw [delivered]
      refine foretold.finish firm ?_ rfl (fun _ _ => rfl)
        (.failed lost rfl fun place => readAt_congr (leaves place))
      simp [Footing.event, lost, Pass.fail, Pass.setDisk]
    · have kept : f.product c = .ok artifact := by
        rw [Footing.product_eq reads (speaks _ ends).symm, stored]
      rw [delivered]
      refine foretold.finish firm ?_ rfl (fun _ _ => rfl) (.made kept rfl ?_ read)
      · simp [Footing.event, kept]
      · exact (goes.withService f.plan.service).congr rfl rfl

end Foretold

end

section

variable {f : Footing} {points : List String} {heard : Bool} {earlier : List UnitSource}
  {service : Service} {m : Stage}

/-- What is offered of an archive is of the first one that holds the unit, if so is what was listed. -/
theorem Offer.holder {plan : Plan} {as : Archives} {before : Disk}
    (ahead : plan.Foreseeable as before) (foreseen : Foreseen plan as before heard earlier m)
    (listed : ∀ r ∈ m.entries, m.pass.tracker.has (.ofEntry r.entry plan.roots.ending) = false →
      as.holder before (.ofEntry r.entry plan.roots.ending) = some r)
    {c : Candidate} {goal : Destination} {archives : Archives}
    (offer : Offer plan points m c goal archives) (fresh : m.pass.tracker.has c.unit = false)
    {r : EntryRef} (origin : c.origin = .archive r) : as.holder before c.unit = some r := by
  have underway := foreseen.underway
  cases offer with
  | @asked p ts ss es c archives symbol asked named untracked located =>
    rcases Pass.locate_spec located with ⟨f, _, rfl⟩ | ⟨_, found, entry, rfl, _⟩
    · cases origin
    · obtain rfl := Origin.archive.inj origin
      have unit : ((Candidate.ofEntry plan.roots.ending found).unit == .ofSymbol symbol) = true :=
        (Archives.find_first underway.distinct entry).unit underway.kept.find
      refine (Footing.holder_congr unit).trans ?_
      exact (foreseen.find_same ahead (.ofSymbol symbol)).symm.trans entry
  | source | generated => cases origin
  | entry inside =>
    obtain rfl := Origin.archive.inj origin
    exact listed _ inside fresh

/-- What is offered is what its unit is to be compiled from, if so is what was listed of archives and no
entry is listed before all sources are taken up. -/
theorem Offer.picks (firm : f.Firm ((f.plan.withService service).Asks points)) (quiet : service.Quiet)
    (foreseen : Foreseen (f.plan.withService service) f.archives f.before heard earlier m)
    (turn : m.entries = [] ∨ ∀ root ∈ f.plan.roots.roots, ∀ names,
      f.plan.roots.Holds f.before root names →
        m.pass.tracker.has (f.plan.roots.below root names).unit = true)
    (listed : ∀ r ∈ m.entries, m.pass.tracker.has (.ofEntry r.entry f.plan.roots.ending) = false →
      f.archives.holder f.before (.ofEntry r.entry f.plan.roots.ending) = some r)
    {c : Candidate} {goal : Destination} {archives : Archives}
    (offer : Offer (f.plan.withService service) points m c goal archives)
    (fresh : m.pass.tracker.has c.unit = false) :
    f.Picks c ∧ goal = f.plan.destination c.origin := by
  have ahead := firm.ahead.withService quiet
  have ground := ahead.ground
  have underway := foreseen.underway
  have prefers := offer.prefers ground ahead.ordered firm.first ahead.legible firm.unmistaken underway
    (foreseen.clear ahead) turn fresh
  have known := underway.sourced.offered ground.proper ground.orderly.plain underway.distinct
    foreseen.frame offer
  have first : ∀ r, c.origin = .archive r → f.archives.holder f.before c.unit = some r :=
    fun r => offer.holder ahead foreseen listed fresh
  constructor
  · cases known with
    | @source root names declared holds =>
      obtain ⟨_, _, _, _, _, _, _, least⟩ := prefers
      exact .source declared holds least
    | entry => exact .entry prefers (first _ rfl)
  · cases offer with
    | asked => rfl
    | source inside declared =>
      obtain ⟨here, names, _, rfl⟩ := underway.sourced.listed ground.proper foreseen.frame inside
      exact (ground.proper.destination_declared here declared _).symm
    | generated inside marked =>
      obtain ⟨here, names, _, rfl⟩ := underway.sourced.listed ground.proper foreseen.frame inside
      exact (@Plan.destination_generated f.plan _ here marked _).symm
    | entry => rfl

/-- In the calls that were made a compiler ends in what depends on the unit and its content alone. -/
def Service.Yields (service : Service) (result : UnitId → ByteArray → Except CompileError ByteArray)
    (called : List UnitSource) : Prop :=
  ∀ n u, called[n]? = some u → ∀ r, (service n u).Ends r → r = result u.unit u.content

theorem Service.Yields.before {result : UnitId → ByteArray → Except CompileError ByteArray}
    {called later : List UnitSource} (yields : service.Yields result later)
    (grows : called <+: later) : service.Yields result called :=
  by
  obtain ⟨more, rfl⟩ := grows
  exact fun n u made => yields n u (((List.getElem?_append_left (List.getElem?_eq_some_iff.mp made).1).trans made))

namespace Foretold

theorem after {a b : Stage} (firm : f.Firm ((f.plan.withService service).Asks points))
    (quiet : service.Quiet)
    (foreseen : Foreseen (f.plan.withService service) f.archives f.before heard earlier a)
    (foretold : Foretold f earlier a) (course : Course (f.plan.withService service) points a b)
    (turn : b.entries = [] ∨ ∀ root ∈ f.plan.roots.roots, ∀ names,
      f.plan.roots.Holds f.before root names →
        a.pass.tracker.has (f.plan.roots.below root names).unit = true)
    (listed : ∀ r ∈ b.entries, a.pass.tracker.has (.ofEntry r.entry f.plan.roots.ending) = false →
      f.archives.holder f.before (.ofEntry r.entry f.plan.roots.ending) = some r)
    (yields : service.Yields f.result b.pass.called) : Foretold f earlier b := by
  have ahead := firm.ahead.withService quiet
  refine (course.invariant_between (fun m =>
    Foreseen (f.plan.withService service) f.archives f.before heard earlier m ∧ Foretold f earlier m) ?_
    ⟨foreseen, foretold⟩).2
  rintro m next since rest ⟨foreseen, foretold⟩ move
  refine ⟨foreseen.move ahead move, foretold.move firm quiet foreseen move ?_ (yields.before rest.called)⟩
  have remaining : Course (f.plan.withService service) points m b := (Course.of move).trans rest
  have onward := Onward.of_course since
  intro c goal archives offer fresh
  refine offer.picks firm quiet foreseen ?_ ?_ fresh
  · rcases turn with none | all
    · exact .inl (List.eq_nil_of_subset_nil (none ▸ remaining.entries_subset))
    · exact .inr fun root known names holds => onward.tracked _ (all root known names holds)
  · intro r member untracked
    refine listed r (remaining.entries_subset member) ?_
    by_contra old
    rw [onward.tracked _ (by simpa using old)] at untracked
    cases untracked

/-- What was listed may be forgotten. -/
theorem rest {p : Pass} {ss : List (SourceRoot × SourceFile)} {es : List EntryRef}
    (foretold : Foretold f earlier ⟨p, [], ss, es⟩) : Foretold f earlier ⟨p, [], [], []⟩ :=
  foretold.congr (List.append_nil _).symm (by simp) rfl rfl rfl

end Foretold

/-- A build that has taken up all sources and the units of some archives, and no others. -/
structure Footing.Reached (f : Footing) (service : Service) (heard : Bool) (earlier : List UnitSource)
    (front : List Path) (p : Pass) : Prop where
  foreseen : Foreseen (f.plan.withService service) f.archives f.before heard earlier ⟨p, [], [], []⟩
  foretold : Foretold f earlier ⟨p, [], [], []⟩
  sources : ∀ root ∈ f.plan.roots.roots, ∀ names, f.plan.roots.Holds f.before root names →
    p.tracker.has (f.plan.roots.below root names).unit = true
  entries : ∀ path ∈ front, ∀ v name, (v, name) ∈ f.archives.heldAt f.before path →
    p.tracker.has (.ofEntry name f.plan.roots.ending) = true

namespace Footing

variable {depth : Nat} {p : Pass} {front back : List Path} {archive : Path}

/-- An entry whose unit was not taken up is in the first archive that holds the unit, if those before
were swept. -/
theorem Reached.holder (firm : f.Firm ((f.plan.withService service).Asks points))
    (reached : f.Reached service heard earlier front p)
    (parts : f.archives.paths = front ++ archive :: back) {v : UnitId} {name : String}
    (member : (v, name) ∈ f.archives.heldAt f.before archive)
    (fresh : p.tracker.has (.ofEntry name f.plan.roots.ending) = false) :
    f.archives.holder f.before (.ofEntry name f.plan.roots.ending) = some ⟨archive, name⟩ := by
  have owned := fun path => firm.ending ▸ f.archives.owned_heldAt f.before path
  have passed : front.findSome? (fun path => (EntryName.entryIn (f.archives.heldAt f.before path)
      (.ofEntry name f.plan.roots.ending)).map (⟨path, ·⟩ : String → EntryRef)) = none := by
    refine List.findSome?_eq_none_iff.mpr fun path inside => ?_
    rcases found : EntryName.entryIn (f.archives.heldAt f.before path)
      (.ofEntry name f.plan.roots.ending) with _ | other
    · rfl
    obtain ⟨w, held, same⟩ := EntryName.mem_of_entryIn found
    have tracked := reached.entries path inside w other held
    rw [← (owned path).named w other held, Tracker.has_congr same, fresh] at tracked
    cases tracked
  have here : EntryName.entryIn (f.archives.heldAt f.before archive)
      (.ofEntry name f.plan.roots.ending) = some name := by
    refine (owned archive).entryIn_eq member ?_
    rw [(owned archive).named v name member]
    exact UnitId.beq_self _
  rw [Archives.holder, parts, List.findSome?_append, passed, Option.none_or, List.findSome?_cons, here]
  rfl

/-- With its sweep an archive is one of those whose units were taken up. -/
theorem Reached.sweepArchive (firm : f.Firm ((f.plan.withService service).Asks points))
    (quiet : service.Quiet) (reached : f.Reached service heard earlier front p)
    (parts : f.archives.paths = front ++ archive :: back)
    (calm : (p.sweepArchive (f.plan.withService service) depth archive).cancelled = false)
    (yields : service.Yields f.result
      (p.sweepArchive (f.plan.withService service) depth archive).called) :
    f.Reached service heard earlier (front ++ [archive])
      (p.sweepArchive (f.plan.withService service) depth archive) := by
  have ahead := firm.ahead.withService quiet
  have registered : archive ∈ f.archives.paths := by simp [parts]
  have known : archive ∈ p.archives.paths := reached.foreseen.contained.paths ▸ registered
  have listing : (p.archives.entries p.disk archive).1 =
      Archives.sortedEntries (f.archives.heldAt f.before archive) :=
    reached.foreseen.entries_same ahead registered
  have lists : ∀ name, name ∈ (p.archives.entries p.disk archive).1 ↔
      ∃ v, (v, name) ∈ f.archives.heldAt f.before archive := by
    intro name
    simp [listing, Archives.sortedEntries]
  have course : Course (f.plan.withService service) points ⟨p, [], [], []⟩
      ⟨p.sweepArchive (f.plan.withService service) depth archive, [], [],
        [] ++ (p.archives.entries p.disk archive).1.map (⟨archive, ·⟩)⟩ :=
    (Course.of (.unpack known)).trans (foldl_course _ fun entry member q =>
      Pass.sweepEntry_course depth (List.mem_map_of_mem member) q)
  have onward := Onward.of_course course
  have foretold := reached.foretold.after firm quiet reached.foreseen course (.inr reached.sources) (by
    intro r inside fresh
    obtain ⟨name, listed, rfl⟩ := List.mem_map.mp (by simpa using inside)
    obtain ⟨v, held⟩ := (lists name).mp listed
    exact reached.holder firm parts held fresh) yields
  refine ⟨(reached.foreseen.after ahead course).rest, foretold.rest, ?_, ?_⟩
  · exact fun root declared names holds => onward.tracked _ (reached.sources root declared names holds)
  · intro path inside v name held
    rcases List.mem_append.mp inside with earlier | here
    · exact onward.tracked _ (reached.entries path earlier v name held)
    · obtain rfl := List.mem_singleton.mp here
      obtain ⟨_, _, _, rest⟩ := @Pass.sweepArchive_at (f.plan.withService service) depth _ _ _
        ((lists name).mpr ⟨v, held⟩)
      rcases Pass.sweepEntry_cases rest calm with done | ⟨_, told⟩
      · exact done
      · exact absurd ⟨rfl, rfl⟩ (foretold.renews _ told)

theorem Reached.sweepArchives (firm : f.Firm ((f.plan.withService service).Asks points))
    (quiet : service.Quiet) (reached : f.Reached service heard earlier [] p)
    (calm : (p.sweepArchives (f.plan.withService service) depth).cancelled = false)
    (yields : service.Yields f.result
      (p.sweepArchives (f.plan.withService service) depth).called) :
    f.Reached service heard earlier f.archives.paths
      (p.sweepArchives (f.plan.withService service) depth) := by
  have paths : p.archives.paths = f.archives.paths := reached.foreseen.contained.paths
  suffices all : ∀ front back, f.archives.paths = front ++ back →
      f.Reached service heard earlier front
        (front.foldl (Pass.sweepArchive (f.plan.withService service) depth) p) by
    rw [Pass.sweepArchives, paths]
    exact all _ [] (by simp)
  intro front
  induction front using List.reverseRecOn with
  | nil => exact fun _ _ => reached
  | append_singleton front archive ih =>
    intro back parts
    rw [List.append_assoc] at parts
    -- What comes after takes back neither the calls nor that somebody stopped the build.
    have last : Leads (f.plan.withService service) points True
        ((front ++ [archive]).foldl (Pass.sweepArchive (f.plan.withService service) depth) p)
        (p.sweepArchives (f.plan.withService service) depth) :=
      (Pass.sweepArchives_at depth
        (paths.trans (parts.trans (List.append_assoc front [archive] back).symm))).2
    obtain ⟨_, _, _, rest⟩ := last [] []
    rw [List.foldl_append] at rest ⊢
    exact (ih _ parts).sweepArchive firm quiet parts ((Onward.of_course rest).calm calm)
      (yields.before rest.called)

variable {c c' : Candidate} {asked : String → Prop} {events : List Event} {place : Place}

theorem Picks.lawful (proper : f.plan.Proper) (picks : f.Picks c) : (f.job c).Lawful f.plan := by
  refine lawful_asked proper ?_
  cases picks with
  | source known holds => exact .inl ⟨_, known, _, holds.1, rfl⟩
  | entry => exact .inr ⟨_, rfl⟩

/-- A source that a unit is to be compiled from was there at first. -/
theorem Picks.known (picks : f.Picks c) {rank : Nat} {path : Path} (origin : c.origin = .root rank path)
    (archives : Archives) : c.Known f.plan f.before archives := by
  cases picks with
  | source known holds => exact .source known holds
  | entry => cases origin

theorem Picks.provides (picks : f.Picks c) : f.plan.Provides f.archives f.before c.unit := by
  cases picks with
  | source known holds => exact .source known holds
  | entry _ first =>
    obtain ⟨path, registered, found⟩ := List.exists_of_findSome?_eq_some first
    obtain ⟨name, entry, rfl⟩ := Option.map_eq_some_iff.mp found
    obtain ⟨v, member, _⟩ := EntryName.mem_of_entryIn entry
    exact .entry registered member

end Footing

/-- No artifact goes where a source may be. -/
theorem Job.Goes.not_carries {plan : Plan} {d : Disk} {t : Job} {place : Place} (proper : plan.Proper)
    (tidy : t.candidate.unit.Tidy) (goes : t.Goes plan d place) : ¬ Carries plan.roots.ending place := by
  cases goes with
  | cached => exact ArtifactCache.not_carries_placeFor proper.artifact proper.differ d tidy
  | beside =>
    intro carries
    exact not_isArtifactIn (d := d) proper.artifact proper.differ carries
      ⟨_, _, rfl, _, _, rfl, Text.sameIgnoringCase_self _⟩

namespace Footing

/-- No two artifacts go to one place. -/
theorem Picks.eq_of_goes (firm : f.Firm asked) (picks : f.Picks c) (also : f.Picks c')
    (goes : (f.job c).Goes f.plan f.before place) (goes' : (f.job c').Goes f.plan f.before place) :
    c = c' := by
  have ground := firm.ahead.ground
  have homed : f.plan.Homed f.before := fun root known _ front back same =>
    absurd same (firm.ahead.apart root known front back)
  have named : ∀ {one two : Candidate}, f.Picks one → f.Picks two →
      one.unit.logical = two.unit.logical → one = two := fun first second same =>
    first.unique firm second (UnitId.beq_of_lower_eq (congrArg Text.lower same))
  cases goes with
  | cached =>
    exact (named also picks (goes'.logical ground.proper homed (picks.lawful ground.proper).straight)).symm
  | @beside root front name head old known generated proper parts alike source =>
    generalize here : f.before.placeOf root.path ++ (front ++ [head ++ "." ++ f.plan.cache.ending]) = target
      at goes'
    cases goes' with
    | cached => exact absurd here (firm.ahead.apart root known _ _)
    | @beside other front' name' head' old' declared also' proper' parts' alike' source' =>
      have names := ground.orderly.names_eq known declared here
      obtain ⟨rfl, last⟩ := List.append_inj' names rfl
      have heads : head = head' := by simpa [String.append_assoc] using last
      subst heads
      -- the names of both sources differ in their extensions at most
      have segments : ∀ {one : Candidate} {root name old}, f.Picks one → root ∈ f.plan.roots.roots →
          (∀ n ∈ front ++ [name], IsName n) → Path.Extends name head old →
          Text.sameIgnoringCase old f.plan.roots.ending = true →
          one = .ofSource (f.plan.roots.below root (front ++ [name])) →
            one.unit.segments = front ++ [head] := by
        intro one root name old picks known proper parts alike source
        have origin := congrArg Candidate.origin source
        rw [Candidate.origin_ofSource] at origin
        have holds := (source ▸ picks.known origin f.archives).holds ground.proper known proper
        rw [source, Candidate.unit_ofSource, Roots.unit_below]
        exact UnitId.segments_ofRelative proper (ground.orderly.straight root known _ holds) parts alike
      have same : c.unit.segments = c'.unit.segments := by
        rw [segments picks known proper parts alike source,
          segments also declared proper' parts' alike' source']
      exact named picks also (UnitId.logical_of_fileNames
        (congrArg (UnitId.fileNames f.plan.cache.ending) same))

/-- What is removed is a source. -/
theorem Picks.source_carries (firm : f.Firm asked) (picks : f.Picks c)
    (source : (f.job c).source? f.before = some place) : Carries f.plan.roots.ending place := by
  cases picks with
  | @source root names known holds =>
    have lies : f.before.placeOf (f.plan.roots.below root names).path =
        f.before.placeOf root.path ++ names := by
      rw [Roots.path_below, placeOf_joinRelative holds.1.proper]
    simp only [Job.source?, job, Candidate.origin_ofSource] at source
    split at source
    · rename_i origin
      obtain ⟨_, rfl⟩ := Origin.root.inj origin
      rw [← Option.some.inj source, lies]
      exact holds.1.append (firm.ahead.ground.sound.names holds.there)
    · cases source
  | entry =>
    simp only [Job.source?, job, Candidate.ofEntry] at source
    split at source
    · rename_i origin
      cases origin
    · cases source

/-- What is left at a place is told by the units that came to their ends. -/
theorem Leaves.unique (firm : f.Firm asked) {later : List Event}
    (same : ∀ c artifact, f.Makes later c artifact ↔ f.Makes events c artifact)
    {one two : Option ByteArray} (first : f.Leaves events place one)
    (second : f.Leaves later place two) : one = two := by
  have again := second.congr fun c artifact => (same c artifact).symm
  have apart : ∀ {c c' artifact artifact'}, f.Makes events c artifact → f.Makes events c' artifact' →
      (f.job c).Goes f.plan f.before place → (f.job c').source? f.before ≠ some place :=
    fun made made' goes source => goes.not_carries firm.ahead.ground.proper
      (made.1.1.lawful firm.ahead.ground.proper).tidy (made'.1.1.source_carries firm source)
  cases first with
  | stored made goes target =>
    cases again with
    | stored made' goes' =>
      obtain rfl := made.1.1.eq_of_goes firm made'.1.1 goes goes'
      rw [Except.ok.inj (made.2.symm.trans made'.2)]
    | consumed made' source => exact absurd source (apart made made' goes)
    | untouched free => exact absurd target (free _ _ made).1
  | consumed made source =>
    cases again with
    | stored made' goes => exact absurd source (apart made' made goes)
    | consumed => rfl
    | untouched free => exact absurd source (free _ _ made).2
  | untouched free =>
    cases again with
    | stored made _ target => exact absurd target (free _ _ made).1
    | consumed made source => exact absurd source (free _ _ made).2
    | untouched => rfl

namespace Reached

variable {other : Service} {q : Pass}

/-- The units that were taken up are those that were in reach. -/
theorem tracked_iff (reached : f.Reached service heard earlier f.archives.paths p) {u : UnitId} :
    p.tracker.has u = true ↔ ∃ v, f.plan.Provides f.archives f.before v ∧ (v == u) = true := by
  constructor
  · intro tracked
    obtain ⟨v, member, same⟩ := Tracker.has_iff.mp tracked
    exact ⟨v, (reached.foreseen.contained.tracked v member).withService f.plan.service,
      UnitId.beq_iff.mpr same⟩
  · rintro ⟨v, provided, same⟩
    rw [← Tracker.has_congr same]
    cases provided with
    | source known holds => exact reached.sources _ known _ holds
    | entry registered member => exact reached.entries _ registered _ _ member

variable (firm : f.Firm asked) (reached : f.Reached service heard earlier f.archives.paths p)

include firm reached

/-- Whatever is to be compiled came to the end that could be told. -/
theorem told (picks : f.Picks c) : f.event c ∈ p.log.events := by
  obtain ⟨v, member, same⟩ := Tracker.has_iff.mp
    (reached.tracked_iff.mpr ⟨_, picks.provides, UnitId.beq_self _⟩)
  have ended := reached.foreseen.underway.midway.account.finals_perm.subset
    (List.mem_map.mpr ⟨v, member, rfl⟩)
  obtain ⟨e, final, unit⟩ := List.mem_map.mp ended
  obtain ⟨inside, ends⟩ := List.mem_filter.mp final
  obtain ⟨c', also, rfl⟩ := reached.foretold.events e inside ends
  rw [unit_event] at unit
  have alike : (c'.unit == v) = true := UnitId.beq_of_lower_eq (congrArg Text.lower unit)
  obtain rfl := also.unique firm picks
    (UnitId.beq_iff.mpr ((UnitId.beq_iff.mp alike).trans same))
  exact inside

theorem mem_finals {e : Event} : e ∈ finals p.log.events ↔ ∃ c, f.Picks c ∧ e = f.event c := by
  constructor
  · intro member
    obtain ⟨inside, final⟩ := List.mem_filter.mp member
    exact reached.foretold.events e inside final
  · rintro ⟨c, picks, rfl⟩
    exact List.mem_filter.mpr ⟨reached.told firm picks, f.isFinal_event c⟩

theorem makes_iff {artifact : ByteArray} :
    f.Makes p.log.events c artifact ↔ f.Picks c ∧ f.product c = .ok artifact :=
  ⟨fun made => ⟨made.1.1, made.2⟩, fun ⟨picks, kept⟩ => ⟨⟨picks, reached.told firm picks⟩, kept⟩⟩

theorem find?_eq {logical : String} {r : ArtifactRecord} :
    p.manifest.units.find? logical = some r ↔ ∃ c artifact, (f.Picks c ∧ f.product c = .ok artifact) ∧
      c.unit.logical = logical ∧ r = c.recordOf artifact := by
  simp only [← reached.makes_iff firm]
  refine ⟨reached.foretold.booked logical r, ?_⟩
  rintro ⟨c, artifact, made, rfl, rfl⟩
  obtain ⟨r, found⟩ := reached.foretold.recorded c artifact made
  obtain ⟨c', artifact', made', named, rfl⟩ := reached.foretold.booked _ r found
  obtain rfl := made'.1.1.unique firm made.1.1 (UnitId.beq_of_lower_eq (congrArg Text.lower named))
  rw [found, Except.ok.inj (made'.2.symm.trans made.2)]

theorem calls : ∃ calls, p.called = earlier ++ calls ∧ calls.Nodup ∧ ∀ call, call ∈ calls ↔
    ∃ c content, f.Picks c ∧ f.content c = .ok content ∧ call = ⟨c.unit, c.origin, content⟩ := by
  obtain ⟨calls, all, drawn, made⟩ := reached.foretold.calls
  obtain ⟨others, same, once, _⟩ := reached.foreseen.underway.midway.account.calls
  obtain rfl := List.append_cancel_left (all.symm.trans same)
  refine ⟨calls, all, (List.nodup_append.mp once).1.of_map, fun call => ⟨drawn call, ?_⟩⟩
  rintro ⟨c, content, picks, reads, rfl⟩
  exact made c content reads (.inl ⟨picks, reached.told firm picks⟩)

/-! Two builds that reached all units come to the same. -/

variable (again : f.Reached other heard earlier f.archives.paths q)

include again

theorem perm_finals : (finals q.log.events).Perm (finals p.log.events) := by
  refine (List.perm_ext_iff_of_nodup again.foreseen.underway.midway.account.finals_distinct.of_map
    reached.foreseen.underway.midway.account.finals_distinct.of_map).mpr fun e => ?_
  rw [again.mem_finals firm, reached.mem_finals firm]

theorem names_eq : q.tracker.names = p.tracker.names := by
  have one := (Tracker.names_perm q.tracker).trans again.foreseen.underway.midway.account.finals_perm
  have two := (Tracker.names_perm p.tracker).trans reached.foreseen.underway.midway.account.finals_perm
  exact ((one.trans ((reached.perm_finals firm again).map _)).trans two.symm).eq_of_pairwise
    (fun _ _ _ _ => String.le_antisymm) (Tracker.names_sorted _) (Tracker.names_sorted _)

theorem find?_carryOver (quiet : service.Quiet) (quiet' : other.Quiet) (previous : Option Manifest)
    (logical : String) :
    (q.carryOver (f.plan.withService other) previous).manifest.units.find? logical =
      (p.carryOver (f.plan.withService service) previous).manifest.units.find? logical := by
  have same : q.manifest.units.find? logical = p.manifest.units.find? logical := by
    refine Option.ext fun r => ?_
    rw [again.find?_eq firm, reached.find?_eq firm]
  cases previous with
  | none => exact same
  | some m =>
    refine Manifest.find?_carryOver_congr same fun r => ?_
    have tracked : ∀ u, q.tracker.has u = p.tracker.has u := fun u => by
      rw [Bool.eq_iff_iff, again.tracked_iff, reached.tracked_iff]
    rw [again.foreseen.stillHolds_eq (firm.ahead.withService quiet'),
      reached.foreseen.stillHolds_eq (firm.ahead.withService quiet), tracked]
    rfl

end Reached

end Footing

end

namespace Builder

variable {b : Builder} {env : Environment} {heard heard' : Bool} {cancel cancel' : Cancel} {s s' : Site}
  {summary : Summary} {service : Service} {points : List String}
  {result : UnitId → ByteArray → Except CompileError ByteArray}

/-- The same builder with other entry points and another compiler. -/
def asking (b : Builder) (points : List String) (service : Service) : Builder :=
  { b with
    layout := { b.layout with naming := { b.layout.naming with entryPoints := points } }
    service }

section

variable {config : Config} {project : Path} (accepted : config.check = .ok ())
  (layout : b.layout = .resolve project config) (quiet : b.service.Quiet)
  (sheltered : b.Sheltered env s.disk)
  (bare : ∀ u, (b.plan env .never).Provides b.archives s.disk u →
    s.disk.leafAt (b.cache.placeFor s.disk u) = none)
  (made : b.cache.ensureFolder s.disk = (.ok (), (b.cache.ensureFolder s.disk).2))

include accepted layout quiet sheltered bare made

omit made

end

end Builder
namespace Scripted

/-- What following lines ends in, whatever is found on the way. -/
def verdict (u : UnitId) (content : ByteArray) : Nat → List String → Except CompileError ByteArray
  | _, [] => .ok (mark ++ content)
  | n, line :: rest =>
    let order := Text.trim line
    if (Text.afterStart? "use " order).isSome then verdict u content (n + 1) rest
    else if order = "fail" then .error (.rejected "syntax error" (some n))
    else if order = "panic" then
      .error (.panicked (Breakdown.message (some ("scripted compiler panic in " ++ toString u))))
    else verdict u content (n + 1) rest

theorem verdict_of_ends {u : UnitSource} {n : Nat} {lines : List String}
    {r : Except CompileError ByteArray} (ends : (follow u n lines).Ends r) :
    r = verdict u.unit u.content n lines := by
  induction lines generalizing n with
  | nil =>
    cases ends
    rfl
  | cons line rest ih =>
    simp only [follow] at ends
    simp only [verdict]
    rcases order : Text.afterStart? "use " (Text.trim line) with _ | symbol
    · simp only [order] at ends
      rw [if_neg (by simp)]
      split at ends
      · rename_i fails
        rw [if_pos fails]
        cases ends
        rfl
      rename_i goes
      rw [if_neg goes]
      split at ends
      · rename_i breaks
        rw [if_pos breaks]
        cases ends
        rfl
      · rename_i on
        rw [if_neg on]
        exact ih ends
    · simp only [order] at ends
      cases ends with
      | resolve later => exact ih later

def result (u : UnitId) (content : ByteArray) : Except CompileError ByteArray :=
  verdict u content 1 (Text.lines (Utf8.decodeLossy content))

theorem yields (called : List UnitSource) : service.Yields result called :=
  fun _ _ _ _ ends => verdict_of_ends ends

end Scripted

namespace Builder

variable {b : Builder} {s : Site}

/-- A build that is repeated on what it left may record another archive for a unit: an artifact that is
cached by then is recorded for every archive that holds the unit, and the last record stays. -/
theorem build_records_otherwise : jarsConfig.check = .ok () ∧ jars.layout.cache = jars.layout.generated ∧
    jars.layout.primary ∈ jars.layout.roots ∧ jars.service.Quiet ∧
    (∀ called, jars.service.Yields Scripted.result called) ∧ jarsFirst.disk.Sound ∧
    (∀ p, jarsFirst.disk.Plain p) ∧ ∃ report s' m report' s'' m',
      jars.build .prod true .never jarsFirst = (.ok report, s') ∧ report.preparation.failed = 0 ∧
      report.summary.ran = true ∧ report.summary.cancelled = false ∧ report.summary.errors = 0 ∧
      Manifest.load s'.disk jars.layout.cache = .ok (some m) ∧
      jars.build .prod true .never s' = (.ok report', s'') ∧
      report'.summary.ran = true ∧ report'.summary.cancelled = false ∧
      Manifest.load s''.disk jars.layout.cache = .ok (some m') ∧ m'.units ≠ m.units := by
  obtain ⟨⟨begun, first⟩, before, after, writable⟩ := jars_outcome
  simp only [Prod.mk.injEq, Option.map_eq_some_iff] at begun first before after writable
  obtain ⟨⟨preparation, readied, intact⟩, wished, opened⟩ := begun
  obtain ⟨calm, errors, own⟩ := first
  obtain ⟨prepared, asked, opened', _⟩ := before
  obtain ⟨calm', _, _, other⟩ := after
  have layout : jars.layout = .resolve ⟨"/p"⟩ jarsConfig := rfl
  have sound : jarsFirst.disk.Sound := sound_siteOf jarsFiles
  have plain : jars.layout.Plain jarsFirst.disk := fun folder _ => plain_siteOf jarsFiles folder
  obtain ⟨source, artifact, differ⟩ := Config.extensions_of_check jars_accepted
  have proper : (jars.plan .prod .never).Proper := plan_proper source artifact differ
  have loads : ∀ {s s' : Site} {summary : Summary},
      s ∈ [jars.ready jarsFirst, jars.again .prod true .never jarsFirst] →
      jarsFirst.disk.Changes (fun _ => True) s.disk →
      jars.compile .prod true .never s = (.ok summary, s') → summary.ran = true →
      Manifest.load s'.disk jars.layout.cache = .ok (some (jars.filled .prod true .never s)) := by
    intro s s' summary member since built ran
    obtain ⟨saved, free⟩ := writable s member
    refine compile_loads proper quiet_jars since.sound (plain.mono since) (fun device there => ?_)
      built ran (ok_of_toOption saved)
    simp [there] at free
  obtain ⟨summary, s', built, compiled, ran⟩ := @ready_runs jars .prod true .never _ _ readied wished opened
  obtain ⟨told, _⟩ := compile_summarizes compiled ran
  obtain ⟨report, s'', rebuilt, recompiled, reran⟩ := again_runs prepared asked opened'
  obtain ⟨told', _⟩ := compile_summarizes recompiled reran
  rw [built] at rebuilt
  obtain ⟨record, found, tells⟩ := own
  obtain ⟨record', found', tells'⟩ := other
  refine ⟨jars_accepted, rfl, by decide +kernel, quiet_jars, Scripted.yields, sound,
    plain_siteOf jarsFiles, _, s', _, report, s'', _, built, intact, ran, ?_, ?_,
    loads (by simp) (changes_ready artifact sound plain) compiled ran, rebuilt, reran, ?_,
    loads (by simp) (changes_again jars_accepted layout quiet_jars sound plain) recompiled reran,
    fun equal => ?_⟩
  · simpa only [told, summarize] using calm
  · simpa only [told, summarize] using errors
  · simpa only [told', summarize] using calm'
  · have kept := find?_filled found
    rw [← equal, find?_filled found'] at kept
    rw [Option.some.inj kept] at tells'
    exact absurd (tells.2.symm.trans tells'.2) (by decide)

end Builder
end LayerCache
