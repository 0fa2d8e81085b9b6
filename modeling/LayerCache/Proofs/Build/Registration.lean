import LayerCache.Proofs.Build.Origin

/-! Which archive a unit comes from. Archives are asked in the order they were registered, and a
unit that was taken up is not taken up again, so no archive gives a unit that one before it holds.
An artifact that is cached is recorded without its unit being taken up: of several archives that
hold it, the last is recorded. -/
namespace LayerCache

open EntryName

theorem Archives.Kept.after {plan : Plan} {points : List String} {a b : Stage} {ending : String}
    (course : Course plan points a b) (kept : a.pass.archives.Kept ending) :
    b.pass.archives.Kept ending :=
  course.looks (·.Kept ending) (fun _ _ _ kept => kept.find) (fun _ _ _ kept => kept.entries)
    (fun _ _ _ kept => kept.read) kept

theorem Course.entries_subset {plan : Plan} {points : List String} {a b : Stage}
    (course : Course plan points a b) : a.entries ⊆ b.entries := by
  refine course.invariant (fun m => a.entries ⊆ m.entries) ?_ (fun _ h => h)
  intro m next known move
  cases move with
  | unpack => exact fun r member => List.mem_append_left _ (known member)
  | _ => exact known

/-- An origin that is the first archive to hold a unit, or no archive. -/
def Pass.FromFirst (u : UnitId) : Standard :=
  fun p origin => ∀ r, origin = .archive r → p.archives.First u r

section

variable {plan : Plan} {points : List String} {u : UnitId} {before : List UnitSource}
  {m a b : Stage}

theorem Pass.FromFirst.mono {p q : Pass} {origin : Origin} (first : p.FromFirst u origin)
    (onward : Onward p q) (paths : q.archives.paths = p.archives.paths) : q.FromFirst u origin :=
  fun r here => (first r here).mono paths onward.settled

/-- What is offered for a unit comes from the first archive that holds it, if what was listed
does. -/
theorem Offer.from_first {c : Candidate} {goal : Destination} {archives : Archives}
    (offer : Offer plan points m c goal archives)
    (distinct : (m.pass.archives.paths.map Archive.key).Nodup)
    (kept : m.pass.archives.Kept plan.roots.ending) (fresh : m.pass.tracker.has c.unit = false)
    (same : (c.unit == u) = true)
    (listed : ∀ r ∈ m.entries, (UnitId.ofEntry r.entry plan.roots.ending == u) = true →
      m.pass.tracker.has u = true ∨ m.pass.archives.First u r) :
    Pass.FromFirst u { m.pass with archives, tracker := (m.pass.tracker.mark c.unit).2 }
      c.origin := by
  cases offer with
  | @asked p _ _ _ _ _ symbol _ _ _ located =>
    rcases p.locate_spec located with ⟨f, _, rfl⟩ | ⟨_, r, found, rfl, rfl⟩
    · exact fun r here => by cases here
    · intro other here
      cases here
      have first := Archives.find_first distinct found
      have wanted := UnitId.beq_iff.mp (first.unit kept.find)
      exact first.congr (UnitId.beq_iff.mpr (wanted.symm.trans (UnitId.beq_iff.mp same)))
  | source | generated => exact fun r here => by cases here
  | entry member missing =>
    intro r here
    cases here
    rcases listed _ member same with done | first
    · rw [Tracker.has_congr same, done] at fresh
      cases fresh
    · exact first

/-- Whatever is compiled or recorded along a course that lists no entry behind a first one. -/
theorem Course.from_first (course : Course plan points a b)
    (distinct : (a.pass.archives.paths.map Archive.key).Nodup)
    (kept : a.pass.archives.Kept plan.roots.ending)
    (listed : ∀ r ∈ b.entries, (UnitId.ofEntry r.entry plan.roots.ending == u) = true →
      a.pass.tracker.has u = true ∨ a.pass.archives.First u r)
    (renews : b.pass.Renews u) (drawn : Drawn u (Pass.FromFirst u) before a)
    (booked : Booked u (Pass.FromFirst u) a.pass) :
    Drawn u (Pass.FromFirst u) before b ∧ Booked u (Pass.FromFirst u) b.pass := by
  refine course.invariant_between
    (fun m => Drawn u (Pass.FromFirst u) before m ∧ Booked u (Pass.FromFirst u) m.pass) ?_
    ⟨drawn, booked⟩
  rintro m next earlier later ⟨drawn, booked⟩ move
  have onward := Onward.of_course earlier
  have step : Onward m.pass next.pass := .of_move move
  have paths := earlier.paths
  have moved : next.pass.archives.paths = m.pass.archives.paths := (Course.of move).paths
  have grows : ∀ origin, m.pass.FromFirst u origin → next.pass.FromFirst u origin :=
    fun origin first => first.mono step moved
  have rest : next.pass.Renews u := fun e told => renews e ((Onward.of_course later).told told)
  refine ⟨drawn.move move grows ?_, Booked.move drawn booked move grows rest⟩
  intro c goal archives offer fresh same
  refine offer.from_first (by rwa [paths]) (kept.after earlier) fresh same ?_
  intro r member unit
  have final := ((Course.of move).trans later).entries_subset member
  rcases listed r final unit with done | first
  · exact .inl (onward.tracked u done)
  · exact .inr (first.mono paths onward.settled)

/-- No archive among some holds a unit. -/
def Archives.NoneOf (as : Archives) (paths : List Path) (u : UnitId) : Prop :=
  ∀ p ∈ paths, ∃ held, as.settled p = some held ∧ entryIn held u = none

theorem Archives.NoneOf.mono {as later : Archives} {paths : List Path} (none : as.NoneOf paths u)
    (settled : ∀ p held, as.settled p = some held → later.settled p = some held) :
    later.NoneOf paths u := by
  intro p member
  obtain ⟨held, known, lacks⟩ := none p member
  exact ⟨held, settled p held known, lacks⟩

/-- What one archive adds, if the unit was taken up before or no archive before it holds it. -/
theorem Pass.sweepArchive_from_first {depth : Nat} {archive : Path} {front back : List Path}
    {p : Pass} (parts : p.archives.paths = front ++ archive :: back)
    (distinct : (p.archives.paths.map Archive.key).Nodup)
    (kept : p.archives.Kept plan.roots.ending)
    (renews : (p.sweepArchive plan depth archive).Renews u)
    (calm : (p.sweepArchive plan depth archive).cancelled = false)
    (drawn : Drawn u (FromFirst u) before ⟨p, [], [], []⟩) (booked : Booked u (FromFirst u) p)
    (ahead : p.tracker.has u = true ∨ p.archives.NoneOf front u) :
    Drawn u (FromFirst u) before ⟨p.sweepArchive plan depth archive, [], [], []⟩ ∧
      Booked u (FromFirst u) (p.sweepArchive plan depth archive) ∧
      ((p.sweepArchive plan depth archive).tracker.has u = true ∨
        (p.sweepArchive plan depth archive).archives.NoneOf (front ++ [archive]) u) := by
  obtain ⟨held, settled, names⟩ := p.archives.entries_settles p.disk archive
  have owned := (kept.entries (d := p.disk) (p := archive)).owned settled
  have opened : Onward p { p with archives := (p.archives.entries p.disk archive).2 } :=
    .of_archives fun _ _ => Archives.entries_keeps
  have course : Course plan []
      ⟨{ p with archives := (p.archives.entries p.disk archive).2 }, [], [],
        (p.archives.entries p.disk archive).1.map (⟨archive, ·⟩)⟩
      ⟨p.sweepArchive plan depth archive, [], [],
        (p.archives.entries p.disk archive).1.map (⟨archive, ·⟩)⟩ :=
    foldl_course _ (sweepEntries_course plan depth archive _)
  have onward := Onward.of_course course
  have grows : ∀ origin, p.FromFirst u origin →
      FromFirst u { p with archives := (p.archives.entries p.disk archive).2 } origin :=
    fun origin first => first.mono opened (Archives.paths_entries ..)
  have held_of : ∀ name, name ∈ (p.archives.entries p.disk archive).1 ↔ ∃ v, (v, name) ∈ held := by
    intro name
    simp [names, Archives.sortedEntries]
  have both := course.from_first (by rwa [Archives.paths_entries]) kept.entries ?_ renews
    (drawn.congr (fun _ h => h) rfl grows) (booked.congr rfl (fun _ h => h) grows)
  · refine ⟨⟨both.1.jobs, both.1.calls⟩, both.2, ?_⟩
    rcases ahead with done | none
    · exact .inl (onward.tracked u done)
    rcases found : entryIn held u with _ | name
    · right
      intro path member
      rcases List.mem_append.mp member with before | here
      · exact (none.mono opened.settled).mono onward.settled path before
      · rw [List.mem_singleton.mp here]
        exact ⟨held, onward.settled _ _ settled, found⟩
    · left
      obtain ⟨v, member, same⟩ := mem_of_entryIn found
      obtain ⟨_, _, _, rest⟩ := @sweepArchive_at plan depth archive p name
        ((held_of name).mpr ⟨v, member⟩)
      have unit : (UnitId.ofEntry name plan.roots.ending == u) = true := by
        rwa [← owned.named v name member]
      rcases sweepEntry_cases rest calm with done | ⟨_, told⟩
      · rwa [Tracker.has_congr unit] at done
      · have new := renews _ told ⟨rfl, rfl⟩
        rw [Event.identity_logical, unit] at new
        cases new
  · intro r member unit
    obtain ⟨name, listed, rfl⟩ := List.mem_map.mp member
    obtain ⟨v, inside⟩ := (held_of name).mp listed
    rcases ahead with done | none
    · exact .inl done
    · have entry := owned.entryIn_eq inside (by rwa [owned.named v name inside])
      exact .inr ⟨front, back, (Archives.paths_entries ..).trans parts, none.mono opened.settled,
        held, settled, entry⟩

/-- Some of the archives are swept first. -/
theorem Pass.sweepArchives_at (depth : Nat) {start : Pass} {front back : List Path}
    (parts : start.archives.paths = front ++ back) :
    Leads plan points True start (front.foldl (sweepArchive plan depth) start) ∧
      Leads plan points True (front.foldl (sweepArchive plan depth) start)
        (start.sweepArchives plan depth) := by
  have visits : ∀ paths ⊆ start.archives.paths, ∀ p, Leads plan points True start p →
      Leads plan points True p (paths.foldl (sweepArchive plan depth) p) := by
    intro paths known p reached
    refine Leads.foldl fun archive member q leads => sweepArchive_leads depth ?_
    rw [(reached.trans leads).paths]
    exact known member
  have first := visits front (by simp [parts]) start (.refl start)
  have last := visits back (by simp [parts]) _ first
  rw [← List.foldl_append, ← parts] at last
  exact ⟨first, last⟩

theorem Pass.sweepArchives_from_first {depth : Nat} {start : Pass}
    (distinct : (start.archives.paths.map Archive.key).Nodup)
    (kept : start.archives.Kept plan.roots.ending)
    (renews : (start.sweepArchives plan depth).Renews u)
    (calm : (start.sweepArchives plan depth).cancelled = false)
    (drawn : Drawn u (FromFirst u) before ⟨start, [], [], []⟩)
    (booked : Booked u (FromFirst u) start) :
    Drawn u (FromFirst u) before ⟨start.sweepArchives plan depth, [], [], []⟩ ∧
      Booked u (FromFirst u) (start.sweepArchives plan depth) ∧
      ((start.sweepArchives plan depth).tracker.has u = true ∨
        (start.sweepArchives plan depth).archives.NoneOf start.archives.paths u) := by
  suffices all : ∀ front back, start.archives.paths = front ++ back →
      Drawn u (FromFirst u) before ⟨front.foldl (sweepArchive plan depth) start, [], [], []⟩ ∧
        Booked u (FromFirst u) (front.foldl (sweepArchive plan depth) start) ∧
        ((front.foldl (sweepArchive plan depth) start).tracker.has u = true ∨
          (front.foldl (sweepArchive plan depth) start).archives.NoneOf front u) from
    all start.archives.paths [] (by simp)
  intro front
  induction front using List.reverseRecOn with
  | nil => exact fun _ _ => ⟨drawn, booked, .inr fun _ h => by cases h⟩
  | append_singleton front archive ih =>
    intro back parts
    rw [List.append_assoc] at parts
    obtain ⟨drawn, booked, ahead⟩ := ih _ parts
    have first : Leads plan [] True start (front.foldl (sweepArchive plan depth) start) :=
      (sweepArchives_at depth parts).1
    have last : Leads plan [] True ((front ++ [archive]).foldl (sweepArchive plan depth) start)
        (start.sweepArchives plan depth) :=
      (sweepArchives_at depth (parts.trans (List.append_assoc front [archive] back).symm)).2
    have onward := Onward.of_leads last
    obtain ⟨_, _, _, course⟩ := first [] []
    rw [List.foldl_append] at onward ⊢
    refine sweepArchive_from_first (by rw [first.paths, parts]; rfl) (by rwa [first.paths])
      (kept.after course) (fun e told => renews e (onward.told told)) (onward.calm calm) drawn booked
      ahead

end

/-- A source that roots offer: one that is found for a symbol or listed. -/
def Roots.Offers (r : Roots) (d : Disk) (f : SourceFile) : Prop :=
  (∃ symbol, (UnitId.ofSymbol symbol).isEmpty = false ∧ r.resolve d (.ofSymbol symbol) = some f) ∨
    ∃ root ∈ r.roots, f ∈ r.sweep d root

/-- An origin outside all roots. -/
def Pass.OffRoots : Standard := fun _ origin => ∃ r, origin = .archive r

section

variable {plan : Plan} {points : List String} {u : UnitId} {before : List UnitSource}
  {a b : Stage}

/-- What no root offers comes from archives alone. -/
theorem Course.off_roots (course : Course plan points a b)
    (unrooted : ∀ m, Course plan points a m → ∀ f, plan.roots.Offers m.pass.disk f →
      (f.unit == u) = false)
    (sources : a.sources = []) (renews : b.pass.Renews u) (drawn : Drawn u Pass.OffRoots before a)
    (booked : Booked u Pass.OffRoots a.pass) :
    Drawn u Pass.OffRoots before b ∧ Booked u Pass.OffRoots b.pass := by
  refine (course.invariant_between (fun m => (∀ root f, (root, f) ∈ m.sources →
    (f.unit == u) = false) ∧ Drawn u Pass.OffRoots before m ∧ Booked u Pass.OffRoots m.pass) ?_
    ⟨by simp [sources], drawn, booked⟩).2
  rintro m next earlier later ⟨sources, drawn, booked⟩ move
  have rest : next.pass.Renews u := fun e told => renews e ((Onward.of_course later).told told)
  refine ⟨?_, drawn.move move (fun _ h => h) ?_, Booked.move drawn booked move (fun _ h => h) rest⟩
  · cases move with
    | @list p ss es root known =>
      intro other f member
      rcases List.mem_append.mp member with old | new
      · exact sources other f old
      · obtain ⟨file, swept, same⟩ := List.mem_map.mp new
        cases same
        exact unrooted _ earlier _ (.inr ⟨root, known, swept⟩)
    | _ => exact sources
  · intro c goal archives offer fresh same
    cases offer with
    | @asked p _ _ _ _ _ symbol _ named _ located =>
      rcases p.locate_spec located with ⟨f, found, rfl⟩ | ⟨_, r, _, rfl, _⟩
      · rw [Candidate.unit_ofSource, unrooted _ earlier f (.inl ⟨symbol, named, found⟩)] at same
        cases same
      · exact ⟨r, rfl⟩
    | source listed | generated listed =>
      rw [Candidate.unit_ofSource, sources _ _ listed] at same
      cases same
    | entry => exact ⟨_, rfl⟩

end

namespace Builder

variable {b : Builder} {env : Environment} {heard : Bool} {cancel : Cancel} {s s' : Site}
  {summary : Summary} {u : UnitId} {r : EntryRef}

/-- No root offers a unit at any moment of a build. -/
def Unrooted (b : Builder) (env : Environment) (heard : Bool) (cancel : Cancel) (s : Site)
    (u : UnitId) : Prop :=
  ∀ m, Course (b.plan env cancel) b.layout.naming.entryPoints ⟨b.start env heard s, [], [], []⟩ m →
    ∀ f, (b.roots env).Offers m.pass.disk f → (f.unit == u) = false

/-- In the end a unit was taken up, or no archive holds it. -/
theorem settled_from_first (calm : (b.settled env heard cancel s).cancelled = false)
    (renews : (b.settled env heard cancel s).Renews u) :
    Drawn u (Pass.FromFirst u) s.called ⟨b.settled env heard cancel s, [], [], []⟩ ∧
      Booked u (Pass.FromFirst u) (b.settled env heard cancel s) ∧
      ((b.settled env heard cancel s).tracker.has u = true ∨
        (b.settled env heard cancel s).archives.NoneOf
          (b.settled env heard cancel s).archives.paths u) := by
  obtain ⟨distinct, kept⟩ := Archives.fresh_ofPaths b.layout.archives b.layout.naming.sourceExt
    b.layout.naming.reserved
  have leads : Leads (b.plan env cancel) b.layout.naming.entryPoints False (b.start env heard s)
      (b.swept env heard cancel s) := Pass.sweepSources_leads _ _
  obtain ⟨ss, es, listing, course⟩ := leads [] []
  rw [listing.resolve_right id] at course
  have last := b.swept_onward env heard cancel s
  have renewed : (b.swept env heard cancel s).Renews u := fun e told => renews e (last.told told)
  obtain ⟨drawn, booked⟩ := course.from_first distinct kept (by simp) renewed
    (b.drawn_start env heard s u _) (b.booked_start env heard s u _)
  have archived : Leads (b.plan env cancel) [] True (b.swept env heard cancel s)
      (b.settled env heard cancel s) := Pass.sweepArchives_leads _ _
  rw [archived.paths]
  exact Pass.sweepArchives_from_first (by rw [course.paths]; exact distinct) (kept.after course)
    renews calm ⟨drawn.jobs, drawn.calls⟩ booked

theorem settled_off_roots (unrooted : b.Unrooted env heard cancel s u)
    (renews : (b.settled env heard cancel s).Renews u) :
    Drawn u Pass.OffRoots s.called ⟨b.settled env heard cancel s, [], [], []⟩ ∧
      Booked u Pass.OffRoots (b.settled env heard cancel s) := by
  obtain ⟨ss, es, course⟩ := b.settled_course env heard cancel s
  generalize b.settled env heard cancel s = p at course renews ⊢
  obtain ⟨drawn, booked⟩ := Course.off_roots course unrooted rfl renews
    (b.drawn_start env heard s u _) (b.booked_start env heard s u _)
  exact ⟨⟨drawn.jobs, drawn.calls⟩, booked⟩

/-- A unit that no root offers comes from the first archive that holds it and has one record, unless
an entry of it was passed over for an artifact that was cached. -/
theorem compile_draws_first (built : b.compile env heard cancel s = (.ok summary, s'))
    (ran : summary.ran = true) (calm : summary.cancelled = false)
    (first : (b.settled env heard cancel s).archives.First u r)
    (unrooted : b.Unrooted env heard cancel s u)
    (renews : ∀ e ∈ summary.events, e.IsCached → (e.identity == u) = false)
    (spelled : ∀ m, b.previous s = some m → ∀ logical ∈ m.units.keys,
      (UnitId.ofLogical logical == u) = true → (UnitId.ofSymbol logical == u) = true) :
    (∃ calls, s'.called = s.called ++ calls ∧
      ∀ call ∈ calls, (call.unit == u) = true → call.origin = .archive r) ∧
    s'.disk =
      ((b.filled env heard cancel s).save (b.settled env heard cancel s).disk b.layout.cache).2 ∧
    (∀ pair ∈ (b.filled env heard cancel s).units.pairs, (UnitId.ofLogical pair.1 == u) = true →
      pair.2.origin = .archive ∧ pair.2.source = toString r) ∧
    ∀ one ∈ (b.filled env heard cancel s).units.pairs,
      ∀ two ∈ (b.filled env heard cancel s).units.pairs,
        (UnitId.ofLogical one.1 == u) = true → (UnitId.ofLogical two.1 == u) = true → one = two := by
  have saved := compile_saves built ran
  obtain ⟨events, _, cancelled, called, _⟩ := compile_settled built ran
  rw [cancelled] at calm
  rw [events] at renews
  obtain ⟨drawn, booked, ends⟩ := settled_from_first calm renews
  obtain ⟨off, outside⟩ := settled_off_roots unrooted renews
  have tracked : (b.settled env heard cancel s).tracker.has u = true := by
    refine ends.resolve_right fun none => ?_
    obtain ⟨front, back, parts, _, held, settled, found⟩ := first
    obtain ⟨other, known, lacks⟩ := none r.archive (by simp [parts])
    rw [settled] at known
    cases known
    rw [found] at lacks
    cases lacks
  have own : ∀ pair ∈ (b.filled env heard cancel s).units.pairs,
      (UnitId.ofLogical pair.1 == u) = true →
        pair ∈ (b.settled env heard cancel s).manifest.units.pairs := by
    intro pair member same
    rcases filled_cases member with here | ⟨m, known, old, holds⟩
    · exact here
    · have read := spelled m known pair.1 (List.mem_map.mpr ⟨pair, old, rfl⟩) same
      simp [Pass.stillHolds, Tracker.has_congr read, tracked] at holds
  refine ⟨?_, saved, ?_, ?_⟩
  · obtain ⟨calls, all, drawn⟩ := drawn.calls
    obtain ⟨others, same, off⟩ := off.calls
    have equal : others = calls := List.append_cancel_left (same.symm.trans all)
    subst equal
    refine ⟨others, called.trans all, fun call member unit => ?_⟩
    obtain ⟨r', origin⟩ := off call member unit
    rw [origin, first.unique (drawn call member unit r' origin)]
  · intro pair member same
    have here := own pair member same
    obtain ⟨_, origin, good, kind, source⟩ := booked pair here same
    obtain ⟨_, _, ⟨_, rfl⟩, archived, _⟩ := outside pair here same
    cases origin with
    | root => cases kind.symm.trans archived
    | archive other =>
      rw [first.unique (good other rfl)]
      exact ⟨kind, source⟩
  · intro one first two second same also
    obtain ⟨⟨e, told, compiled, unit⟩, _⟩ := booked one (own one first same) same
    obtain ⟨⟨e', told', compiled', unit'⟩, _⟩ := booked two (own two second also) also
    obtain ⟨_, _, account⟩ := b.account_settled env heard cancel s
    have final : ∀ e ∈ (b.settled env heard cancel s).log.events, e.outcome = .compiled →
        e ∈ finals (b.settled env heard cancel s).log.events := by
      intro e told compiled
      simp only [finals, List.mem_filter]
      exact ⟨told, by simp [Event.isFinal, compiled]⟩
    have digest : e.identity.digest = e'.identity.digest := by
      rw [Event.identity, Event.identity, unit, unit', UnitId.beq_iff.mp same,
        UnitId.beq_iff.mp also]
    have equal := List.inj_on_of_nodup_map account.finals_distinct (final e told compiled)
      (final e' told' compiled') digest
    have name : one.1 = two.1 := by rw [← unit, ← unit', equal]
    have sorted := b.sorted_filled env heard cancel s
    have record : (b.filled env heard cancel s).units.find? one.1 = some one.2 :=
      sorted.find?_eq.mpr first
    rw [name, sorted.find?_eq.mpr second] at record
    exact Prod.ext name (Option.some.inj record).symm

/-- What no root held at the start of a build no root offers in it. -/
theorem unrooted_of_start {config : Config} {project : Path} (accepted : config.check = .ok ())
    (layout : b.layout = .resolve project config) (quiet : b.service.Quiet) (sound : s.disk.Sound)
    (plain : b.layout.Plain s.disk) (clear : ∀ root ∈ (b.roots env).roots, s.disk.Plain root.path)
    (lacks : ∀ root ∈ (b.roots env).roots, ∀ names, (b.roots env).Holds s.disk root names →
      (UnitId.ofRelative (Disk.relativePath names) b.layout.naming.sourceExt == u) = false) :
    b.Unrooted env heard cancel s u := by
  have naming : b.layout.naming = config.naming := by rw [layout, Layout.resolve]
  obtain ⟨source, artifact, differ⟩ := Config.extensions_of_check accepted
  rw [← naming] at source artifact differ
  have proper : (b.plan env cancel).Proper := plan_proper source artifact differ
  have folders := b.ensured sound
  intro m course f offered
  have start : Frame (b.plan env cancel) (b.cache.ensureFolder s.disk).2
      ⟨b.start env heard s, [], [], []⟩ := Frame.opening b env heard folders.sound s.called []
  have frame := start.after proper (plan_plain (plain.mono folders)) quiet course
  have paths : ∀ root ∈ (b.roots env).roots, m.pass.disk.Plain root.path :=
    fun root known => frame.changes.plain (folders.plain (clear root known))
  obtain ⟨root, known, names, holds, rfl⟩ : ∃ root ∈ (b.roots env).roots, ∃ names,
      (b.roots env).Holds m.pass.disk root names ∧ f = (b.roots env).below root names := by
    rcases offered with ⟨symbol, named, found⟩ | ⟨root, known, listed⟩
    · have filled : ∀ segment ∈ (UnitId.ofSymbol symbol).segments, segment ≠ "" :=
        fun segment member => (UnitId.isName_of_ofSymbol named member).filled
      obtain ⟨root, known, names, holds, same, _⟩ := Roots.holds_of_resolve frame.changes.sound paths
        (UnitId.tidy_ofSymbol symbol) proper.source filled found
      exact ⟨root, known, names, holds, same⟩
    · obtain ⟨names, holds, same⟩ :=
        Roots.holds_of_mem_sweep frame.changes.sound (paths root known) listed
      exact ⟨root, known, names, holds, same⟩
  rw [Roots.unit_below]
  exact lacks root known names ((Roots.Holds.mono folders).mp (frame.holds_before proper holds))

/-- Names with an extension can be looked for among all entries. -/
theorem carries_none_of_entries {d : Disk} {ending : String} (sound : d.Sound)
    (none : ∀ pair ∈ d.entries.pairs, (Disk.relativePath pair.1).hasExtension ending = false)
    (front names : List String) (carries : Carries ending names) : ¬ d.IsFileAt (front ++ names) := by
  intro file
  have proper := file.proper sound
  have filled : front ++ names ≠ [] := by simp [carries.filled]
  obtain ⟨entry, member⟩ : ∃ entry, (front ++ names, entry) ∈ d.entries.pairs := by
    rcases file with ⟨_, _, there⟩ | ⟨_, there⟩
    · exact ⟨_, (sound.mem_pairs filled).mpr there⟩
    · exact ⟨_, (sound.mem_pairs filled).mpr there⟩
  have ends := (hasExtension_relativePath proper).mpr (carries.append proper)
  rw [none _ member] at ends
  cases ends

/-- Sources can be looked for among all entries. -/
theorem holds_none_of_entries {r : Roots} {d : Disk} (sound : d.Sound)
    (none : ∀ pair ∈ d.entries.pairs, (Disk.relativePath pair.1).hasExtension r.ending = false)
    (root : SourceRoot) (names : List String) : ¬ r.Holds d root names := by
  rintro ⟨carries, file⟩
  exact carries_none_of_entries sound none _ names carries file

theorem first_of_paths {as : Archives} (front back : List Path)
    (parts : as.paths = front ++ r.archive :: back)
    (before : ∀ p ∈ front, (as.settled p).map (entryIn · u) = some none)
    (here : (as.settled r.archive).bind (entryIn · u) = some r.entry) : as.First u r := by
  refine ⟨front, back, parts, ?_, Option.bind_eq_some_iff.mp here⟩
  intro p member
  exact Option.map_eq_some_iff.mp (before p member)

/-- A site that was built, prepared to be built again. -/
def again (b : Builder) (env : Environment) (heard : Bool) (cancel : Cancel) (s : Site) : Site :=
  { (b.build env heard cancel s).2 with
    disk := (b.prepare (b.build env heard cancel s).2.disk).2 }

theorem changes_again {config : Config} {project : Path} (accepted : config.check = .ok ())
    (layout : b.layout = .resolve project config) (quiet : b.service.Quiet) (sound : s.disk.Sound)
    (plain : b.layout.Plain s.disk) :
    s.disk.Changes (fun _ => True) (b.again env heard cancel s).disk := by
  have naming : b.layout.naming = config.naming := by rw [layout, Layout.resolve]
  obtain ⟨_, artifact, _⟩ := Config.extensions_of_check accepted
  rw [← naming] at artifact
  have built : s.disk.Changes (fun _ => True) (b.build env heard cancel s).2.disk :=
    changes_built accepted layout quiet sound plain
  have prepared := changes_prepare artifact built.sound (plain.mono built)
  rw [again]
  exact built.trans (prepared.mono fun _ _ => trivial)

/-- A site that was prepared. -/
def ready (b : Builder) (s : Site) : Site := { s with disk := (b.prepare s.disk).2 }

theorem changes_ready (artifact : IsBare b.layout.naming.artifactExt) (sound : s.disk.Sound)
    (plain : b.layout.Plain s.disk) : s.disk.Changes (fun _ => True) (b.ready s).disk :=
  (changes_prepare artifact sound plain).mono fun _ _ => trivial

theorem ready_runs {preparation : Preparation}
    (prepared : (b.prepare s.disk).1.toOption = some preparation)
    (asked : (wanted env (b.ready s)).1.toOption = some true)
    (opened : (b.cache.ensureFolder (b.ready s).disk).1.toOption = some ()) : ∃ summary s',
      b.build env heard cancel s = (.ok ⟨preparation, summary⟩, s') ∧
      b.compile env heard cancel (b.ready s) = (.ok summary, s') ∧ summary.ran = true := by
  simp only [ready] at asked opened ⊢
  rcases done : b.prepare s.disk with ⟨_ | preparation', prior⟩
  · simp [done, Except.toOption] at prepared
  rw [done] at prepared asked opened
  obtain rfl := Option.some.inj prepared
  exact build_runs done asked opened

theorem again_runs (prepared : (b.prepare (b.build env heard cancel s).2.disk).1.toOption.isSome = true)
    (asked : (wanted env (b.again env heard cancel s)).1.toOption = some true)
    (opened : (b.cache.ensureFolder (b.again env heard cancel s).disk).1.toOption = some ()) :
    ∃ report s', b.build env heard cancel (b.build env heard cancel s).2 = (.ok report, s') ∧
      b.compile env heard cancel (b.again env heard cancel s) = (.ok report.summary, s') ∧
      report.summary.ran = true := by
  obtain ⟨preparation, done⟩ := Option.isSome_iff_exists.mp prepared
  obtain ⟨summary, s', built, compiled, ran⟩ := @ready_runs b env heard cancel _ _ done asked opened
  exact ⟨_, s', built, compiled, ran⟩

/-- A project of two archives that hold the same unit. -/
def jarsConfig : Config :=
  ⟨"p", "", { generated := "gen" }, none, {}, none, ["l0.jar", "l1.jar"], []⟩

def jars : Builder := ⟨.resolve ⟨"/p"⟩ jarsConfig, Scripted.service, .absent⟩

def jarsFiles : List (String × String) := [("/p/l0.jar", jarText), ("/p/l1.jar", jarText)]

def jarsFirst : Site := siteOf jarsFiles

theorem jars_accepted : jarsConfig.check = .ok () := by decide +kernel

theorem quiet_jars : jars.service.Quiet := quiet_scripted

/-- The unit that both archives hold, in the first of them. -/
def jarsEntry : EntryRef := ⟨⟨"/p/l0.jar"⟩, "B.php"⟩

theorem unrooted_jars {s : Site} (change : jarsFirst.disk.Changes (fun _ => True) s.disk)
    (none : ∀ pair ∈ s.disk.entries.pairs,
      (Disk.relativePath pair.1).hasExtension (jars.roots .prod).ending = false) :
    jars.Unrooted .prod true .never s (.ofLogical "B") := by
  have plain : ∀ p, s.disk.Plain p := fun p => change.plain (plain_siteOf jarsFiles p)
  have layout : jars.layout = .resolve ⟨"/p"⟩ jarsConfig := rfl
  have bare : ∀ root names, ¬ (jars.roots .prod).Holds s.disk root names :=
    holds_none_of_entries change.sound none
  exact unrooted_of_start jars_accepted layout quiet_jars change.sound (fun p _ => plain p)
    (fun root _ => plain root.path) fun root _ names holds => absurd holds (bare root names)

theorem compile_draws_first_jars : ∃ summary s',
    jars.compile .prod true .never jarsFirst = (.ok summary, s') ∧
      ∃ calls, s'.called = jarsFirst.called ++ calls ∧
        ∀ call ∈ calls, (call.unit == .ofLogical "B") = true → call.origin = .archive jarsEntry := by
  have told : ((jars.cache.ensureFolder jarsFirst.disk).1.toOption,
      (jars.settled .prod true .never jarsFirst).cancelled,
      (jars.settled .prod true .never jarsFirst).log.events,
      (jars.settled .prod true .never jarsFirst).archives.paths,
      ((jars.settled .prod true .never jarsFirst).archives.settled jarsEntry.archive).bind
        (entryIn · (.ofLogical "B")),
      (jars.previous jarsFirst).isNone) =
      (some (), false, [⟨"B", .compiled, "B.php"⟩, ⟨"B", .skipped, "already resolved"⟩],
        [⟨"/p/l0.jar"⟩, ⟨"/p/l1.jar"⟩], some "B.php", true) := by decide +kernel
  simp only [Prod.mk.injEq] at told
  obtain ⟨opened, calm, events, paths, here, fresh⟩ := told
  obtain ⟨summary, s', built, ran, cancelled, listed, _⟩ :=
    @compile_runs jars .prod true .never jarsFirst rfl opened
  rw [← cancelled] at calm
  rw [← listed] at events
  refine ⟨summary, s', built, ?_⟩
  have first : (jars.settled .prod true .never jarsFirst).archives.First (.ofLogical "B") jarsEntry :=
    first_of_paths [] [⟨"/p/l1.jar"⟩] paths (by simp) here
  have unrooted : jars.Unrooted .prod true .never jarsFirst (.ofLogical "B") :=
    unrooted_jars (.refl (sound_siteOf jarsFiles)) (by decide +kernel)
  have renews : ∀ e ∈ summary.events, e.IsCached → (e.identity == .ofLogical "B") = false := by
    rw [events]
    rintro e member ⟨_, cached⟩
    simp only [List.mem_cons, List.not_mem_nil, or_false] at member
    rcases member with rfl | rfl
    · exact absurd cached (by decide)
    · exact absurd cached (by decide)
  have none : jars.previous jarsFirst = none := Option.isNone_iff_eq_none.mp fresh
  exact (compile_draws_first built ran calm first unrooted renews (by simp [none])).1

/-- What two builds settle, read off one run. -/
theorem jars_outcome :
    (((jars.prepare jarsFirst.disk).1.toOption.map (·.failed),
      (wanted .prod (jars.ready jarsFirst)).1.toOption,
      (jars.cache.ensureFolder (jars.ready jarsFirst).disk).1.toOption) =
        (some 0, some true, some ()) ∧
    ((jars.settled .prod true .never (jars.ready jarsFirst)).cancelled,
      (jars.settled .prod true .never (jars.ready jarsFirst)).log.errors,
      ((jars.settled .prod true .never (jars.ready jarsFirst)).manifest.units.find? "B").map
        fun record => (record.origin, record.source)) = (false, 0, some (.archive, "/p/l0.jar!B.php"))) ∧
    ((jars.prepare (jars.build .prod true .never jarsFirst).2.disk).1.toOption.isSome,
      (wanted .prod (jars.again .prod true .never jarsFirst)).1.toOption,
      (jars.cache.ensureFolder (jars.again .prod true .never jarsFirst).disk).1.toOption,
      (jars.again .prod true .never jarsFirst).disk.entries.pairs.all fun pair =>
        !(Disk.relativePath pair.1).hasExtension (jars.roots .prod).ending) =
      (true, some true, some (), true) ∧
    ((jars.settled .prod true .never (jars.again .prod true .never jarsFirst)).cancelled,
      (jars.settled .prod true .never (jars.again .prod true .never jarsFirst)).archives.paths,
      ((jars.settled .prod true .never (jars.again .prod true .never jarsFirst)).archives.settled
        jarsEntry.archive).bind (entryIn · (.ofLogical "B")),
      ((jars.settled .prod true .never
        (jars.again .prod true .never jarsFirst)).manifest.units.find? "B").map
          fun record => (record.origin, record.source)) =
      (false, [⟨"/p/l0.jar"⟩, ⟨"/p/l1.jar"⟩], some "B.php", some (.archive, "/p/l1.jar!B.php")) ∧
    -- Both manifests can be written.
    ∀ s ∈ [jars.ready jarsFirst, jars.again .prod true .never jarsFirst],
      (((jars.filled .prod true .never s).save (jars.settled .prod true .never s).disk
          jars.layout.cache).1.toOption,
        (jars.settled .prod true .never s).disk.entryAt
          ((jars.settled .prod true .never s).disk.placeOf jars.layout.cache ++ [Manifest.fileName])
            matches some (.device _)) = (some (), false) := by
  decide +kernel

/-- The second build records the unit as one of the second archive. -/
theorem build_records_last : jarsConfig.check = .ok () ∧ ∃ report s',
    jars.build .prod true .never (jars.build .prod true .never jarsFirst).2 = (.ok report, s') ∧
      report.summary.ran = true ∧ report.summary.cancelled = false ∧
      (jars.settled .prod true .never (jars.again .prod true .never jarsFirst)).archives.First
        (.ofLogical "B") jarsEntry ∧
      jars.Unrooted .prod true .never (jars.again .prod true .never jarsFirst) (.ofLogical "B") ∧
      s'.disk = ((jars.filled .prod true .never (jars.again .prod true .never jarsFirst)).save
        (jars.settled .prod true .never (jars.again .prod true .never jarsFirst)).disk
          jars.layout.cache).2 ∧
      ((jars.filled .prod true .never (jars.again .prod true .never jarsFirst)).units.find? "B").map
        (fun record => (record.origin, record.source)) = some (.archive, "/p/l1.jar!B.php") := by
  obtain ⟨_, before, after, _⟩ := jars_outcome
  simp only [Prod.mk.injEq] at before after
  obtain ⟨prepared, asked, opened, sourceless⟩ := before
  obtain ⟨calm, paths, here, recorded⟩ := after
  obtain ⟨report, s', built, compiled, ran⟩ := again_runs prepared asked opened
  obtain ⟨_, _, cancelled, _⟩ := compile_settled compiled ran
  have change : jarsFirst.disk.Changes (fun _ => True) (jars.again .prod true .never jarsFirst).disk :=
    changes_again jars_accepted (show jars.layout = .resolve ⟨"/p"⟩ jarsConfig from rfl) quiet_jars
      (sound_siteOf jarsFiles) fun folder _ => plain_siteOf jarsFiles folder
  obtain ⟨record, found, tells⟩ := Option.map_eq_some_iff.mp recorded
  have kept : (jars.filled .prod true .never
      (jars.again .prod true .never jarsFirst)).units.find? "B" = some record :=
    find?_filled found
  refine ⟨jars_accepted, report, s', built, ran, cancelled.trans calm, ?_, ?_,
    compile_saves compiled ran, by rw [kept, Option.map_some, tells]⟩
  · exact first_of_paths [] [⟨"/p/l1.jar"⟩] paths (by simp) here
  · refine unrooted_jars change fun pair member => ?_
    simpa using List.all_eq_true.mp sourceless pair member

end Builder

end LayerCache
