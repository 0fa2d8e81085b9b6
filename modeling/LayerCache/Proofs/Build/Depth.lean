import LayerCache.Proofs.Build.Origin
import LayerCache.Proofs.Openings
import Mathlib.Algebra.Order.BigOperators.Group.List
import Mathlib.Data.Option.Basic
import Mathlib.Data.Set.Card

/-! How deep compilations nest. A unit is marked before the compiler is called for it, and nothing a
build writes is a source. So every unit in progress is another one of those that lay in reach at
first, and however high the bound on the nesting is above their number, the build is the same. -/

/-! How many members an archive can have. -/
namespace LayerCache.Zip

variable {b : ByteArray} {place : Place}

end LayerCache.Zip

namespace LayerCache

/-- What an archive holds if it is opened on a disk, by where its path leads. -/
def Archives.heldAt (as : Archives) (d : Disk) (path : Path) : List (UnitId × String) :=
  match (d.content? (d.placeOf path)).bind Zip.Directory.ofArchive? with
  | some directory => EntryName.owners as.ending as.reserved directory.names
  | none => []

theorem Archives.owned_heldAt (as : Archives) (d : Disk) (path : Path) :
    EntryName.Owned as.ending (as.heldAt d path) := by
  unfold heldAt
  split
  · exact EntryName.owned_owners _ _ _
  · exact ⟨by simp, by simp, by simp⟩

theorem Disk.content?_eq (d : Disk) (place : Place) : d.content? place =
    match d.leafAt place with
    | some (.file _ content) => some content
    | _ => none := by
  rcases entry : d.entryAt place with _ | e
  · simp [content?, leafAt, entry]
  · cases e <;> simp [content?, leafAt, entry]

/-- A unit that a build can come upon: there is a source of it under a root, or an entry in an
archive. -/
inductive Plan.Provides (plan : Plan) (archives : Archives) (d : Disk) : UnitId → Prop where
  | source {root names} (listed : root ∈ plan.roots.roots) (holds : plan.roots.Holds d root names) :
      Provides plan archives d (plan.roots.below root names).unit
  | entry {path v name} (registered : path ∈ archives.paths)
      (member : (v, name) ∈ archives.heldAt d path) :
      Provides plan archives d (.ofEntry name plan.roots.ending)

/-- The identities of the units that a build can come upon. -/
def Plan.identities (plan : Plan) (archives : Archives) (d : Disk) : Set Digest :=
  {k | ∃ u, plan.Provides archives d u ∧ u.digest = k}

/-- No unit has its artifact where an archive lies. -/
def Plan.Spares (plan : Plan) (archives : Archives) (d : Disk) : Prop :=
  ∀ t : Job, plan.Provides archives d t.candidate.unit → ∀ place, t.Goes plan d place →
    ∀ path ∈ archives.paths, d.placeOf path ≠ place

section

variable {plan : Plan} {points : List String} {archives : Archives} {before d : Disk}

theorem Archives.heldAt_of_index {as : Archives} (sound : d.Sound) {path : Path}
    (plain : d.Plain path) {i : Index}
    (opened : Archive.index d path as.ending as.reserved = .ok i) :
    i.owners = as.heldAt d path := by
  simp only [Archive.index] at opened
  split at opened
  · rename_i place serial content found
    split at opened
    · rename_i directory read
      cases opened
      have entry := Disk.stat_entry sound found
      rw [Disk.stat_place plain found] at entry
      simp [Archives.heldAt, Disk.content?, entry, read, Index.owners, Catalog.owners_ofNames]
    · cases opened
  · cases opened
  · cases opened

theorem Plan.finite_identities (plan : Plan) (archives : Archives) (sound : d.Sound) :
    (plan.identities archives d).Finite := by
  let sources : Set Digest := {k | ∃ root ∈ plan.roots.roots, ∃ place ∈ d.entries.pairs.map Prod.fst,
    (plan.roots.below root (place.drop (d.placeOf root.path).length)).unit.digest = k}
  let entries : Set Digest := {k | ∃ path ∈ archives.paths, ∃ pair ∈ archives.heldAt d path,
    (UnitId.ofEntry pair.2 plan.roots.ending).digest = k}
  have first : sources.Finite := by
    have all := ((plan.roots.roots.product (d.entries.pairs.map Prod.fst)).map fun (root, place) =>
      (plan.roots.below root (place.drop (d.placeOf root.path).length)).unit.digest).finite_toSet
    refine all.subset ?_
    rintro k ⟨root, listed, place, member, rfl⟩
    exact List.mem_map.mpr ⟨(root, place), List.mem_product.mpr ⟨listed, member⟩, rfl⟩
  have second : entries.Finite := by
    have all := ((archives.paths.flatMap (archives.heldAt d)).map fun pair =>
      (UnitId.ofEntry pair.2 plan.roots.ending).digest).finite_toSet
    refine all.subset ?_
    rintro k ⟨path, registered, pair, member, rfl⟩
    exact List.mem_map.mpr ⟨pair, List.mem_flatMap.mpr ⟨path, registered, member⟩, rfl⟩
  refine (first.union second).subset ?_
  rintro k ⟨u, provided, rfl⟩
  cases provided with
  | @source root names listed holds =>
    refine .inl ⟨root, listed, d.placeOf root.path ++ names, ?_, by rw [List.drop_left]⟩
    obtain ⟨carries, file⟩ := holds
    have there : d.entryAt (d.placeOf root.path ++ names) ≠ none := by
      intro absent
      rcases file with ⟨_, _, entry⟩ | ⟨_, entry⟩ <;> simp [absent] at entry
    obtain ⟨entry, found⟩ := Option.ne_none_iff_exists'.mp there
    exact List.mem_map.mpr ⟨_, (sound.mem_pairs (by simp [carries.filled])).mpr found, rfl⟩
  | @entry path v name registered member => exact .inr ⟨path, registered, _, member, rfl⟩

end

/-- What a build has come upon at a stage was in reach at first. -/
structure Contained (plan : Plan) (archives : Archives) (before : Disk) (m : Stage) : Prop where
  frame : Frame plan before m
  sourced : Sourced plan before m
  paths : m.pass.archives.paths = archives.paths
  options : m.pass.archives.ending = archives.ending ∧ m.pass.archives.reserved = archives.reserved
  held : Archives.Each (fun path state => ∀ i, state = .indexed i →
    i.owners ⊆ archives.heldAt before path) m.pass.archives.archives
  spared : ∀ path ∈ archives.paths, m.pass.disk.leafAt (before.placeOf path) = none ∨
    m.pass.disk.leafAt (before.placeOf path) = before.leafAt (before.placeOf path)
  tracked : ∀ u ∈ m.pass.tracker.units, plan.Provides archives before u

/-- What a plan and the archives are to be like on the disk that a build starts from. -/
structure Plan.Bounded (plan : Plan) (archives : Archives) (before : Disk) : Prop where
  proper : plan.Proper
  outputs : plan.Plain before
  quiet : plan.service.Quiet
  sound : before.Sound
  roots : ∀ root ∈ plan.roots.roots, before.Plain root.path
  unlinked : ∀ path ∈ archives.paths, before.Plain path
  distinct : (archives.paths.map Archive.key).Nodup
  spares : plan.Spares archives before

namespace Contained

variable {plan : Plan} {points : List String} {archives : Archives} {before : Disk}
  {m next : Stage}

/-- An archive that is opened at a stage holds what it held at first, or nothing. -/
theorem opens (bounded : plan.Bounded archives before) (contained : Contained plan archives before m)
    {path : Path} (registered : path ∈ m.pass.archives.paths) (i : Index)
    (state : ArchiveState.ofIndex (Archive.index m.pass.disk path m.pass.archives.ending
      m.pass.archives.reserved) = .indexed i) : i.owners ⊆ archives.heldAt before path := by
  obtain ⟨ending, reserved⟩ := contained.options
  have change := contained.frame.changes
  rw [contained.paths] at registered
  have plain := bounded.unlinked path registered
  rcases opened : Archive.index m.pass.disk path m.pass.archives.ending m.pass.archives.reserved
    with fault | j
  · simp [opened, ArchiveState.ofIndex] at state
  · simp only [opened, ArchiveState.ofIndex, ArchiveState.indexed.injEq] at state
    subst state
    rw [Archives.heldAt_of_index change.sound (change.plain plain) opened]
    simp only [Archives.heldAt, change.placeOf, ending, reserved]
    rcases contained.spared path registered with gone | same
    · simp [Disk.content?_eq, gone]
    · rw [Disk.content?_eq, same, ← Disk.content?_eq]
      exact fun _ h => h

theorem distinct (bounded : plan.Bounded archives before)
    (contained : Contained plan archives before m) :
    (m.pass.archives.paths.map Archive.key).Nodup := by
  rw [contained.paths]
  exact bounded.distinct

/-- What is known at a stage was in reach at first. -/
theorem provides {as : Archives} (paths : as.paths = archives.paths)
    (held : Archives.Each (fun path state => ∀ i, state = .indexed i →
      i.owners ⊆ archives.heldAt before path) as.archives)
    {c : Candidate} (known : c.Known plan before as) : plan.Provides archives before c.unit := by
  cases known with
  | source listed holds => exact .source listed holds
  | @entry r v all settled member =>
    obtain ⟨a, inside, _, i, state, rfl⟩ := Archives.indexed_of_settledIn settled
      (List.ne_nil_of_mem member)
    have registered : a.path ∈ archives.paths := paths ▸ List.mem_map_of_mem inside
    exact .entry registered (held a inside i state member)

theorem held_move (bounded : plan.Bounded archives before)
    (contained : Contained plan archives before m) (move : Move plan points m next) :
    Archives.Each (fun path state => ∀ i, state = .indexed i →
      i.owners ⊆ archives.heldAt before path) next.pass.archives.archives := by
  have opens := fun path (registered : path ∈ m.pass.archives.paths) =>
    contained.opens bounded registered
  refine move.looks (fun as => Archives.Each _ as.archives) ?_ ?_ ?_ contained.held
  · exact fun _ each => Archives.each_find each opens
  · exact fun _ each => Archives.each_entries each opens
  · refine fun _ each => Archives.each_read (contained.distinct bounded) each opens ?_
    intro path i good j same
    cases same
    exact good i rfl

theorem offered (bounded : plan.Bounded archives before)
    (contained : Contained plan archives before m) {c : Candidate} {goal : Destination}
    {as : Archives} (offer : Offer plan points m c goal as) :
    plan.Provides archives before c.unit := by
  have known := contained.sourced.offered bounded.proper bounded.roots (contained.distinct bounded)
    contained.frame offer
  have opens := fun path (registered : path ∈ m.pass.archives.paths) =>
    contained.opens bounded registered
  rcases offer.archives with rfl | ⟨u, rfl⟩
  · exact provides contained.paths contained.held known
  · exact provides ((Archives.paths_find _ _ u).trans contained.paths)
      (Archives.each_find contained.held opens) known

theorem move (bounded : plan.Bounded archives before)
    (contained : Contained plan archives before m) (move : Move plan points m next) :
    Contained plan archives before next := by
  have frame := contained.frame.move bounded.proper bounded.outputs bounded.quiet move
  refine ⟨frame, contained.sourced.move bounded.proper bounded.roots (contained.distinct bounded)
    contained.frame move, ?_, ?_, contained.held_move bounded move, ?_, ?_⟩
  · exact move.looks (·.paths = archives.paths) (fun _ same => by simpa using same)
      (fun _ same => by simpa using same) (fun _ same => by simpa using same) contained.paths
  · refine move.looks (fun as => as.ending = archives.ending ∧ as.reserved = archives.reserved)
      (fun u same => ?_) (fun path same => ?_) (fun r same => ?_) contained.options
    · exact (m.pass.archives.options_find _ u).imp (·.trans same.1) (·.trans same.2)
    · exact (m.pass.archives.options_entries _ path).imp (·.trans same.1) (·.trans same.2)
    · exact (m.pass.archives.options_read _ r).imp (·.trans same.1) (·.trans same.2)
  · intro path registered
    rcases contained.frame.step bounded.proper bounded.outputs bounded.quiet move with
      made | ⟨t, ts, artifact, place, d, jobs, goes, wrote, after⟩
    · rw [(made.leaves _).resolve_right id]
      exact contained.spared path registered
    · have provided := provides contained.paths contained.held (contained.sourced.jobs t (by simp [jobs]))
      have apart := bounded.spares t provided place goes path registered
      have added := wrote.additions
      have since : before.Changes (fun _ => True) d :=
        (contained.frame.changes.mono fun _ _ => trivial).trans
          (added.changes.mono fun _ _ => trivial)
      have removed := removals_removeSource (p := m.pass) bounded.outputs since
        (contained.frame.jobs t (by simp [jobs]))
      rw [after]
      rcases removed.leaves (before.placeOf path) with same | gone
      · have kept := (added.leaves (before.placeOf path)).resolve_right fun here => apart here.1
        simp only [Pass.Delivered, same, kept]
        exact contained.spared path registered
      · exact .inl gone
  · cases move with
    | @begin p ts ss es c goal as offer fresh =>
      intro u member
      rw [Tracker.mark_fresh fresh] at member
      rcases List.mem_append.mp member with old | new
      · exact contained.tracked u old
      · rw [List.mem_singleton.mp new]
        exact contained.offered bounded offer
    | @deliver p c goal s ts ss es artifact ends =>
      rcases p.deliver_cases plan c goal artifact with ⟨_, _, _, after⟩ | ⟨_, _, after⟩
      · rw [after]
        exact contained.tracked
      · rw [after]
        exact contained.tracked
    | _ => exact contained.tracked

theorem after (bounded : plan.Bounded archives before)
    (contained : Contained plan archives before m) (course : Course plan points m next) :
    Contained plan archives before next :=
  course.invariant _ (fun _ _ contained move => contained.move bounded move) contained

end Contained

/-- The identities in reach that a build has not taken up yet. -/
def Plan.untracked (plan : Plan) (archives : Archives) (before : Disk) (p : Pass) : Set Digest :=
  {k | ∃ u, plan.Provides archives before u ∧ p.tracker.has u = false ∧ u.digest = k}

section

variable {plan : Plan} {archives : Archives} {before : Disk} {p q : Pass}

theorem Plan.finite_untracked (plan : Plan) (archives : Archives) (sound : before.Sound) (p : Pass) :
    (plan.untracked archives before p).Finite :=
  (plan.finite_identities archives sound).subset fun _ ⟨u, provided, _, same⟩ => ⟨u, provided, same⟩

theorem Onward.untracked (onward : Onward p q) (sound : before.Sound) :
    (plan.untracked archives before q).ncard ≤ (plan.untracked archives before p).ncard := by
  refine Set.ncard_le_ncard ?_ (plan.finite_untracked archives sound p)
  rintro k ⟨u, provided, fresh, rfl⟩
  refine ⟨u, provided, ?_, rfl⟩
  by_contra known
  rw [onward.tracked u (by simpa using known)] at fresh
  cases fresh

theorem Plan.tracked_of_none_left (sound : before.Sound) {u : UnitId}
    (provided : plan.Provides archives before u)
    (none : (plan.untracked archives before p).ncard = 0) : p.tracker.has u = true := by
  have empty := (Set.ncard_eq_zero (plan.finite_untracked archives sound p)).mp none
  by_contra fresh
  have inside : u.digest ∈ plan.untracked archives before p :=
    ⟨u, provided, by simpa using fresh, rfl⟩
  rw [empty] at inside
  exact inside

end

section

variable {plan : Plan} {points : List String} {archives : Archives} {before : Disk}
  {ss : List (SourceRoot × SourceFile)} {es : List EntryRef} {p : Pass}

/-- A stage that a build may come to with so many units left. -/
structure Within (plan : Plan) (archives : Archives) (before : Disk) (n : Nat) (m : Stage) : Prop where
  contained : Contained plan archives before m
  left : (plan.untracked archives before m.pass).ncard ≤ n

theorem Within.after {n : Nat} {a b : Stage} (bounded : plan.Bounded archives before)
    (within : Within plan archives before n a) (course : Course plan points a b) :
    Within plan archives before n b :=
  ⟨within.contained.after bounded course,
    ((Onward.of_course course).untracked bounded.sound).trans within.left⟩

/-- A build between two units that has so many units left. -/
def Plan.Rests (plan : Plan) (archives : Archives) (before : Disk) (n : Nat) (p : Pass) : Prop :=
  ∃ ss es, Within plan archives before n ⟨p, [], ss, es⟩

theorem Plan.Rests.leads {n : Nat} (bounded : plan.Bounded archives before) {opens : Prop} {q : Pass}
    (rests : plan.Rests archives before n p) (leads : Leads plan points opens p q) :
    plan.Rests archives before n q := by
  obtain ⟨ss, es, within⟩ := rests
  obtain ⟨ss', es', _, course⟩ := leads ss es
  exact ⟨ss', es', within.after bounded course⟩

section

variable {n depth deeper : Nat} (bounded : plan.Bounded archives before) (enough : n < depth)
  (more : n < deeper)

include bounded enough more

end

end

/-! The build of a site. -/

theorem length_le_ncard {α : Type} [DecidableEq α] {all : List α} {s : Set α} (finite : s.Finite)
    (distinct : all.Nodup) (inside : ∀ x ∈ all, x ∈ s) : all.length ≤ s.ncard := by
  rw [← List.toFinset_card_of_nodup distinct, ← Set.ncard_coe_finset]
  exact Set.ncard_le_ncard (fun x member => inside x (by simpa using member)) finite

section

variable {plan : Plan} {archives : Archives} {before d d' : Disk} {heard : Bool}
  {earlier : List UnitSource} {m : Stage}

theorem Contained.calls (sound : before.Sound) (contained : Contained plan archives before m)
    (account : Account heard earlier m) : ∃ calls, m.pass.called = earlier ++ calls ∧
      calls.length ≤ (plan.identities archives before).ncard := by
  obtain ⟨calls, called, distinct, tracked⟩ := account.calls
  refine ⟨calls, called, ?_⟩
  rw [← List.length_map (f := fun call : UnitSource => call.unit.digest)]
  refine length_le_ncard (plan.finite_identities archives sound)
    (List.nodup_append.mp distinct).1 fun k member => ?_
  obtain ⟨u, known, rfl⟩ := List.mem_map.mp (tracked (List.mem_append_left _ member))
  exact ⟨u, contained.tracked u known, rfl⟩

theorem Archives.heldAt_congr (as : Archives) (made : d.Changes (fun _ => False) d') (path : Path) :
    as.heldAt d' path = as.heldAt d path := by
  simp only [heldAt, made.placeOf, Disk.content?_eq, (made.leaves _).resolve_right id]

theorem Plan.Provides.congr (made : d.Changes (fun _ => False) d') {u : UnitId} :
    plan.Provides archives d' u ↔ plan.Provides archives d u := by
  constructor
  · intro provided
    cases provided with
    | source listed holds => exact .source listed ((Roots.Holds.mono made).mp holds)
    | entry registered member =>
      rw [archives.heldAt_congr made] at member
      exact .entry registered member
  · intro provided
    cases provided with
    | source listed holds => exact .source listed ((Roots.Holds.mono made).mpr holds)
    | entry registered member =>
      rw [← archives.heldAt_congr made] at member
      exact .entry registered member

theorem Plan.Spares.mono (made : d.Changes (fun _ => False) d') (spares : plan.Spares archives d) :
    plan.Spares archives d' := by
  intro t provided place goes path registered
  rw [made.placeOf]
  refine spares t ((Plan.Provides.congr made).mp provided) place ?_ path registered
  cases goes with
  | cached goal =>
    rw [ArtifactCache.placeFor_congr made]
    exact .cached goal
  | beside known generated proper parts same source =>
    rw [made.placeOf]
    exact .beside known generated proper parts same source

end

namespace Builder

variable {b : Builder} {env : Environment} {heard : Bool} {cancel : Cancel} {s : Site}

/-- Whatever lies in reach can be opened. -/
structure Opens (b : Builder) (env : Environment) (d : Disk) : Prop where
  roots : ∀ root ∈ (b.roots env).roots, ∀ names, (b.roots env).Holds d root names →
    d.isFolder root.path = true
  archives : ∀ path ∈ b.archives.paths, b.archives.heldAt d path ≠ [] → d.isFile path = true

theorem archives_distinct (b : Builder) : (b.archives.paths.map Archive.key).Nodup :=
  (Archives.fresh_ofPaths _ _ _).1

theorem archives_closed (b : Builder) :
    Archives.Each (fun _ state => state = .unopened) b.archives.archives :=
  Archives.closed_ofPaths _ _ _

/-- The sources and the entries that a build lists before it compiles. -/
def listed (b : Builder) (env : Environment) (d : Disk) : Nat :=
  ((b.roots env).roots.flatMap fun root => (b.roots env).sweep d root).length +
    (b.archives.paths.flatMap fun p => (b.archives.entries d p).1).length

theorem bounded {config : Config} {project : Path} (accepted : config.check = .ok ())
    (layout : b.layout = .resolve project config) (quiet : b.service.Quiet) {d : Disk}
    (sound : d.Sound) (plain : d.Plain b.layout.cache)
    (roots : ∀ root ∈ (b.roots env).roots, d.Plain root.path)
    (unlinked : ∀ path ∈ b.archives.paths, d.Plain path)
    (spares : (b.plan env cancel).Spares b.archives d) :
    (b.plan env cancel).Bounded b.archives d := by
  have naming : b.layout.naming = config.naming := by rw [layout, Layout.resolve]
  obtain ⟨source, artifact, differ⟩ := Config.extensions_of_check accepted
  rw [← naming] at source artifact differ
  refine ⟨plan_proper source artifact differ, ?_, quiet, sound, roots, unlinked,
    b.archives_distinct, spares⟩
  rintro folder (rfl | ⟨root, known, _, rfl⟩)
  · exact plain
  · exact roots root known

theorem contained_start (b : Builder) (env : Environment) (heard : Bool) (cancel : Cancel)
    (sound : s.disk.Sound) : Contained (b.plan env cancel) b.archives
      (b.cache.ensureFolder s.disk).2 ⟨b.start env heard s, [], [], []⟩ := by
  refine ⟨Frame.opening b env heard (b.ensured sound).sound s.called [], ⟨by simp, by simp, by simp⟩,
    rfl, ⟨rfl, rfl⟩, ?_, fun _ _ => .inr rfl, by simp [start, opening, Tracker.empty]⟩
  intro a inside i state
  rw [b.archives_closed a inside] at state
  cases state

end Builder
end LayerCache
