import LayerCache.Proofs.Build.Account
import LayerCache.Proofs.Disk
import LayerCache.Proofs.Sources

/-! What a build leaves alone. It writes artifacts and its own two files, and the only sources it
removes are generated ones whose units it has compiled. -/
namespace LayerCache

/-- A name that ends in a dot and an extension, in any case. -/
def EndsIn (ending name : String) : Prop :=
  ∃ head old, name = head ++ "." ++ old ∧ Text.sameIgnoringCase old ending = true

/-- Where an artifact lies under a folder. -/
def IsArtifactIn (d : Disk) (ending : String) (folder : Path) (place : Place) : Prop :=
  ∃ front name, place = d.placeOf folder ++ (front ++ [name]) ∧ EndsIn ending name

theorem isArtifactIn_of_carries {ending : String} {names : List String} (d : Disk) (folder : Path)
    (carries : Carries ending names) : IsArtifactIn d ending folder (d.placeOf folder ++ names) := by
  obtain ⟨front, name, head, old, rfl, parts, same⟩ := carries.extended
  exact ⟨front, name, rfl, head, old, parts.1, same⟩

/-- A name has one last dot. -/
theorem lastDot_unique {name first second old other : String} (one : name = first ++ "." ++ old)
    (bare : '.' ∉ old.toList) (two : name = second ++ "." ++ other) (clean : '.' ∉ other.toList) :
    first = second ∧ old = other := by
  have cut : Text.cutLast '.' name = some (first, old) :=
    Text.cutLast_eq_some.mpr ⟨by simp [one], bare⟩
  have again : Text.cutLast '.' name = some (second, other) :=
    Text.cutLast_eq_some.mpr ⟨by simp [two], clean⟩
  rw [cut] at again
  cases again
  exact ⟨rfl, rfl⟩

/-- A source is no artifact. -/
theorem not_isArtifactIn {d : Disk} {ending other : String} {folder : Path} {place : Place}
    (bare : IsBare other) (differ : Text.sameIgnoringCase ending other = false)
    (carries : Carries ending place) : ¬ IsArtifactIn d other folder place := by
  obtain ⟨front, name, head, old, rfl, parts, same⟩ := carries.extended
  rintro ⟨before, last, below, first, final, text, ends⟩
  rw [← List.append_assoc] at below
  have equal : name = last := by simpa using (List.append_inj' below rfl).2
  have lower := Text.sameIgnoringCase_iff.mp ends
  have dotless : '.' ∉ final.toList := by
    rw [← Text.mem_lower (by decide) (by decide), lower, Text.mem_lower (by decide) (by decide)]
    exact bare.dotless
  have olds := (lastDot_unique parts.1 parts.2.2 (equal.trans text) dotless).2
  rw [Text.sameIgnoringCase_iff, olds, lower] at same
  rw [Text.sameIgnoringCase, same] at differ
  simp at differ

section

variable {d d' : Disk} {p : Path} {content : ByteArray}

open Disk

namespace ArtifactCache

theorem makeFolder_disk (d : Disk) (folder : Path) :
    (makeFolder d folder).2 = (d.makeFolders folder).2 := by
  unfold makeFolder
  split
  · rename_i made
    rw [made]
  · rename_i made
    rw [made]

theorem writeFile_cases (d : Disk) (p : Path) (content : ByteArray) :
    (∃ e, writeFile d p content = (.error e, d)) ∨
      ∃ d', writeFile d p content = (.ok (), d') ∧ d.write p content = .ok d' := by
  unfold writeFile
  split
  · rename_i written
    exact .inr ⟨_, rfl, written⟩
  · exact .inl ⟨_, rfl⟩

theorem changes_writeFile (sound : d.Sound) (plain : d.Plain p) (content : ByteArray) :
    Additions (· = d.placeOf p) d (writeFile d p content).2 := by
  rcases writeFile_cases d p content with ⟨e, same⟩ | ⟨d', same, written⟩
  · rw [same]
    exact .refl sound
  · rw [same]
    exact changes_write sound plain written

/-- An artifact is written with the folders above it, or these are all that is made. -/
theorem writeArtifact_cases (sound : d.Sound) (p : Path) (content : ByteArray) :
    ∃ made, Changes (fun _ => False) d made ∧
      ((∃ e, writeArtifact d p content = (.error e, made)) ∨
        ∃ d', writeArtifact d p content = (.ok (), d') ∧ made.write p content = .ok d') := by
  unfold writeArtifact
  split
  · exact ⟨d, .refl sound, writeFile_cases d p content⟩
  · rename_i folder _
    have made := changes_makeFolders sound folder
    rw [← makeFolder_disk] at made
    split
    · rename_i above
      rw [above] at made
      exact ⟨_, made, writeFile_cases ..⟩
    · rename_i above
      rw [above] at made
      exact ⟨_, made, .inl ⟨_, rfl⟩⟩

theorem changes_writeArtifact (sound : d.Sound) (plain : d.Plain p) (content : ByteArray) :
    Additions (· = d.placeOf p) d (writeArtifact d p content).2 := by
  obtain ⟨made, above, ⟨e, ends⟩ | ⟨d', ends, written⟩⟩ := writeArtifact_cases sound p content
  · rw [ends]
    exact .of_folders above
  · have after := changes_write above.sound (above.plain plain) written
    rw [ends]
    rw [above.placeOf] at after
    exact Additions.trans (.of_folders above) after

theorem changes_writeArtifact_up (sound : d.Sound) (front : Path) (content : ByteArray) :
    Changes (fun _ => False) d (writeArtifact d ⟨front.lead ++ ".."⟩ content).2 := by
  obtain ⟨made, above, ⟨e, ends⟩ | ⟨d', _, written⟩⟩ :=
    writeArtifact_cases sound ⟨front.lead ++ ".."⟩ content
  · rwa [ends]
  · exact absurd written (write_up made front content)

theorem plain_pathOf {c : ArtifactCache} (bare : IsBare c.ending) {u : UnitId} (tidy : u.Tidy)
    (plain : d.Plain c.folder) : d.Plain (c.pathOf u) := by
  rw [pathOf, tidy.pathIn_eq bare]
  exact plain.join (tidy.proper bare)

theorem isArtifact_pathOf {c : ArtifactCache} (bare : IsBare c.ending) {u : UnitId} (tidy : u.Tidy)
    (d : Disk) : IsArtifactIn d c.ending c.folder (d.placeOf (c.pathOf u)) := by
  obtain ⟨front, last, cut, names⟩ := u.fileNames_eq c.ending
  refine ⟨front, last ++ "." ++ c.ending, ?_, last, c.ending, rfl, Text.sameIgnoringCase_self _⟩
  rw [pathOf, tidy.pathIn_eq bare, placeOf_joinRelative (tidy.proper bare), names]

theorem disk_store (c : ArtifactCache) (d : Disk) (u : UnitId) (content : ByteArray) :
    (c.store d u content).2 = (writeArtifact d (c.pathOf u) content).2 := by
  unfold store
  split
  · rename_i written
    rw [written]
  · rename_i written
    rw [written]

theorem changes_store {c : ArtifactCache} (bare : IsBare c.ending) {u : UnitId} (tidy : u.Tidy)
    (sound : d.Sound) (plain : d.Plain c.folder) (content : ByteArray) :
    Additions (IsArtifactIn d c.ending c.folder) d (c.store d u content).2 := by
  rw [disk_store]
  refine (changes_writeArtifact sound (plain_pathOf bare tidy plain) content).mono ?_
  intro place here
  rw [here]
  exact isArtifact_pathOf bare tidy d

end ArtifactCache

theorem proper_beside {name head old other : String} {front : List String} (bare : IsBare other)
    (proper : ∀ n ∈ front ++ [name], IsName n) (parts : Path.Extends name head old) :
    ∀ n ∈ front ++ [head ++ "." ++ other], IsName n := by
  intro n member
  rcases List.mem_append.mp member with before | here
  · exact proper n (by simp [before])
  · rw [List.mem_singleton.mp here]
    exact UnitId.isName_withEnding bare fun inside =>
      (proper name (by simp)).bare (by simp [parts.1, inside])

/-- The path beside a source ends in the other extension, or leads up. -/
theorem withExtension_below {other : String} (bare : IsBare other) {front : List String}
    {name head old : String} (proper : ∀ n ∈ front ++ [name], IsName n)
    (parts : Path.Extends name head old) (folder : Path) :
    (folder.join (relativePath (front ++ [name]))).withExtension other =
      if head = "." then ⟨(front.foldl Path.joinName folder).lead ++ ".."⟩
      else folder.join (relativePath (front ++ [head ++ "." ++ other])) := by
  have named : IsName name := proper name (by simp)
  have beside := proper_beside bare proper parts
  rw [Path.joinRelative_concat proper, Path.withExtension_joinName named parts bare.bare]
  simp only [if_neg bare.filled]
  split
  · rfl
  · rw [Path.joinRelative_concat beside, Path.joinName_eq (beside _ (by simp))]

theorem changes_beside {ending other : String} (bare : IsBare other) {names : List String}
    (carries : Carries ending names) {folder : Path} (sound : d.Sound) (plain : d.Plain folder)
    (content : ByteArray) :
    Additions (IsArtifactIn d other folder) d (ArtifactCache.writeArtifact d
      ((folder.join (relativePath names)).withExtension other) content).2 := by
  obtain ⟨front, name, head, old, rfl, parts, _⟩ := carries.extended
  have proper := proper_beside bare carries.proper parts
  rw [withExtension_below bare carries.proper parts]
  split
  · exact .of_folders (ArtifactCache.changes_writeArtifact_up sound _ content)
  · refine (ArtifactCache.changes_writeArtifact sound (plain.join proper) content).mono ?_
    intro place here
    exact ⟨front, _, here.trans (placeOf_joinRelative proper), head, other, rfl,
      Text.sameIgnoringCase_self _⟩

end

@[simp] theorem Candidate.unit_ofSource (f : SourceFile) : (ofSource f).unit = f.unit := rfl

@[simp] theorem Candidate.origin_ofSource (f : SourceFile) :
    (ofSource f).origin = .root f.rank f.path := rfl

/-- What an accepted configuration makes of a plan. -/
structure Plan.Proper (plan : Plan) : Prop where
  source : IsBare plan.roots.ending
  artifact : IsBare plan.cache.ending
  differ : Text.sameIgnoringCase plan.roots.ending plan.cache.ending = false
  ranks : ∀ a ∈ plan.roots.roots, ∀ b ∈ plan.roots.roots, a.rank = b.rank → a = b

/-- A unit that is compiled beside its source has that source under the generated root. -/
structure Job.Lawful (plan : Plan) (t : Job) : Prop where
  tidy : t.candidate.unit.Tidy
  straight : t.candidate.unit.Straight
  beside : ∀ path, t.goal = .beside path → ∃ root ∈ plan.roots.roots, root.generated = true ∧
    ∃ names, Carries plan.roots.ending names ∧
      t.candidate = .ofSource (plan.roots.below root names) ∧
      path = plan.besideSource (plan.roots.below root names).path

/-- A source that is gone after its unit was compiled. -/
def Consumed (plan : Plan) (before : Disk) (p : Pass) (place : Place) : Prop :=
  p.disk.leafAt place = none ∧ ∃ root ∈ plan.roots.roots, root.generated = true ∧
    ∃ names, Carries plan.roots.ending names ∧ place = before.placeOf root.path ++ names ∧
      ∃ e ∈ p.log.events, e.outcome = .compiled ∧
        e.unit = (plan.roots.below root names).unit.logical

/-- The folders that artifacts are written to. -/
def Plan.IsOutput (plan : Plan) (folder : Path) : Prop :=
  folder = plan.cache.folder ∨ ∃ root ∈ plan.roots.roots, root.generated = true ∧ folder = root.path

def Plan.Writes (plan : Plan) (d : Disk) (place : Place) : Prop :=
  ∃ folder, plan.IsOutput folder ∧ IsArtifactIn d plan.cache.ending folder place

/-- What becomes of the disk while units are compiled. -/
structure Frame (plan : Plan) (before : Disk) (m : Stage) : Prop where
  changes : before.Changes (fun place => plan.Writes before place ∧ m.pass.disk.leafAt place ≠ none ∨
    Consumed plan before m.pass place) m.pass.disk
  jobs : ∀ t ∈ m.jobs, t.Lawful plan
  sources : ∀ root f, (root, f) ∈ m.sources → root ∈ plan.roots.roots ∧
    ∃ names, Carries plan.roots.ending names ∧ f = plan.roots.below root names

theorem Consumed.mono {plan : Plan} {before : Disk} {p q : Pass} {place : Place}
    (consumed : Consumed plan before p place) (events : p.log.events ⊆ q.log.events)
    (gone : q.disk.leafAt place = none) : Consumed plan before q place := by
  obtain ⟨_, root, member, generated, names, carries, below, e, told, rest⟩ := consumed
  exact ⟨gone, root, member, generated, names, carries, below, e, events told, rest⟩

theorem Plan.destination_beside {plan : Plan} {origin : Origin} {path : Path}
    (beside : plan.destination origin = .beside path) : ∃ rank source, origin = .root rank source ∧
      path = plan.besideSource source ∧
      ∃ root ∈ plan.roots.roots, root.generated = true ∧ root.rank = rank := by
  cases origin with
  | root rank source =>
    simp only [destination] at beside
    split at beside
    · rename_i found
      have same := Destination.beside.inj beside
      obtain ⟨root, member, both⟩ := List.any_eq_true.mp found
      simp only [Bool.and_eq_true, beq_iff_eq] at both
      exact ⟨rank, source, rfl, same.symm, root, member, both⟩
    · cases beside
  | archive entry => cases beside

theorem Plan.destination_generated {plan : Plan} {root : SourceRoot} (known : root ∈ plan.roots.roots)
    (generated : root.generated = true) (path : Path) :
    plan.destination (.root root.rank path) = .beside (plan.besideSource path) := by
  have marked : plan.roots.roots.any (fun other => other.generated && other.rank == root.rank) :=
    List.any_eq_true.mpr ⟨root, known, by simp [generated]⟩
  rw [destination, if_pos marked]

theorem Plan.Proper.destination_declared {plan : Plan} (proper : plan.Proper) {root : SourceRoot}
    (known : root ∈ plan.roots.roots) (declared : root.generated = false) (path : Path) :
    plan.destination (.root root.rank path) = .cache := by
  rw [destination, if_neg]
  intro marked
  obtain ⟨other, inside, both⟩ := List.any_eq_true.mp marked
  simp only [Bool.and_eq_true, beq_iff_eq] at both
  rw [proper.ranks other inside root known both.2, declared] at both
  cases both.1

section

variable {plan : Plan} {points : List String} {before : Disk} {p : Pass} {m next : Stage}

/-- A unit that is found comes from a source below a root or from an archive. -/
theorem locate_cases (proper : plan.Proper) (sound : p.disk.Sound) {symbol : String}
    (named : (UnitId.ofSymbol symbol).isEmpty = false) {c : Candidate} {after : Pass}
    (located : p.locate plan (.ofSymbol symbol) = (some c, after)) :
    (∃ root ∈ plan.roots.roots, ∃ names,
      plan.roots.namesIn p.disk (.ofSymbol symbol) root = some names ∧
      Carries plan.roots.ending names ∧ c = .ofSource (plan.roots.below root names)) ∨
    plan.roots.resolve p.disk (.ofSymbol symbol) = none ∧
      ∃ r, c = .ofEntry plan.roots.ending r := by
  simp only [Pass.locate] at located
  split at located
  · rename_i source found
    cases located
    have filled : ∀ segment ∈ (UnitId.ofSymbol symbol).segments, segment ≠ "" :=
      fun segment member => (UnitId.isName_of_ofSymbol named member).filled
    obtain ⟨root, member, names, inside, carries, rfl⟩ :=
      Roots.resolve_spec sound (UnitId.tidy_ofSymbol symbol) proper.source filled found
    exact .inl ⟨root, member, names, inside, carries, rfl⟩
  · rename_i missing
    obtain ⟨entry, _, rfl⟩ := Option.map_eq_some_iff.mp (Prod.mk.inj located).1
    exact .inr ⟨missing, entry, rfl⟩

theorem lawful_asked (proper : plan.Proper) {c : Candidate}
    (found : (∃ root ∈ plan.roots.roots, ∃ names, Carries plan.roots.ending names ∧
      c = .ofSource (plan.roots.below root names)) ∨ ∃ r, c = .ofEntry plan.roots.ending r) :
    Job.Lawful plan ⟨c, plan.destination c.origin, none⟩ := by
  constructor
  · rcases found with ⟨root, _, names, _, rfl⟩ | ⟨r, rfl⟩
    · exact UnitId.tidy_ofRelative _ _
    · exact UnitId.tidy_ofEntry _ _
  · rcases found with ⟨root, _, names, _, rfl⟩ | ⟨r, rfl⟩
    · exact UnitId.straight_ofRelative _ _
    · exact UnitId.straight_ofEntry _ _
  · intro path beside
    obtain ⟨rank, source, origin, rfl, other, member, generated, same⟩ :=
      Plan.destination_beside beside
    rcases found with ⟨root, inside, names, carries, rfl⟩ | ⟨r, rfl⟩
    · cases origin
      have equal := proper.ranks other member root inside same
      subst equal
      exact ⟨other, inside, generated, names, carries, rfl, rfl⟩
    · cases origin

theorem lawful_cached {c : Candidate} (tidy : c.unit.Tidy) (straight : c.unit.Straight) :
    Job.Lawful plan ⟨c, .cache, none⟩ :=
  ⟨tidy, straight, fun _ h => by cases h⟩

namespace Frame

theorem offered (proper : plan.Proper) (frame : Frame plan before m) {c : Candidate}
    {goal : Destination} {archives : Archives} (offer : Offer plan points m c goal archives) :
    Job.Lawful plan ⟨c, goal, none⟩ := by
  cases offer with
  | asked symbol known named fresh located =>
    apply lawful_asked proper
    rcases locate_cases proper frame.changes.sound named located with
      ⟨root, member, names, _, carries, rfl⟩ | ⟨_, r, rfl⟩
    · exact .inl ⟨root, member, names, carries, rfl⟩
    · exact .inr ⟨r, rfl⟩
  | source listed declared first =>
    obtain ⟨_, names, _, rfl⟩ := frame.sources _ _ listed
    exact lawful_cached (UnitId.tidy_ofRelative _ _) (UnitId.straight_ofRelative _ _)
  | generated listed generated =>
    obtain ⟨member, names, carries, rfl⟩ := frame.sources _ _ listed
    refine ⟨UnitId.tidy_ofRelative _ _, UnitId.straight_ofRelative _ _, ?_⟩
    intro path beside
    exact ⟨_, member, generated, names, carries, rfl, (Destination.beside.inj beside).symm⟩
  | entry listed missing =>
    exact lawful_cached (UnitId.tidy_ofEntry _ _) (UnitId.straight_ofEntry _ _)

variable {q : Pass} {ts ts' : List Job} {ss : List (SourceRoot × SourceFile)} {es es' : List EntryRef}

/-- A change of the disk that is written off as artifacts. -/
theorem written (frame : Frame plan before ⟨p, ts, ss, es⟩)
    (change : p.disk.Additions (plan.Writes before) q.disk) (events : p.log.events ⊆ q.log.events)
    (jobs : ∀ t ∈ ts', t.Lawful plan) : Frame plan before ⟨q, ts', ss, es'⟩ := by
  refine ⟨?_, jobs, frame.sources⟩
  have earlier := frame.changes
  refine ⟨change.sound, change.here.trans earlier.here,
    fun place there => change.folders place (earlier.folders place there),
    fun place target there => earlier.links place target (change.links place target there), ?_⟩
  intro place
  rcases change.leaves place with same | writes
  · rcases earlier.leaves place with equal | ⟨writes, there⟩ | consumed
    · exact .inl (same.trans equal)
    · exact .inr (.inl ⟨writes, by rwa [same]⟩)
    · exact .inr (.inr (consumed.mono events (same.trans consumed.1)))
  · exact .inr (.inl writes)

theorem same (frame : Frame plan before ⟨p, ts, ss, es⟩) (disk : q.disk = p.disk)
    (events : p.log.events ⊆ q.log.events) (jobs : ∀ t ∈ ts', t.Lawful plan) :
    Frame plan before ⟨q, ts', ss, es'⟩ :=
  frame.written (by rw [disk]; exact .refl frame.changes.sound) events jobs

end Frame

theorem store_disk (plan : Plan) (u : UnitId) (goal : Destination) (artifact : ByteArray) (p : Pass) :
    (p.store plan u goal artifact).2.disk = match goal with
      | .cache => (plan.cache.store p.disk u artifact).2
      | .beside path => (ArtifactCache.writeArtifact p.disk path artifact).2 := by
  cases goal with
  | cache =>
    simp only [Pass.store]
    generalize plan.cache.store p.disk u artifact = stored
    rfl
  | beside path =>
    simp only [Pass.store]
    generalize ArtifactCache.writeArtifact p.disk path artifact = stored
    rfl

/-- The folders that are written to hold no links and have none on their way. -/
def Plan.Plain (plan : Plan) (d : Disk) : Prop := ∀ folder, plan.IsOutput folder → d.Plain folder

theorem changes_stored (proper : plan.Proper) (plain : plan.Plain before)
    {within : Place → Prop} (since : before.Changes within p.disk) {t : Job} (lawful : t.Lawful plan)
    {artifact : ByteArray} {result : Except CacheError Unit} {d : Disk}
    (stored : p.store plan t.candidate.unit t.goal artifact = (result, p.setDisk d)) :
    p.disk.Additions (plan.Writes before) d := by
  have moved : ∀ {folder : Path}, plan.IsOutput folder → ∀ place,
      IsArtifactIn p.disk plan.cache.ending folder place → plan.Writes before place := by
    intro folder output place artifact
    obtain ⟨front, name, below, ends⟩ := artifact
    exact ⟨folder, output, front, name, by rw [below, since.placeOf], ends⟩
  have disk := store_disk plan t.candidate.unit t.goal artifact p
  rw [stored] at disk
  rw [show d = _ from disk]
  cases goal : t.goal with
  | cache =>
    have output : plan.IsOutput plan.cache.folder := .inl rfl
    exact (ArtifactCache.changes_store proper.artifact lawful.tidy since.sound
      (since.plain (plain _ output)) artifact).mono (moved output)
  | beside path =>
    obtain ⟨root, member, generated, names, carries, _, below⟩ := lawful.beside path goal
    have output : plan.IsOutput root.path := .inr ⟨root, member, generated, rfl⟩
    rw [below]
    exact (changes_beside proper.artifact carries since.sound
      (since.plain (plain _ output)) artifact).mono (moved output)

theorem Frame.consumed {ts : List Job} {ss : List (SourceRoot × SourceFile)} {es : List EntryRef}
    {d : Disk} {place : Place} (frame : Frame plan before ⟨p, ts, ss, es⟩)
    (change : p.disk.Changes (· = place) d)
    (consumed : Consumed plan before (p.setDisk d) place) :
    Frame plan before ⟨p.setDisk d, ts, ss, es⟩ := by
  refine ⟨?_, frame.jobs, frame.sources⟩
  have earlier := frame.changes
  refine ⟨change.sound, change.here.trans earlier.here,
    fun other there => change.folders other (earlier.folders other there),
    fun other target there => earlier.links other target (change.links other target there), ?_⟩
  intro other
  rcases change.leaves other with same | here
  · rcases earlier.leaves other with equal | ⟨writes, there⟩ | gone
    · exact .inl (same.trans equal)
    · exact .inr (.inl ⟨writes, fun none => there (same.symm.trans none)⟩)
    · exact .inr (.inr (gone.mono (fun _ h => h) (same.trans gone.1)))
  · rw [here]
    exact .inr (.inr consumed)

theorem Frame.delivered (proper : plan.Proper) (plain : plan.Plain before) {t : Job}
    {ts : List Job} {ss : List (SourceRoot × SourceFile)} {es : List EntryRef}
    (frame : Frame plan before ⟨p, t :: ts, ss, es⟩) (artifact : ByteArray) :
    Frame plan before ⟨p.deliver plan t.candidate t.goal artifact, ts, ss, es⟩ := by
  have lawful := frame.jobs t (by simp)
  have jobs : ∀ t ∈ ts, t.Lawful plan := fun t member => frame.jobs t (by simp [member])
  rcases p.deliver_cases plan t.candidate t.goal artifact with
    ⟨e, d, stored, delivered⟩ | ⟨d, stored, delivered⟩
  · have change := changes_stored proper plain frame.changes lawful stored
    rw [delivered]
    refine frame.written (q := (p.setDisk d).fail t.candidate e.message none) change ?_ jobs
    simp [Pass.fail, Pass.setDisk]
  · have change := changes_stored proper plain frame.changes lawful stored
    rw [delivered]
    have kept : Frame plan before ⟨{ p.record t.candidate.unit t.candidate.origin artifact with
        disk := d, log := p.log.addCompiled t.candidate.unit.logical t.candidate.name }, ts, ss, es⟩ :=
      frame.written change (by simp) jobs
    cases goal : t.goal with
    | cache => exact kept
    | beside path =>
      obtain ⟨root, member, generated, names, carries, source, _⟩ := lawful.beside path goal
      have origin : t.candidate.origin = .root root.rank (plan.roots.below root names).path := by
        rw [source, Candidate.origin_ofSource]
        rfl
      have output : plan.IsOutput root.path := .inr ⟨root, member, generated, rfl⟩
      rw [origin] at kept ⊢
      simp only [Pass.removeSource, Pass.setDisk]
      rcases removed : d.remove (plan.roots.below root names).path with fault | gone
      · exact kept
      have since := frame.changes
      have at_ : d.placeOf (plan.roots.below root names).path = before.placeOf root.path ++ names := by
        rw [change.placeOf, since.placeOf]
        exact Disk.placeOf_joinRelative carries.proper
      have clear : d.Plain (plan.roots.below root names).path :=
        (change.plain (since.plain (plain _ output))).join carries.proper
      obtain ⟨drops, absent⟩ := Disk.changes_remove change.sound clear removed
      rw [at_] at drops absent
      refine kept.consumed drops ⟨absent, root, member, generated, names, carries, rfl, ?_⟩
      have told : t.candidate.unit.logical = (plan.roots.below root names).unit.logical := by
        rw [source, Candidate.unit_ofSource]
      exact ⟨⟨_, .compiled, t.candidate.name⟩, by simp [Pass.setDisk], rfl, told⟩

namespace Frame

theorem move (proper : plan.Proper) (plain : plan.Plain before) (quiet : plan.service.Quiet)
    (frame : Frame plan before m) (move : Move plan points m next) : Frame plan before next := by
  cases move with
  | check | search | unpack => exact frame.same rfl (fun _ h => h) frame.jobs
  | pass | yield | keep => exact frame.same rfl (by simp [Pass.skip, Pass.record]) frame.jobs
  | @list p ss es root known =>
    refine ⟨frame.changes, frame.jobs, ?_⟩
    intro other f member
    rcases List.mem_append.mp member with old | new
    · exact frame.sources other f old
    · obtain ⟨file, swept, same⟩ := List.mem_map.mp new
      cases same
      obtain ⟨_, names, _, carries, _, below⟩ := (Roots.mem_sweep frame.changes.sound).mp swept
      exact ⟨known, names, carries, below⟩
  | @begin p ts ss es c goal archives offer fresh =>
    refine frame.same rfl (fun _ h => h) ?_
    intro t member
    rcases List.mem_cons.mp member with rfl | old
    · exact frame.offered proper offer
    · exact frame.jobs t old
  | unread loaded =>
    exact frame.same rfl (by simp [Pass.fail]) fun t member => frame.jobs t (by simp [member])
  | @call p c goal ts _ _ _ _ loaded =>
    refine frame.same rfl (fun _ h => h) ?_
    intro t member
    rcases List.mem_cons.mp member with rfl | old
    · have lawful := frame.jobs ⟨c, goal, none⟩ (by simp)
      exact ⟨lawful.tidy, lawful.straight, lawful.beside⟩
    · exact frame.jobs t (by simp [old])
  | replace loud => exact absurd quiet loud
  | reject ends =>
    exact frame.same rfl (by simp [Pass.fail]) fun t member => frame.jobs t (by simp [member])
  | deliver ends => exact frame.delivered proper plain _

theorem after (proper : plan.Proper) (plain : plan.Plain before) (quiet : plan.service.Quiet)
    {last : Stage} (frame : Frame plan before m) (course : Course plan points m last) :
    Frame plan before last :=
  course.invariant _ (fun _ _ frame move => frame.move proper plain quiet move) frame

theorem opening (b : Builder) (env : Environment) (heard : Bool) (sound : before.Sound)
    (called : List UnitSource) (es : List EntryRef) :
    Frame plan before ⟨b.opening env heard before called, [], [], es⟩ :=
  ⟨.refl sound, by simp, by simp⟩

end Frame

end

/-! A whole build. -/

/-- What a build may write: artifacts in three folders, and two files of its own in the cache. -/
def Layout.Owns (l : Layout) (d : Disk) (place : Place) : Prop :=
  (∃ folder ∈ [l.cache, l.generated, l.staging],
    IsArtifactIn d l.naming.artifactExt folder place) ∨
  place = d.placeOf l.cache ++ [IgnoreList.fileName] ∨
  place = d.placeOf l.cache ++ [Manifest.fileName]

namespace Builder

variable {b : Builder} {env : Environment} {heard : Bool} {cancel : Cancel} {d d' : Disk}

theorem plan_proper (source : IsBare b.layout.naming.sourceExt)
    (artifact : IsBare b.layout.naming.artifactExt)
    (differ : Text.sameIgnoringCase b.layout.naming.sourceExt b.layout.naming.artifactExt = false) :
    (b.plan env cancel).Proper :=
  ⟨source, artifact, differ, fun _ first _ second same => Roots.eq_of_rank first second same⟩

theorem isOutput_plan {folder : Path} (output : (b.plan env cancel).IsOutput folder) :
    folder = b.layout.cache ∨ folder = b.layout.generated := by
  rcases output with same | ⟨root, member, generated, rfl⟩
  · exact .inl same
  · have known := Roots.mem_ofPaths member
    rw [if_pos generated] at known
    exact .inr (Option.some.inj known).symm

theorem owns_of_writes {place : Place} (writes : (b.plan env cancel).Writes d place) :
    b.layout.Owns d place := by
  obtain ⟨folder, output, artifact⟩ := writes
  rcases isOutput_plan output with rfl | rfl
  · exact .inl ⟨_, by simp, artifact⟩
  · exact .inl ⟨_, by simp, artifact⟩

end Builder

section

open Disk ArtifactCache

variable {d : Disk} {p : Path}

theorem changes_removeIfThere (sound : d.Sound) (plain : d.Plain p) :
    Changes (· = d.placeOf p) d (removeIfThere d p).2 := by
  unfold removeIfThere
  split
  · rename_i removed
    exact (changes_remove sound plain removed).1
  · exact .refl sound
  · exact .refl sound

theorem removals_removeIfThere (sound : d.Sound) (plain : d.Plain p) :
    Removals d (removeIfThere d p).2 := by
  unfold removeIfThere
  split
  · rename_i removed
    exact removals_remove sound plain removed
  · exact .refl sound
  · exact .refl sound

namespace Builder

variable {b : Builder}

theorem invalidateAll_disk (b : Builder) (d : Disk) (u : UnitId) (rest : List UnitId) :
    (b.invalidateAll d (u :: rest)).2.2 =
      (b.invalidateAll (b.cache.invalidate d u).2 rest).2.2 := by
  simp only [invalidateAll]
  split
  · rfl
  · rfl

theorem changes_invalidateAll (bare : IsBare b.layout.naming.artifactExt) {units : List UnitId}
    (tidy : ∀ u ∈ units, u.Tidy) (sound : d.Sound) (plain : d.Plain b.layout.cache) :
    Changes (IsArtifactIn d b.layout.naming.artifactExt b.layout.cache) d
      (b.invalidateAll d units).2.2 := by
  induction units generalizing d with
  | nil => exact .refl sound
  | cons u rest ih =>
    rw [invalidateAll_disk]
    have first : Changes (IsArtifactIn d b.layout.naming.artifactExt b.layout.cache) d
        (b.cache.invalidate d u).2 := by
      refine (changes_removeIfThere sound (plain_pathOf bare (tidy u (by simp)) plain)).mono ?_
      intro place here
      rw [here]
      exact isArtifact_pathOf (c := b.cache) bare (tidy u (by simp)) d
    have later := ih (fun v member => tidy v (by simp [member])) first.sound (first.plain plain)
    refine first.trans (later.mono ?_)
    intro place artifact
    obtain ⟨front, name, below, ends⟩ := artifact
    exact ⟨front, name, by rw [below, first.placeOf], ends⟩

theorem changes_removeAll {within : Place → Prop} {paths : List Path}
    (removable : ∀ p ∈ paths, d.Plain p ∧ within (d.placeOf p)) (sound : d.Sound) :
    Changes within d (removeAll d paths).2 := by
  induction paths generalizing d with
  | nil => exact .refl sound
  | cons p rest ih =>
    obtain ⟨plain, inside⟩ := removable p (by simp)
    simp only [removeAll]
    split
    · rename_i removed
      have first : Changes within d _ := (changes_remove sound plain removed).1.mono (by simp [inside])
      refine first.trans (ih ?_ first.sound)
      intro q member
      obtain ⟨clear, within⟩ := removable q (by simp [member])
      exact ⟨first.plain clear, by rwa [first.placeOf]⟩
    · exact ih (fun q member => removable q (by simp [member])) sound

end Builder

theorem Layout.owns_congr {within : Place → Prop} {d' : Disk} (l : Layout)
    (since : d.Changes within d') : l.Owns d' = l.Owns d := by
  funext place
  simp only [Owns, IsArtifactIn, since.placeOf]

theorem Layout.owns_artifact {l : Layout} {folder : Path} {place : Place}
    (member : folder ∈ [l.cache, l.generated, l.staging])
    (artifact : IsArtifactIn d l.naming.artifactExt folder place) : l.Owns d place :=
  .inl ⟨folder, member, artifact⟩

/-- The folders a build writes to hold no links and have none on their way. -/
def Layout.Plain (l : Layout) (d : Disk) : Prop :=
  ∀ folder ∈ [l.cache, l.generated, l.staging], d.Plain folder

theorem Layout.Plain.mono {l : Layout} {within : Place → Prop} {d' : Disk} (plain : l.Plain d)
    (since : d.Changes within d') : l.Plain d' :=
  fun folder member => since.plain (plain folder member)

theorem isName_ignoreList : IsName IgnoreList.fileName := by
  constructor <;> decide

theorem isName_manifest : IsName Manifest.fileName := by
  constructor <;> decide

namespace Builder

variable {b : Builder}

theorem changes_writeIgnoreList (sound : d.Sound) (plain : d.Plain b.layout.cache) (l : IgnoreList) :
    Changes (· = d.placeOf b.layout.cache ++ [IgnoreList.fileName]) d
      (b.cache.writeIgnoreList d l).2 := by
  have made := changes_makeFolders sound b.layout.cache
  rw [← makeFolder_disk] at made
  have above : Changes (· = d.placeOf b.layout.cache ++ [IgnoreList.fileName]) d
      (b.cache.ensureFolder d).2 := made.mono fun _ h => h.elim
  unfold writeIgnoreList
  split
  · rename_i ensured
    rwa [ensured] at above
  · rename_i ensured
    rw [ensured] at above
    have clear : Disk.Plain _ b.cache.ignoreListPath :=
      (above.plain plain).joinName isName_ignoreList
    have place : Disk.placeOf _ b.cache.ignoreListPath =
        d.placeOf b.layout.cache ++ [IgnoreList.fileName] :=
      (placeOf_joinName isName_ignoreList).trans (by rw [above.placeOf]; rfl)
    have written := changes_writeFile above.sound clear l.render.toUTF8
    have listed := above.trans
      (written.changes.mono fun other here => here.trans place)
    split
    · rename_i wrote
      rwa [wrote] at listed
    · rename_i wrote
      rwa [wrote] at listed

theorem changes_prepare (artifact : IsBare b.layout.naming.artifactExt) (sound : d.Sound)
    (plain : b.layout.Plain d) : Changes (b.layout.Owns d) d (b.prepare d).2 := by
  have cached := plain b.layout.cache (by simp)
  have tidy : ∀ u ∈ (d.filesWithExtension b.layout.primary b.layout.naming.sourceExt).map
      (fun f => UnitId.ofRelative f.relative b.layout.naming.sourceExt), u.Tidy := by
    intro u member
    obtain ⟨f, _, rfl⟩ := List.mem_map.mp member
    exact UnitId.tidy_ofRelative _ _
  have invalidated := (changes_invalidateAll artifact tidy sound cached).mono
    fun place inside => b.layout.owns_artifact (by simp) inside
  simp only [prepare]
  generalize b.invalidateAll d _ = taken at invalidated ⊢
  generalize List.foldl _ _ _ = list
  have listing := changes_writeIgnoreList invalidated.sound (invalidated.plain cached) list
  rw [invalidated.placeOf] at listing
  have before := invalidated.trans (listing.mono fun place here => .inr (.inl here))
  split
  · rename_i wrote
    rwa [wrote] at before
  · rename_i wrote
    rw [wrote] at before
    refine before.trans (changes_removeAll ?_ before.sound)
    intro p member
    obtain ⟨file, stale, rfl⟩ := List.mem_map.mp member
    obtain ⟨_, names, _, carries, _, rfl⟩ := (mem_filesWithExtension before.sound).mp stale
    refine ⟨(before.plain (plain b.layout.staging (by simp))).join carries.proper, ?_⟩
    rw [before.placeOf]
    obtain ⟨front, name, head, old, rfl, parts, same⟩ := carries.extended
    have member : b.layout.staging ∈ [b.layout.cache, b.layout.generated, b.layout.staging] := by simp
    exact b.layout.owns_artifact member
      ⟨front, name, placeOf_joinRelative carries.proper, head, old, parts.1, same⟩

theorem changes_save (m : Manifest) (sound : d.Sound) (plain : d.Plain b.layout.cache) :
    Additions (· = d.placeOf b.layout.cache ++ [Manifest.fileName]) d
      (m.save d b.layout.cache).2 := by
  have made : Additions (· = d.placeOf b.layout.cache ++ [Manifest.fileName]) d
      (d.makeFolders b.layout.cache).2 :=
    .of_folders (changes_makeFolders sound b.layout.cache)
  unfold Manifest.save
  split
  · rename_i above
    rwa [above] at made
  · rename_i above
    rw [above] at made
    have clear : Disk.Plain _ (Manifest.pathIn b.layout.cache) :=
      (made.plain plain).joinName isName_manifest
    have place : Disk.placeOf _ (Manifest.pathIn b.layout.cache) =
        d.placeOf b.layout.cache ++ [Manifest.fileName] :=
      (placeOf_joinName isName_manifest).trans (by rw [made.placeOf])
    split
    · rename_i written
      have change := changes_write made.sound clear written
      exact made.trans (change.mono fun other here => here.trans place)
    · exact made

theorem ensured (b : Builder) (sound : d.Sound) :
    d.Changes (fun _ => False) (b.cache.ensureFolder d).2 := by
  have made := changes_makeFolders sound b.layout.cache
  rwa [← makeFolder_disk] at made

/-- A compilation makes the cache folder, and may then fill it. -/
theorem compile_changes {env : Environment} {heard : Bool} {cancel : Cancel} {s s' : Site}
    {result : Except BuildError Summary} (sound : s.disk.Sound)
    (built : b.compile env heard cancel s = (result, s')) :
    Changes (fun _ => False) s.disk s'.disk ∨
      ∃ d, Changes (fun _ => False) s.disk d ∧
        result = .ok (summarize (b.fill env heard cancel d s.called)) ∧
        s'.disk = ((b.fill env heard cancel d s.called).manifest.save
          (b.closing env heard cancel d s.called).disk b.layout.cache).2 := by
  have ensured := b.ensured sound
  rcases result with e | summary
  · rcases asked : wanted env s with ⟨e | _ | _, after⟩
    all_goals
      obtain ⟨settings, rfl⟩ := wanted_rest asked
      simp only [compile, asked] at built
    · rw [← (Prod.mk.inj built).2]
      exact .inl (.refl sound)
    · cases (Prod.mk.inj built).1
    · rcases above : b.cache.ensureFolder s.disk with ⟨e | _, d⟩
      · rw [above] at built ensured
        rw [← (Prod.mk.inj built).2]
        exact .inl ensured
      · rw [above] at built
        cases (Prod.mk.inj built).1
  · rcases compile_cases built with ⟨_, same, _⟩ | ⟨d, above, rfl, disk, _⟩
    · rw [same]
      exact .inl (.refl sound)
    · rw [above] at ensured
      exact .inr ⟨d, ensured, rfl, disk⟩

end Builder

theorem leafAt_same_or_proper {d' : Disk} (sound : d.Sound) (after : d'.Sound) (place : Place) :
    d'.leafAt place = d.leafAt place ∨ ∀ name ∈ place, IsName name := by
  by_cases before : d.entryAt place = none
  · by_cases later : d'.entryAt place = none
    · exact .inl (by simp [leafAt, before, later])
    · exact .inr (after.names later)
  · exact .inr (sound.names before)

/-- The ignore list is no artifact and no source. -/
theorem ignoreList_apart {ending : String} {names : List String} (carries : Carries ending names)
    (place other : Place) : place ++ names ≠ other ++ [IgnoreList.fileName] := by
  intro same
  obtain ⟨front, name, head, old, rfl, parts, _⟩ := carries.extended
  rw [← List.append_assoc] at same
  have dotted : name = "" ++ "." ++ "cacheignore" :=
    List.singleton_inj.mp (List.append_inj' same rfl).2
  exact parts.2.1 (lastDot_unique parts.1 parts.2.2 dotted (by decide)).1

theorem Layout.not_owns {l : Layout} (artifact : IsBare l.naming.artifactExt)
    (differ : Text.sameIgnoringCase l.naming.sourceExt l.naming.artifactExt = false)
    (noJson : Text.sameIgnoringCase l.naming.sourceExt "json" = false) {place : Place}
    (carries : Carries l.naming.sourceExt place) : ¬ l.Owns d place := by
  rintro (⟨folder, _, inside⟩ | below | below)
  · exact not_isArtifactIn artifact differ carries inside
  · exact ignoreList_apart carries [] _ below
  · obtain ⟨front, name, head, old, rfl, parts, same⟩ := carries.extended
    have last := List.singleton_inj.mp (List.append_inj' below rfl).2
    have dotted : name = ".strata-manifest" ++ "." ++ "json" := last
    have equal := (lastDot_unique parts.1 parts.2.2 dotted (by decide)).2
    rw [Text.sameIgnoringCase_iff, equal] at same
    rw [Text.sameIgnoringCase, same] at noJson
    simp at noJson

namespace Builder

variable {b : Builder} {env : Environment} {heard : Bool} {cancel : Cancel} {s s' : Site}
  {result : Except BuildError Report}

/-- Where a source lay that a build has removed after its unit was compiled. -/
def Spent (b : Builder) (d : Disk) (result : Except BuildError Report) (place : Place) : Prop :=
  ∃ names report e, place = d.placeOf b.layout.generated ++ names ∧
    Carries b.layout.naming.sourceExt names ∧ result = .ok report ∧ e ∈ report.summary.events ∧
    e.outcome = .compiled ∧
    (e.identity == .ofRelative (relativePath names) b.layout.naming.sourceExt) = true

theorem closing_frame {d : Disk} (proper : (b.plan env cancel).Proper)
    (plain : (b.plan env cancel).Plain d) (quiet : b.service.Quiet) (sound : d.Sound)
    (called : List UnitSource) : ∃ ss es, Frame (b.plan env cancel) d
      ⟨b.closing env heard cancel d called, [], ss, es⟩ := by
  obtain ⟨ss, es, _, course⟩ := b.closing_leads env heard cancel d called [] []
  exact ⟨ss, es, (Frame.opening b env heard sound called []).after proper plain quiet course⟩

theorem fill_log (b : Builder) (env : Environment) (heard : Bool) (cancel : Cancel) (d : Disk)
    (called : List UnitSource) :
    (b.fill env heard cancel d called).log = (b.closing env heard cancel d called).log := by
  rw [fill_eq, Pass.carryOver_rest]

theorem spent_of_consumed {d : Disk} {p : Pass} {place : Place} {preparation : Preparation}
    {summary : Summary} (events : summary.events = p.log.events)
    (consumed : Consumed (b.plan env cancel) d p place) :
    b.Spent d (.ok ⟨preparation, summary⟩) place := by
  obtain ⟨_, root, member, generated, names, carries, below, e, told, compiled, unit⟩ := consumed
  have known := Roots.mem_ofPaths member
  rw [if_pos generated] at known
  have path := Option.some.inj known
  rw [Roots.unit_below] at unit
  have same : Text.lower e.identity.logical = Text.lower
      (UnitId.ofRelative (relativePath names) b.layout.naming.sourceExt).logical := by
    rw [Event.identity, UnitId.logical_ofLogical, unit]
    rfl
  exact ⟨names, _, e, by rw [below, path], carries, rfl, by rwa [events], compiled,
    UnitId.beq_of_lower_eq same⟩

/-- What filling the cache does to the files there are. -/
theorem fill_changes {d after : Disk} (source : IsBare b.layout.naming.sourceExt)
    (artifact : IsBare b.layout.naming.artifactExt)
    (differ : Text.sameIgnoringCase b.layout.naming.sourceExt b.layout.naming.artifactExt = false)
    (quiet : b.service.Quiet) (sound : d.Sound) (plain : b.layout.Plain d)
    {called : List UnitSource} (preparation : Preparation)
    (saves : after = ((b.fill env heard cancel d called).manifest.save
      (b.closing env heard cancel d called).disk b.layout.cache).2) :
    Changes (fun place => b.layout.Owns d place ∨ after.leafAt place = none ∧
      b.Spent d (.ok ⟨preparation, summarize (b.fill env heard cancel d called)⟩) place) d after := by
  have clear : (b.plan env cancel).Plain d := by
    intro folder output
    rcases isOutput_plan output with same | same
    · exact plain folder (by simp [same])
    · exact plain folder (by simp [same])
  obtain ⟨ss, es, frame⟩ := closing_frame (plan_proper source artifact differ) clear quiet sound called
  have run := frame.changes
  have saved := changes_save (b.fill env heard cancel d called).manifest run.sound
    (run.plain (plain b.layout.cache (by simp)))
  rw [← saves, run.placeOf] at saved
  refine ⟨saved.sound, saved.here.trans run.here,
    fun place there => saved.folders place (run.folders place there),
    fun place target there => run.links place target (saved.links place target there), ?_⟩
  intro place
  by_cases own : b.layout.Owns d place
  · exact .inr (.inl own)
  have last := (saved.leaves place).resolve_right fun written => own (.inr (.inr written.1))
  rcases run.leaves place with same | writes | consumed
  · exact .inl (last.trans same)
  · exact absurd (owns_of_writes writes.1) own
  · have events : (summarize (b.fill env heard cancel d called)).events =
        (b.closing env heard cancel d called).log.events := by
      rw [← fill_log b env heard cancel d called]
      rfl
    exact .inr (.inr ⟨last.trans consumed.1, spent_of_consumed events consumed⟩)

/-- All that a build does to the files there are. -/
theorem build_changes (source : IsBare b.layout.naming.sourceExt)
    (artifact : IsBare b.layout.naming.artifactExt)
    (differ : Text.sameIgnoringCase b.layout.naming.sourceExt b.layout.naming.artifactExt = false)
    (quiet : b.service.Quiet) (sound : s.disk.Sound) (plain : b.layout.Plain s.disk)
    (built : b.build env heard cancel s = (result, s')) :
    Changes (fun place => b.layout.Owns s.disk place ∨
      s'.disk.leafAt place = none ∧ b.Spent s.disk result place) s.disk s'.disk := by
  have prepared := changes_prepare artifact sound plain
  rcases prep : b.prepare s.disk with ⟨e | preparation, prior⟩
  all_goals
    rw [prep] at prepared
    simp only [build, prep] at built
  · rw [← (Prod.mk.inj built).2]
    exact prepared.mono fun _ own => .inl own
  rcases comp : b.compile env heard cancel { s with disk := prior } with ⟨outcome, after⟩
  have here : after = s' := by
    rw [comp] at built
    rcases outcome with e | summary
    · exact (Prod.mk.inj built).2
    · exact (Prod.mk.inj built).2
  subst here
  rcases compile_changes prepared.sound comp with change | ⟨d, ensured, rfl, disk⟩
  · exact (prepared.trans (change.mono fun _ h => h.elim)).mono fun _ own => .inl own
  rw [comp] at built
  have start : Changes (b.layout.Owns s.disk) s.disk d :=
    prepared.trans (ensured.mono fun _ h => h.elim)
  have filled := fill_changes source artifact differ quiet start.sound (plain.mono start)
    preparation disk
  rw [b.layout.owns_congr start] at filled
  refine (start.mono fun _ own => .inl own).trans (filled.mono ?_)
  rintro place (own | ⟨gone, names, report, e, below, carries, told, rest⟩)
  · exact .inl own
  · refine .inr ⟨gone, names, report, e, ?_, carries, (Prod.mk.inj built).1.symm.trans told, rest⟩
    rw [below, start.placeOf]

theorem changes_built {config : Config} {project : Path} (accepted : config.check = .ok ())
    (layout : b.layout = .resolve project config) (quiet : b.service.Quiet) (sound : s.disk.Sound)
    (plain : b.layout.Plain s.disk) :
    s.disk.Changes (fun _ => True) (b.build env heard cancel s).2.disk := by
  have naming : b.layout.naming = config.naming := by rw [layout, Layout.resolve]
  obtain ⟨source, artifact, differ⟩ := Config.extensions_of_check accepted
  rw [← naming] at source artifact differ
  rcases built : b.build env heard cancel s with ⟨result, s'⟩
  exact (build_changes source artifact differ quiet sound plain built).mono fun _ _ => trivial

theorem compile_of_build {report : Report} (built : b.build env heard cancel s = (.ok report, s')) :
    ∃ between, b.compile env heard cancel between = (.ok report.summary, s') := by
  rcases prep : b.prepare s.disk with ⟨e | preparation, prior⟩
  all_goals simp only [build, prep] at built
  · cases (Prod.mk.inj built).1
  rcases comp : b.compile env heard cancel { s with disk := prior } with ⟨e | summary, after⟩
  all_goals rw [comp] at built
  · cases (Prod.mk.inj built).1
  · obtain ⟨equal, rfl⟩ := Prod.mk.inj built
    cases equal
    exact ⟨_, comp⟩

/-- No source is made or changed by a build, and none is lost whose unit was not compiled. -/
theorem build_spares_sources {config : Config} {project : Path} (accepted : config.check = .ok ())
    (layout : b.layout = .resolve project config)
    (noJson : Text.sameIgnoringCase config.naming.sourceExt "json" = false)
    (quiet : b.service.Quiet) (sound : s.disk.Sound) (plain : b.layout.Plain s.disk)
    (built : b.build env heard cancel s = (result, s')) :
    (∀ place, b.layout.isSource (relativePath place) = true →
      s'.disk.leafAt place = s.disk.leafAt place ∨
        s'.disk.leafAt place = none ∧ b.Spent s.disk result place) ∧
    (∀ report e names, result = .ok report → e ∈ report.summary.events → e.outcome = .error →
      (e.identity == .ofRelative (relativePath names) config.naming.sourceExt) = true →
      b.layout.isSource (relativePath (s.disk.placeOf b.layout.generated ++ names)) = true →
      s'.disk.leafAt (s.disk.placeOf b.layout.generated ++ names) =
        s.disk.leafAt (s.disk.placeOf b.layout.generated ++ names)) ∧
    ∀ place, b.layout.isSource (relativePath place) = false →
      s'.disk.leafAt place = s.disk.leafAt place ∨ b.layout.Owns s.disk place := by
  have naming : b.layout.naming = config.naming := by rw [layout, Layout.resolve]
  obtain ⟨source, artifact, differ⟩ := Config.extensions_of_check accepted
  rw [← naming] at source artifact differ noJson ⊢
  have changes := build_changes source artifact differ quiet sound plain built
  have sources : ∀ place, b.layout.isSource (relativePath place) = true →
      s'.disk.leafAt place = s.disk.leafAt place ∨
        s'.disk.leafAt place = none ∧ b.Spent s.disk result place := by
    intro place carries
    rcases leafAt_same_or_proper sound changes.sound place with same | proper
    · exact .inl same
    rcases changes.leaves place with same | own | spent
    · exact .inl same
    · exact absurd own (Layout.not_owns artifact differ noJson
        ((hasExtension_relativePath proper).mp carries))
    · exact .inr spent
  refine ⟨sources, ?_, ?_⟩
  · intro report e names told member failed identity carries
    rcases sources _ carries with same | ⟨_, others, _, e', below, _, again, listed, compiled, same⟩
    · exact same
    exfalso
    rw [told] at again built
    cases again
    rw [← List.append_cancel_left below] at same
    obtain ⟨_, comp⟩ := compile_of_build built
    have final : e ∈ finals report.summary.events := by simp [finals, member, Event.isFinal, failed]
    have other : e' ∈ finals report.summary.events := by
      simp [finals, listed, Event.isFinal, compiled]
    have digest : e.identity.digest = e'.identity.digest :=
      (UnitId.beq_iff.mp identity).trans (UnitId.beq_iff.mp same).symm
    have equal := List.inj_on_of_nodup_map (compile_finals comp) final other digest
    rw [equal, compiled] at failed
    cases failed
  · intro place other
    rcases leafAt_same_or_proper sound changes.sound place with same | proper
    · exact .inl same
    rcases changes.leaves place with same | own | ⟨_, names, _, _, below, carries, _⟩
    · exact .inl same
    · exact .inr own
    · rw [below] at proper other
      have source := (hasExtension_relativePath proper).mpr (carries.append proper)
      rw [Layout.isSource, source] at other
      cases other

theorem quiet_follow (u : UnitSource) (n : Nat) (lines : List String) :
    (Scripted.follow u n lines).Quiet := by
  induction lines generalizing n with
  | nil => exact trivial
  | cons line rest ih =>
    simp only [Scripted.follow]
    generalize Text.trim line = order
    split
    · exact fun _ => ih (n + 1)
    split
    · exact trivial
    split
    · exact trivial
    · exact ih (n + 1)

theorem quiet_scripted : Scripted.service.Quiet := fun _ _ => quiet_follow _ _ _

theorem build_spares_sources_sample : ∃ result s',
    sample.build .prod true .never sampleSite = (result, s') ∧
      sampleSite.disk.content? ["p", "src", "Bad.php"] = some "fail\n".toUTF8 ∧
      s'.disk.leafAt ["p", "src", "Bad.php"] = sampleSite.disk.leafAt ["p", "src", "Bad.php"] := by
  rcases built : sample.build .prod true .never sampleSite with ⟨result, s'⟩
  refine ⟨result, s', rfl, by decide +kernel, ?_⟩
  have accepted : sampleConfig.check = .ok () := by decide +kernel
  have layout : sample.layout = .resolve ⟨"/p"⟩ sampleConfig := rfl
  have sound : sampleSite.disk.Sound := sound_siteOf sampleFiles
  have plain : sample.layout.Plain sampleSite.disk := fun folder _ => plain_siteOf sampleFiles folder
  have spared := build_spares_sources accepted layout (by decide) quiet_scripted
    sound plain built
  have generated : sampleSite.disk.placeOf sample.layout.generated = ["p", "gen"] := by
    decide +kernel
  rcases spared.1 ["p", "src", "Bad.php"] (by decide +kernel) with same | ⟨_, names, _, _, below, _⟩
  · exact same
  · rw [generated] at below
    simp at below

end Builder
end
end LayerCache
