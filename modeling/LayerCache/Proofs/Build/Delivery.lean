import LayerCache.Proofs.Build.Frame
import LayerCache.Proofs.Folders

/-! Where artifacts go. A unit names one place below the folder of the cache, and what a build
writes for a unit, into the cache or beside its source, it writes at that place. -/
namespace LayerCache

namespace UnitId

variable {u v : UnitId} {ending other : String}

/-- The names of its file tell a unit. -/
theorem logical_of_fileNames (same : fileNames ending u.segments = fileNames ending v.segments) :
    u.logical = v.logical := by
  obtain ⟨front, last, cut, names⟩ := u.fileNames_eq ending
  obtain ⟨before, final, parts, others⟩ := v.fileNames_eq ending
  rw [names, others] at same
  obtain ⟨fronts, lasts⟩ := List.append_inj' same rfl
  have chars := congrArg String.toList (List.singleton_inj.mp lasts)
  simp only [String.toList_append, List.append_assoc] at chars
  have stems : last = final := String.toList_inj.mp (List.append_cancel_right chars)
  rw [← u.join_segments, ← v.join_segments, cut, parts, fronts, stems]

/-- A file that lies beside a source under the name of a unit's artifact is that of the source. -/
theorem logical_of_beside (straight : u.Straight) (bare : IsBare ending) {front : List String}
    {name head old : String} (proper : ∀ n ∈ front ++ [name], IsName n)
    (parts : Path.Extends name head old) (same : Text.sameIgnoringCase old ending = true)
    (beside : front ++ [head ++ "." ++ other] = fileNames other u.segments) :
    (ofRelative (Disk.relativePath (front ++ [name])) ending).logical = u.logical := by
  obtain ⟨before, last, cut, names⟩ := u.fileNames_eq other
  rw [names] at beside
  obtain ⟨rfl, lasts⟩ := List.append_inj' beside rfl
  have chars := congrArg String.toList (List.singleton_inj.mp lasts)
  simp only [String.toList_append, List.append_assoc] at chars
  have stem : head = last := String.toList_inj.mp (List.append_cancel_right chars)
  subst stem
  have clean : ∀ segment ∈ front ++ [head], '\\' ∉ segment.toList := by
    intro segment member inside
    exact straight (Text.mem_of_mem_split (cut ▸ member) inside)
  have dotted : '\\' ∉ name.toList := by
    intro member
    rw [parts.1] at member
    simp only [String.toList_append, List.mem_append] at member
    rcases member with (inside | dot) | inside
    · exact clean head (by simp) inside
    · exact absurd dot (by decide)
    · rw [← Text.mem_lower (by decide) (by decide), Text.sameIgnoringCase_iff.mp same,
        Text.mem_lower (by decide) (by decide)] at inside
      exact bare.straight inside
  have all : ∀ n ∈ front ++ [name], '\\' ∉ n.toList := by
    intro n member
    rcases List.mem_append.mp member with inside | here
    · exact clean n (by simp [inside])
    · rwa [List.mem_singleton.mp here]
  rw [← join_segments, segments_ofRelative proper all parts same, ← cut, join_segments]

end UnitId

open Disk

namespace ArtifactCache

variable {c : ArtifactCache} {d d' : Disk} {u v : UnitId}

/-- Where the artifact of a unit lies. -/
def placeFor (c : ArtifactCache) (d : Disk) (u : UnitId) : Place :=
  d.placeOf c.folder ++ UnitId.fileNames c.ending u.segments

theorem placeOf_pathOf (bare : IsBare c.ending) (tidy : u.Tidy) (d : Disk) :
    d.placeOf (c.pathOf u) = c.placeFor d u := by
  rw [pathOf, tidy.pathIn_eq bare, placeOf_joinRelative (tidy.proper bare), placeFor]

theorem placeFor_congr {within : Place → Prop} (change : d.Changes within d') (u : UnitId) :
    c.placeFor d' u = c.placeFor d u := by
  rw [placeFor, placeFor, change.placeOf]

theorem logical_of_placeFor (same : c.placeFor d u = c.placeFor d v) : u.logical = v.logical :=
  UnitId.logical_of_fileNames (List.append_cancel_left same)

/-- A source does not lie where an artifact does. -/
theorem not_carries_placeFor {ending : String} (bare : IsBare c.ending)
    (differ : Text.sameIgnoringCase ending c.ending = false) (d : Disk) (tidy : u.Tidy) :
    ¬ Carries ending (c.placeFor d u) := by
  intro carries
  have artifact := isArtifact_pathOf (c := c) bare tidy d
  rw [placeOf_pathOf bare tidy] at artifact
  exact not_isArtifactIn bare differ carries artifact

end ArtifactCache

variable {plan : Plan} {before : Disk} {p : Pass} {t : Job}

/-- Where the artifact of a job is written. -/
inductive Job.Goes (plan : Plan) (d : Disk) (t : Job) : Place → Prop where
  | cached (goal : t.goal = .cache) : Goes plan d t (plan.cache.placeFor d t.candidate.unit)
  | beside {root front name head old} (known : root ∈ plan.roots.roots)
      (generated : root.generated = true) (proper : ∀ n ∈ front ++ [name], IsName n)
      (parts : Path.Extends name head old)
      (same : Text.sameIgnoringCase old plan.roots.ending = true)
      (source : t.candidate = .ofSource (plan.roots.below root (front ++ [name]))) :
      Goes plan d t (d.placeOf root.path ++ (front ++ [head ++ "." ++ plan.cache.ending]))

/-- The folder of generated sources is the cache folder or lies apart from it. -/
def Plan.Homed (plan : Plan) (d : Disk) : Prop :=
  ∀ root ∈ plan.roots.roots, root.generated = true → ∀ front back,
    d.placeOf root.path ++ front = d.placeOf plan.cache.folder ++ back → front = back

/-- Only the job of a unit writes where the artifact of the unit lies. -/
theorem Job.Goes.logical {u : UnitId} (proper : plan.Proper) (homed : plan.Homed before)
    (straight : u.Straight) (goes : t.Goes plan before (plan.cache.placeFor before u)) :
    t.candidate.unit.logical = u.logical := by
  generalize there : plan.cache.placeFor before u = place at goes
  cases goes with
  | cached => exact ArtifactCache.logical_of_placeFor there.symm
  | beside known generated named parts same source =>
    rw [source]
    exact UnitId.logical_of_beside straight proper.source named parts same
      (homed _ known generated _ _ there.symm)

/-- A write, with nothing but folders made before it. -/
def Disk.Wrote (content : ByteArray) (place : Place) (d d' : Disk) : Prop :=
  ∃ made p, Changes (fun _ => False) d made ∧ made.Plain p ∧ made.placeOf p = place ∧
    made.write p content = .ok d'

theorem Disk.Wrote.additions {content : ByteArray} {place : Place} {d d' : Disk}
    (wrote : Wrote content place d d') : Additions (· = place) d d' := by
  obtain ⟨made, p, above, plain, here, written⟩ := wrote
  have after := changes_write above.sound plain written
  rw [here] at after
  exact Additions.trans (.of_folders above) after

namespace ArtifactCache

variable {d : Disk} {p : Path} {place : Place} {content : ByteArray}

theorem folder_of_writeFile (folder : (writeFile d p content).2.entryAt place = some .folder) :
    d.entryAt place = some .folder := by
  rcases writeFile_cases d p content with ⟨e, failed⟩ | ⟨d', ok, written⟩
  · rwa [failed] at folder
  · rw [ok] at folder
    exact folder_of_write written folder

/-- A folder that writing an artifact adds leads to it. -/
theorem folder_of_writeArtifact (sound : d.Sound)
    (clear : ∀ place ∈ way (d.startOf p) p.names.dropLast, ∀ target,
      d.entryAt place ≠ some (.link target))
    (folder : (writeArtifact d p content).2.entryAt place = some .folder) :
    d.entryAt place = some .folder ∨ place ∈ way (d.startOf p) p.names.dropLast := by
  unfold writeArtifact at folder
  split at folder
  · exact .inl (folder_of_writeFile folder)
  · rename_i up above
    have inside : ∀ other ∈ way (d.startOf up) up.names,
        other ∈ way (d.startOf p) p.names.dropLast := by
      intro other member
      obtain ⟨shorter, absolute⟩ := Path.names_parent above
      rcases absolute with empty | same
      · have none : up.names = [] := by
          rw [show up = ⟨""⟩ from congrArg Path.mk empty]
          decide
        rw [none] at member
        cases member
      · rw [startOf, same, ← startOf] at member
        exact (way_front shorter _).subset member
    have made : (makeFolder d up).2.entryAt place = some .folder →
        d.entryAt place = some .folder ∨ place ∈ way (d.startOf p) p.names.dropLast := by
      intro there
      rw [makeFolder_disk] at there
      rcases entryAt_makeFolders sound (fun other member => clear other (inside other member)) with
        same | fresh
      · exact .inl (same ▸ there)
      · exact .inr (inside place fresh)
    split at folder
    · rename_i ok
      rw [ok] at made
      exact made (folder_of_writeFile folder)
    · rename_i failed
      rw [failed] at made
      exact made folder

end ArtifactCache

theorem writeArtifact_writes {d d' : Disk} (sound : d.Sound) {p : Path} (plain : d.Plain p)
    {content : ByteArray} {result : Except CacheError Unit}
    (wrote : ArtifactCache.writeArtifact d p content = (result, d')) :
    (∃ e, result = .error e) ∧ Changes (fun _ => False) d d' ∨
      result = .ok () ∧ Wrote content (d.placeOf p) d d' := by
  obtain ⟨made, above, ⟨e, ends⟩ | ⟨last, ends, written⟩⟩ :=
    ArtifactCache.writeArtifact_cases sound p content
  · rw [ends] at wrote
    cases wrote
    exact .inl ⟨⟨e, rfl⟩, above⟩
  · rw [ends] at wrote
    cases wrote
    exact .inr ⟨rfl, ⟨made, p, above, above.plain plain, above.placeOf p, written⟩⟩

theorem store_writes {c : ArtifactCache} {d d' : Disk} {u : UnitId} (bare : IsBare c.ending)
    (tidy : u.Tidy) (sound : d.Sound) (plain : d.Plain c.folder) {content : ByteArray}
    {result : Except CacheError Path} (stored : c.store d u content = (result, d')) :
    (∃ e, result = .error e) ∧ Changes (fun _ => False) d d' ∨
      result = .ok (c.pathOf u) ∧ Wrote content (c.placeFor d u) d d' := by
  rcases wrote : ArtifactCache.writeArtifact d (c.pathOf u) content with ⟨e | _, last⟩
  all_goals
    simp only [ArtifactCache.store, wrote] at stored
    cases stored
    have cases := writeArtifact_writes sound (ArtifactCache.plain_pathOf bare tidy plain) wrote
  · rcases cases with ⟨_, made⟩ | ⟨ok, _⟩
    · exact .inl ⟨⟨e, rfl⟩, made⟩
    · cases ok
  · rcases cases with ⟨⟨e, error⟩, _⟩ | ⟨_, writes⟩
    · cases error
    · rw [ArtifactCache.placeOf_pathOf bare tidy] at writes
      exact .inr ⟨rfl, writes⟩

/-- The file that an artifact is written to. -/
def Destination.path (plan : Plan) (u : UnitId) : Destination → Path
  | .cache => plan.cache.pathOf u
  | .beside path => path

/-- Where the path of a job's artifact leads. -/
def Job.target (plan : Plan) (d : Disk) (t : Job) : Place :=
  d.placeOf (t.goal.path plan t.candidate.unit)

/-- What a job stores is written where its artifact goes, or nothing is written. -/
theorem stored_at (proper : plan.Proper) (plain : plan.Plain before) {within : Place → Prop}
    (since : before.Changes within p.disk) (lawful : t.Lawful plan) {artifact : ByteArray}
    {result : Except CacheError Unit} {d : Disk}
    (stored : p.store plan t.candidate.unit t.goal artifact = (result, p.setDisk d)) :
    (∃ e, result = .error e) ∧ Changes (fun _ => False) p.disk d ∨
      result = .ok () ∧ t.Goes plan before (t.target plan before) ∧
        Wrote artifact (t.target plan before) p.disk d := by
  unfold Job.target
  cases goal : t.goal with
  | cache =>
    rw [goal] at stored
    rcases saved : plan.cache.store p.disk t.candidate.unit artifact with ⟨outcome, last⟩
    simp only [Pass.store, saved, Prod.mk.injEq] at stored
    obtain ⟨rfl, disk⟩ := stored
    have here : last = d := congrArg Pass.disk disk
    subst here
    have clear := since.plain (plain _ (.inl rfl))
    rcases store_writes proper.artifact lawful.tidy since.sound clear saved with
      ⟨⟨e, rfl⟩, made⟩ | ⟨rfl, writes⟩
    · exact .inl ⟨⟨e, rfl⟩, made⟩
    · rw [ArtifactCache.placeFor_congr since] at writes
      rw [Destination.path, ArtifactCache.placeOf_pathOf proper.artifact lawful.tidy]
      exact .inr ⟨rfl, .cached goal, writes⟩
  | beside path =>
    obtain ⟨root, known, generated, names, carries, source, here⟩ := lawful.beside path goal
    rw [here] at goal ⊢
    obtain ⟨front, name, head, old, rfl, parts, same⟩ := carries.extended
    rw [goal] at stored
    rcases wrote : ArtifactCache.writeArtifact p.disk
      (plan.besideSource (plan.roots.below root (front ++ [name])).path) artifact with ⟨outcome, last⟩
    simp only [Pass.store, wrote, Prod.mk.injEq] at stored
    obtain ⟨rfl, disk⟩ := stored
    have here : last = d := congrArg Pass.disk disk
    subst here
    have clear := since.plain (plain _ (.inr ⟨root, known, generated, rfl⟩))
    have target := withExtension_below proper.artifact carries.proper parts root.path
    rw [Plan.besideSource, Roots.path_below, target] at wrote
    rw [Destination.path, Plan.besideSource, Roots.path_below, target]
    split at wrote
    · obtain ⟨made, above, ⟨e, ends⟩ | ⟨_, _, written⟩⟩ :=
        ArtifactCache.writeArtifact_cases since.sound _ artifact
      · rw [ends] at wrote
        cases wrote
        exact .inl ⟨⟨e, rfl⟩, above⟩
      · exact absurd written (write_up made _ artifact)
    · have named := proper_beside proper.artifact carries.proper parts
      rw [if_neg (by assumption), placeOf_joinRelative named]
      rcases writeArtifact_writes since.sound (clear.join named) wrote with made | ⟨ok, writes⟩
      · exact .inl made
      · rw [placeOf_joinRelative named, since.placeOf] at writes
        exact .inr ⟨ok, .beside known generated carries.proper parts same source, writes⟩

theorem stored_cases (proper : plan.Proper) (plain : plan.Plain before) {within : Place → Prop}
    (since : before.Changes within p.disk) (lawful : t.Lawful plan) {artifact : ByteArray}
    {result : Except CacheError Unit} {d : Disk}
    (stored : p.store plan t.candidate.unit t.goal artifact = (result, p.setDisk d)) :
    (∃ e, result = .error e) ∧ Changes (fun _ => False) p.disk d ∨
      result = .ok () ∧ ∃ place, t.Goes plan before place ∧ Wrote artifact place p.disk d :=
  (stored_at proper plain since lawful stored).imp_right fun ⟨ok, goes, wrote⟩ =>
    ⟨ok, _, goes, wrote⟩

/-- Only a source is removed after a delivery. -/
theorem changes_removeSource (plain : plan.Plain before) {within : Place → Prop} {d : Disk}
    (since : before.Changes within d) (lawful : t.Lawful plan) :
    Changes (fun place => Carries plan.roots.ending place) d
      ((p.setDisk d).removeSource t.candidate.origin t.goal).disk := by
  cases goal : t.goal with
  | cache => exact .refl since.sound
  | beside path =>
    obtain ⟨root, known, generated, names, carries, source, _⟩ := lawful.beside path goal
    rw [source, Candidate.origin_ofSource]
    simp only [Pass.removeSource, Pass.setDisk]
    rcases removed : d.remove (plan.roots.below root names).path with fault | gone
    · exact .refl since.sound
    have clear : d.Plain (plan.roots.below root names).path :=
      (since.plain (plain _ (.inr ⟨root, known, generated, rfl⟩))).join carries.proper
    obtain ⟨drops, absent⟩ := changes_remove since.sound clear removed
    have here : d.placeOf (plan.roots.below root names).path = d.placeOf root.path ++ names :=
      placeOf_joinRelative carries.proper
    refine ⟨drops.sound, drops.here, drops.folders, drops.links, fun place => ?_⟩
    rcases drops.leaves place with same | rfl
    · exact .inl same
    by_cases there : d.entryAt (d.placeOf (plan.roots.below root names).path) = none
    · exact .inl (absent.trans (by simp [leafAt, there]))
    · right
      rw [here] at there ⊢
      exact carries.append (since.sound.names there)

theorem removals_removeSource (plain : plan.Plain before) {within : Place → Prop} {d : Disk}
    (since : before.Changes within d) (lawful : t.Lawful plan) :
    Removals d ((p.setDisk d).removeSource t.candidate.origin t.goal).disk := by
  cases goal : t.goal with
  | cache => exact .refl since.sound
  | beside path =>
    obtain ⟨root, known, generated, names, carries, source, _⟩ := lawful.beside path goal
    rw [source, Candidate.origin_ofSource]
    simp only [Pass.removeSource, Pass.setDisk]
    rcases removed : d.remove (plan.roots.below root names).path with fault | gone
    · exact .refl since.sound
    · have clear : d.Plain (plan.roots.below root names).path :=
        (since.plain (plain _ (.inr ⟨root, known, generated, rfl⟩))).join carries.proper
      exact removals_remove since.sound clear removed

/-- A pass after an artifact was stored. -/
def Pass.Delivered (p : Pass) (t : Job) (artifact : ByteArray) (d : Disk) : Pass :=
  { p.record t.candidate.unit t.candidate.origin artifact with
    disk := ((p.setDisk d).removeSource t.candidate.origin t.goal).disk
    log := p.log.addCompiled t.candidate.unit.logical t.candidate.name }

/-- What a move does to the disk: it makes folders at most, or it delivers an artifact. -/
theorem Frame.step {points : List String} {m next : Stage} (proper : plan.Proper)
    (plain : plan.Plain before) (quiet : plan.service.Quiet) (frame : Frame plan before m)
    (move : Move plan points m next) :
    Changes (fun _ => False) m.pass.disk next.pass.disk ∨
      ∃ t ts artifact place d, m.jobs = t :: ts ∧ t.Goes plan before place ∧
        Wrote artifact place m.pass.disk d ∧ next.pass = m.pass.Delivered t artifact d := by
  cases move with
  | @unread p c goal ts ss es e archives loaded => exact .inl (.refl frame.changes.sound)
  | replace loud => exact absurd quiet loud
  | @deliver p c goal s ts ss es artifact ends =>
    have lawful := frame.jobs ⟨c, goal, some s⟩ (by simp)
    rcases p.deliver_cases plan c goal artifact with ⟨e, d, stored, delivered⟩ | ⟨d, stored, delivered⟩
    · rcases stored_cases proper plain frame.changes lawful stored with ⟨_, made⟩ | ⟨ok, _⟩
      · left
        rw [delivered]
        exact made
      · cases ok
    · rcases stored_cases proper plain frame.changes lawful stored with
        ⟨⟨e, error⟩, _⟩ | ⟨_, place, goes, wrote⟩
      · cases error
      · exact .inr ⟨_, ts, artifact, place, d, rfl, goes, wrote, delivered⟩
  | _ => exact .inl (.refl frame.changes.sound)

/-- The folder of generated sources is the cache folder or lies apart from it. -/
def Layout.Homed (l : Layout) (d : Disk) : Prop :=
  ∀ front back, d.placeOf l.generated ++ front = d.placeOf l.cache ++ back → front = back

namespace Builder

variable {b : Builder} {env : Environment} {cancel : Cancel}

theorem plan_homed {d : Disk} (homed : b.layout.Homed d) : (b.plan env cancel).Homed d := by
  intro root member generated front back same
  have known := Roots.mem_ofPaths member
  rw [if_pos generated] at known
  rw [← Option.some.inj known] at same
  exact homed front back same

theorem plan_plain {d : Disk} (plain : b.layout.Plain d) : (b.plan env cancel).Plain d := by
  intro folder output
  rcases isOutput_plan output with same | same
  · exact plain folder (by simp [same])
  · exact plain folder (by simp [same])

end Builder

end LayerCache
