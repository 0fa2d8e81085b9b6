import LayerCache.Proofs.Build.Records
import LayerCache.Proofs.Spelling

/-! What is compiled beside its source. Next to a source, under its name with the other extension, is
where a cache in the folder of the root keeps the artifact of the unit. So where generated sources are
kept in the cache, an artifact that was put beside one is the artifact that the cache has. -/
namespace LayerCache

open Disk

namespace Path

variable {p q relative folder : Path} {name stem old ending : String} {names front : List String}

/-- The pieces that lead somewhere from where a path starts. -/
def parts (p : Path) : List String := p.pieces.filter fun piece => piece ≠ "" ∧ piece ≠ "."

/-- Two paths start from the same, with or without a `.` in front, and go through the same parts. -/
structure Alike (p q : Path) : Prop where
  start : p.isAbsolute = q.isAbsolute
  here : p.pieces.head? = some "." ↔ q.pieces.head? = some "."
  parts : p.parts = q.parts

/-- A relative path of some names, with anything that leads nowhere between and behind them. -/
structure ConsistsOf (names : List String) (p : Path) : Prop where
  relative : p.isAbsolute = false
  here : p.pieces.head? ≠ some "."
  parts : p.parts = names

theorem consistsOf_relativePath (proper : ∀ n ∈ names, IsName n) (filled : names ≠ []) :
    (relativePath names).ConsistsOf names := by
  have pieces := pieces_relativePath proper filled
  refine ⟨relative_of_names proper, ?_, ?_⟩
  · rw [pieces]
    intro first
    exact (proper "." (List.mem_of_head? first)).inside rfl
  · rw [parts, pieces]
    exact List.filter_eq_self.mpr fun n member => by
      simpa using ⟨(proper n member).filled, (proper n member).inside⟩

/-- A path taken apart at its last name. -/
theorem ConsistsOf.split (consists : relative.ConsistsOf (front ++ [name])) :
    ∃ before tail, relative.pieces = before ++ [name] ++ tail ∧
      (before.filter fun piece => piece ≠ "" ∧ piece ≠ ".") = front ∧ Text.AreVoid tail := by
  obtain ⟨before, rest, cut, fronts, last⟩ := List.filter_eq_append_iff.mp consists.parts
  obtain ⟨void, tail, rfl, voids, _, none⟩ := List.filter_eq_cons_iff.mp last
  refine ⟨before ++ void, tail, by simp [cut], ?_, ?_⟩
  · rw [List.filter_append, fronts, List.filter_eq_nil_iff.mpr voids, List.append_nil]
  · intro piece member
    simpa [or_iff_not_imp_left] using List.filter_eq_nil_iff.mp none piece member

/-- Paths of the same names lead on alike from a folder. -/
theorem alike_join (one : p.ConsistsOf names) (other : q.ConsistsOf names) (folder : Path) :
    (folder.join p).Alike (folder.join q) := by
  obtain ⟨lead, cuts⟩ := folder.pieces_lead_append
  have pieces_join : ∀ {r : Path}, r.ConsistsOf names → (folder.join r).pieces = lead ++ r.pieces := by
    intro r consists
    rw [join_eq consists.relative, cuts, pieces]
  refine ⟨by rw [isAbsolute_join one.relative, isAbsolute_join other.relative], ?_, ?_⟩
  · rw [pieces_join one, pieces_join other]
    rcases lead with _ | ⟨first, rest⟩
    · simp [one.here, other.here]
    · simp
  · simp only [parts, pieces_join one, pieces_join other, List.filter_append]
    exact congrArg _ (one.parts.trans other.parts.symm)

/-- With another extension a path goes on from a folder by names that differ in the last alone. -/
theorem withExtension_join (consists : relative.ConsistsOf (front ++ [name]))
    (proper : ∀ n ∈ front ++ [name], IsName n) (dotted : Extends name stem old) (inside : stem ≠ ".")
    (bare : IsBare ending) (folder : Path) : ∃ next, next.ConsistsOf (front ++ [stem ++ "." ++ ending]) ∧
      (folder.join relative).withExtension ending = folder.join next := by
  obtain ⟨before, tail, cut, fronts, void⟩ := consists.split
  have last := proper_beside bare proper dotted (stem ++ "." ++ ending) (by simp)
  have pieces_next : (ofPieces (before ++ [stem ++ "." ++ ending])).pieces =
      before ++ [stem ++ "." ++ ending] := by
    refine Text.split_join (by simp) fun piece member => ?_
    rcases List.mem_append.mp member with ahead | here
    · have own : piece ∈ relative.pieces := by simp [cut, ahead]
      exact Text.not_mem_of_mem_split own
    · rw [List.mem_singleton.mp here]
      exact last.bare
  have next : (ofPieces (before ++ [stem ++ "." ++ ending])).ConsistsOf
      (front ++ [stem ++ "." ++ ending]) := by
    constructor
    · rw [← Bool.not_eq_true, isAbsolute_iff, pieces_next]
      rintro ⟨second, more, absolute⟩
      rcases before with _ | ⟨first, rest⟩
      · exact last.filled (List.cons.inj absolute).1
      · have own : relative.isAbsolute = true := by
          obtain ⟨rfl, _⟩ := List.cons.inj absolute
          rcases rest with _ | ⟨_, _⟩
          all_goals exact isAbsolute_iff.mpr ⟨_, _, cut⟩
        rw [consists.relative] at own
        cases own
    · rw [pieces_next]
      rcases before with _ | ⟨first, rest⟩
      · simpa using last.inside
      · simpa [cut] using consists.here
    · rw [parts, pieces_next, List.filter_append, fronts]
      simp [last.filled, last.inside]
  refine ⟨_, next, ?_⟩
  obtain ⟨lead, cuts⟩ := folder.pieces_lead_append
  have whole : (folder.join relative).pieces = lead ++ before ++ [name] ++ tail := by
    rw [join_eq consists.relative, cuts, ← pieces, cut]
    simp
  rw [withExtension_of_void whole void (proper name (by simp)) dotted inside, if_neg bare.filled,
    ← ofPieces_pieces (folder.join _), join_eq next.relative, cuts, ← pieces, pieces_next,
    List.append_assoc]

end Path

namespace UnitId

variable {relative : Path} {name stem old ending : String} {front : List String}

/-- The unit of a path is made of its names, without the extension of the last. -/
theorem segments_ofRelative_of_consists (consists : relative.ConsistsOf (front ++ [stem ++ "." ++ old]))
    (proper : ∀ n ∈ front ++ [stem ++ "." ++ old], IsSegment n) (filled : stem ≠ "")
    (same : Text.sameIgnoringCase old ending = true) :
    (ofRelative relative ending).segments = front ++ [stem] := by
  have straight : '\\' ∉ relative.text.toList := by
    rw [← Text.join_split relative.text]
    intro member
    rcases Text.mem_join member with slash | ⟨piece, known, there⟩
    · exact absurd slash (by decide)
    by_cases leads : piece ≠ "" ∧ piece ≠ "."
    · have part : piece ∈ relative.parts := List.mem_filter.mpr ⟨known, by simpa using leads⟩
      rw [consists.parts] at part
      exact (proper piece part).straight there
    · rcases or_iff_not_and_not.mpr leads with rfl | rfl
      all_goals exact absurd there (by decide)
  have segments : segmentsOf relative.text = front ++ [stem ++ "." ++ old] := by
    rw [segmentsOf, Text.slashes_of_straight straight]
    exact consists.parts
  exact segments_of_extended segments (segments.symm ▸ not_climbing proper) same filled

/-- A name that climbs is not read as one. -/
theorem isEmpty_of_climbing {u : UnitId} (straight : u.Straight) (climbs : ".." ∈ u.segments) :
    (ofSymbol u.logical).isEmpty = true := by
  have segments : ".." ∈ segmentsOf u.logical := by
    rw [segmentsOf, Text.slashes_of_straight straight]
    exact List.mem_filter.mpr ⟨climbs, by decide⟩
  rw [ofSymbol, logicalName_of_climbing segments]
  rfl

end UnitId

/-- Sources that a pass comes to below a root: those of the sweep, and those found for a symbol. -/
inductive Plan.Finds (plan : Plan) (d : Disk) (root : SourceRoot) (f : SourceFile) : Prop where
  | swept (listed : f ∈ plan.roots.sweep d root)
  | asked (symbol : String) (found : plan.roots.resolve d (.ofSymbol symbol) = some f)
      (here : f.rank = root.rank)

/-- A root of generated sources that is the folder of the cache. -/
structure Plan.KeepsIn (plan : Plan) (root : SourceRoot) : Prop where
  known : root ∈ plan.roots.roots
  generated : root.generated = true
  path : root.path = plan.cache.folder

section

variable {plan : Plan} {root : SourceRoot} {f : SourceFile} {d : Disk} {p : Pass} {u : UnitId}
  {names front : List String} {stem old : String} {content : ByteArray}

theorem Plan.Finds.below (finds : plan.Finds d root f) (proper : plan.Proper)
    (known : root ∈ plan.roots.roots) (sound : d.Sound) :
    ∃ names, Carries plan.roots.ending names ∧ f = plan.roots.below root names := by
  cases finds with
  | swept listed =>
    obtain ⟨_, names, _, carries, _, same⟩ := (Roots.mem_sweep sound).mp listed
    exact ⟨names, carries, same⟩
  | asked symbol found here =>
    have named : (UnitId.ofSymbol symbol).isEmpty = false := by
      rw [← Bool.not_eq_true]
      intro empty
      simp [Roots.resolve, empty] at found
    obtain ⟨other, member, names, _, carries, rfl⟩ := Roots.resolve_spec sound
      (UnitId.tidy_ofSymbol symbol) proper.source (UnitId.filled_of_ofSymbol named) found
    obtain rfl := proper.ranks other member root known here
    exact ⟨names, carries, rfl⟩

theorem Plan.KeepsIn.destination (keeps : plan.KeepsIn root) (path : Path) :
    plan.destination (.root root.rank path) = .beside (plan.besideSource path) :=
  Plan.destination_generated keeps.known keeps.generated path

/-- What is stored beside a source at the path of the artifact is stored as in the cache. -/
theorem Pass.store_beside (plan : Plan) (p : Pass) (u : UnitId) (content : ByteArray) :
    p.store plan u (.beside (plan.cache.pathOf u)) content = p.store plan u .cache content := by
  rcases written : ArtifactCache.writeArtifact p.disk (plan.cache.pathOf u) content with ⟨e | _, after⟩
  all_goals simp [Pass.store, ArtifactCache.store, written, Except.map]

/-- The check of a record looks at the artifact of the unit, unless the name of the unit climbs. -/
theorem Pass.stillHolds_of_segments (segments : u.segments = front ++ [stem])
    (proper : ∀ n ∈ front, IsName n) (filled : stem ≠ "") (inside : stem ≠ ".")
    (straight : u.Straight) (plan : Plan) (p : Pass) (r : ArtifactRecord) :
    p.stillHolds plan u.logical r = (decide (stem ≠ "..") && (!p.tracker.has u &&
      (plan.cache.read p.disk u).any fun artifact => Digest.ofContent artifact == r.checksum)) := by
  by_cases climbs : stem = ".."
  · have empty := UnitId.isEmpty_of_climbing straight (by simp [segments, climbs])
    simp [Pass.stillHolds, empty, climbs]
  · have clean : u.Clean := by
      refine ⟨fun segment member => ?_, straight⟩
      have bare := UnitId.bare_of_mem_segments member
      rw [segments] at member
      rcases List.mem_append.mp member with before | last
      · exact proper segment before
      · obtain rfl := List.mem_singleton.mp last
        exact ⟨filled, inside, climbs, bare⟩
    simp [Pass.stillHolds, clean.ofSymbol_logical, clean.isEmpty, climbs]

/-- No source has the name of an artifact. -/
theorem fileNames_ne_of_carries {ending other : String} (bare : IsBare other)
    (differ : Text.sameIgnoringCase ending other = false) (carries : Carries ending names)
    (u : UnitId) : UnitId.fileNames other u.segments ≠ names := by
  obtain ⟨front, name, head, old, rfl, parts, same⟩ := carries.extended
  obtain ⟨before, last, _, file⟩ := u.fileNames_eq other
  intro equal
  rw [file] at equal
  have lasts := List.singleton_inj.mp (List.append_inj' equal rfl).2
  obtain ⟨_, rfl⟩ := lastDot_unique parts.1 parts.2.2 lasts.symm bare.dotless
  rw [Text.sameIgnoringCase_iff] at same
  rw [Text.sameIgnoringCase, same] at differ
  simp at differ

/-- An artifact that was put beside its source is there for the cache when the source is gone. -/
theorem Pass.stat_deliver (proper : plan.Proper) (keeps : plan.KeepsIn root)
    (carries : Carries plan.roots.ending names) (same : f = plan.roots.below root names)
    (sound : p.disk.Sound) (plain : p.disk.Plain plan.cache.folder)
    (stores : ∀ device, p.disk.entryAt (p.disk.placeOf (plan.cache.pathOf f.unit)) ≠
      some (.device device))
    (stored : (p.store plan f.unit .cache content).1 = .ok ()) : ∃ serial,
      (p.deliver plan (.ofSource f) (.beside (plan.cache.pathOf f.unit)) content).disk.stat
        (plan.cache.pathOf f.unit) =
          .ok (p.disk.placeOf (plan.cache.pathOf f.unit), .file serial content) := by
  have tidy : f.unit.Tidy := same ▸ UnitId.tidy_ofRelative _ _
  have clear := ArtifactCache.plain_pathOf (c := plan.cache) proper.artifact tidy plain
  obtain ⟨made, above, written⟩ :=
    ArtifactCache.writeArtifact_cases sound (plan.cache.pathOf f.unit) content
  rcases p.deliver_cases plan (.ofSource f) (.beside (plan.cache.pathOf f.unit)) content with
    ⟨e, d, fails, _⟩ | ⟨d, done, delivered⟩
  · rw [Candidate.unit_ofSource] at fails
    rw [← Pass.store_beside, fails] at stored
    cases stored
  rcases written with ⟨e, ends⟩ | ⟨after, ends, write⟩
  · simp [Pass.store, ends] at done
  have here : after = d := by simpa [Pass.store, ends, Pass.setDisk] using done
  subst here
  have stores' : ∀ device, made.entryAt (made.placeOf (plan.cache.pathOf f.unit)) ≠
      some (.device device) := by
    intro device there
    rw [above.placeOf, ← leafAt_eq_some (by simp), (above.leaves _).resolve_right id,
      leafAt_eq_some (by simp)] at there
    exact stores device there
  obtain ⟨serial, found⟩ := stat_write above.sound (above.plain clear) stores' write
  rw [above.placeOf] at found
  have change : Changes (fun _ => True) p.disk after := (above.mono fun _ no => no.elim).trans
    ((changes_write above.sound (above.plain clear) write).changes.mono fun _ _ => trivial)
  refine ⟨serial, ?_⟩
  rw [delivered, Candidate.origin_ofSource]
  simp only [Pass.removeSource, Pass.setDisk]
  rcases removed : after.remove f.path with fault | gone
  · exact found
  have source : after.Plain f.path := by
    rw [same, Roots.path_below, keeps.path]
    exact (change.plain plain).join carries.proper
  obtain ⟨drops, _⟩ := changes_remove change.sound source removed
  refine drops.stat_same change.sound (change.plain clear) found (by simp)
    ((drops.leaves _).resolve_right fun there => ?_)
  rw [ArtifactCache.placeOf_pathOf proper.artifact tidy, same, Roots.path_below, keeps.path,
    placeOf_joinRelative carries.proper] at there
  exact fileNames_ne_of_carries proper.artifact proper.differ carries _ (List.append_cancel_left there)

theorem ArtifactCache.pathOf_of_segments {c : ArtifactCache} (bare : IsBare c.ending) (tidy : u.Tidy)
    (segments : u.segments = front ++ [stem]) :
    c.pathOf u = c.folder.join (relativePath (front ++ [stem ++ "." ++ c.ending])) := by
  rw [pathOf, tidy.pathIn_eq bare, segments, UnitId.fileNames_concat]

end

section

variable {folder relative : Path} {source artifact stem old : String} {front : List String}

/-- A source lies beside the place its unit has in a cache in the same folder, whatever the path of the
source puts between its names. What is found under a generated root in the cache folder is stored at
that very path, and there the cache looks for it; the check of its record does so as well, unless the
name of the unit climbs. -/
theorem beside_is_cached (bare : IsBare source) (clean : IsBare artifact)
    (consists : relative.ConsistsOf (front ++ [stem ++ "." ++ old]))
    (proper : ∀ n ∈ front ++ [stem ++ "." ++ old], IsSegment n)
    (same : Text.sameIgnoringCase old source = true) (filled : stem ≠ "") (inside : stem ≠ ".") :
    ((folder.join relative).withExtension artifact).Alike
      (ArtifactCache.pathOf ⟨folder, artifact⟩ (.ofRelative relative source)) ∧
    ∀ plan : Plan, plan.Proper → plan.roots.ending = source → plan.cache = ⟨folder, artifact⟩ →
      ∀ root, plan.KeepsIn root → ∀ d : Disk, d.Sound → ∀ f, plan.Finds d root f →
      f.relative = relative →
      plan.destination (.root f.rank f.path) = .beside (plan.besideSource f.path) ∧
      plan.besideSource f.path = plan.cache.pathOf f.unit ∧
      (∀ (p : Pass) content, p.store plan f.unit (.beside (plan.besideSource f.path)) content =
        p.store plan f.unit .cache content) ∧
      (∀ d, plan.cache.contains d f.unit = d.isFile (plan.besideSource f.path) ∧
        plan.cache.read d f.unit = (d.read (plan.besideSource f.path)).toOption ∧
        plan.cache.invalidate d f.unit = ArtifactCache.removeIfThere d (plan.besideSource f.path)) ∧
      (∀ (p : Pass) r, p.stillHolds plan f.unit.logical r = (decide (stem ≠ "..") &&
        (!p.tracker.has f.unit && (p.disk.read (plan.besideSource f.path)).toOption.any
          fun content => Digest.ofContent content == r.checksum))) ∧
      ∀ (p : Pass) content, p.disk.Sound → p.disk.Plain folder →
        (∀ device, p.disk.entryAt (p.disk.placeOf (plan.besideSource f.path)) ≠
          some (.device device)) →
        (p.store plan f.unit .cache content).1 = .ok () →
        let q := p.deliver plan (.ofSource f) (.beside (plan.besideSource f.path)) content
        plan.cache.contains q.disk f.unit = true ∧ plan.cache.read q.disk f.unit = some content ∧
        ∀ later : Pass, later.disk = q.disk → later.tracker.has f.unit = false → ∀ r,
          r.checksum = .ofContent content →
          later.stillHolds plan f.unit.logical r = decide (stem ≠ "..") := by
  have named : ∀ n ∈ front ++ [stem ++ "." ++ old], IsName n :=
    fun n member => (proper n member).toIsName
  have dotless : '.' ∉ old.toList := by
    rw [← Text.mem_lower (by decide) (by decide), Text.sameIgnoringCase_iff.mp same,
      Text.mem_lower (by decide) (by decide)]
    exact bare.dotless
  have parts : Path.Extends (stem ++ "." ++ old) stem old := ⟨rfl, filled, dotless⟩
  have segments := UnitId.segments_ofRelative_of_consists consists proper filled same
  have tidy := UnitId.tidy_ofRelative relative source
  constructor
  · obtain ⟨next, goesOn, beside⟩ := Path.withExtension_join consists named parts inside clean folder
    have beyond := proper_beside clean named parts
    rw [beside, ArtifactCache.pathOf_of_segments (c := ⟨folder, artifact⟩) clean tidy segments]
    exact Path.alike_join goesOn (Path.consistsOf_relativePath beyond (by simp)) folder
  intro plan accepted ending cache root keeps d sound f finds path
  obtain ⟨names, carries, rfl⟩ := finds.below accepted keeps.known sound
  have unit : (plan.roots.below root names).unit = .ofRelative relative source := by
    rw [← path, ← ending]
    rfl
  obtain rfl : names = front ++ [stem ++ "." ++ old] := by
    rw [← consists.parts, ← path]
    exact (Path.consistsOf_relativePath carries.proper carries.filled).parts.symm
  have beside : plan.besideSource (plan.roots.below root (front ++ [stem ++ "." ++ old])).path =
      plan.cache.pathOf (plan.roots.below root (front ++ [stem ++ "." ++ old])).unit := by
    rw [Plan.besideSource, Roots.path_below, keeps.path, unit,
      withExtension_below accepted.artifact named parts, if_neg inside,
      ArtifactCache.pathOf_of_segments accepted.artifact tidy segments]
  rw [← unit] at segments
  have straight : (plan.roots.below root (front ++ [stem ++ "." ++ old])).unit.Straight :=
    UnitId.straight_ofRelative _ _
  have check := Pass.stillHolds_of_segments segments (fun n member => named n (by simp [member]))
    filled inside straight plan
  refine ⟨keeps.destination _, beside, fun p content => ?_, fun d => ?_, fun p r => ?_, ?_⟩
  · rw [beside, Pass.store_beside]
  · rw [beside]
    exact ⟨rfl, rfl, rfl⟩
  · rw [beside]
    exact check p r
  · intro p content soundP plainP stores stored q
    rw [beside] at stores
    obtain ⟨serial, found⟩ := Pass.stat_deliver accepted keeps carries rfl soundP
      (by rw [cache]; exact plainP) stores stored
    rw [← beside] at found
    have read : plan.cache.read q.disk (plan.roots.below root (front ++ [stem ++ "." ++ old])).unit =
        some content := by
      rw [ArtifactCache.read, ← beside, Disk.read, found]
      rfl
    refine ⟨?_, read, fun later disk untracked r checksum => ?_⟩
    · rw [ArtifactCache.contains, ← beside, Disk.isFile, found]
    · rw [check, disk, read, untracked, checksum]
      simp

end

namespace Builder

def mixedSite : Site := siteOf [("/p/gen/app/Gen.v1.PHP", "gen")]

/-- Dots in the name, an extension in capitals, and a path with pieces that lead nowhere. -/
theorem beside_is_cached_mixed :
    ((Path.join ⟨"/p//gen/"⟩ ⟨"app/.//Gen.v1.PHP/./"⟩).withExtension "phb").Alike
      (ArtifactCache.pathOf ⟨⟨"/p//gen/"⟩, "phb"⟩ (.ofRelative ⟨"app/.//Gen.v1.PHP/./"⟩ "php")) ∧
    (Path.join ⟨"/p//gen/"⟩ ⟨"app/.//Gen.v1.PHP/./"⟩).withExtension "phb" =
      ⟨"/p//gen/app/.//Gen.v1.phb"⟩ ∧
    ∃ f, (sample.plan .prod .never).roots.resolve mixedSite.disk (.ofSymbol "APP\\gen.V1") = some f ∧
      f.path = ⟨"/p/gen/app/Gen.v1.PHP"⟩ ∧
      (sample.plan .prod .never).destination (.root f.rank f.path) = .beside ⟨"/p/gen/app/Gen.v1.phb"⟩ ∧
      sample.cache.pathOf f.unit = ⟨"/p/gen/app/Gen.v1.phb"⟩ := by
  have bare : IsBare "php" := by constructor <;> decide
  have clean : IsBare "phb" := by constructor <;> decide
  have proper : ∀ n ∈ ["app"] ++ ["Gen.v1" ++ "." ++ "PHP"], IsSegment n := by decide
  have messy : Path.ConsistsOf (["app"] ++ ["Gen.v1" ++ "." ++ "PHP"]) ⟨"app/.//Gen.v1.PHP/./"⟩ := by
    constructor <;> decide
  have walked : Path.ConsistsOf (["app"] ++ ["Gen.v1" ++ "." ++ "PHP"]) ⟨"app/Gen.v1.PHP"⟩ := by
    constructor <;> decide
  refine ⟨(beside_is_cached bare clean messy proper (by decide) (by decide) (by decide)).1,
    by decide +kernel, ?_⟩
  have accepted : sampleConfig.check = .ok () := by decide +kernel
  obtain ⟨source, artifact, differ⟩ := sampleConfig.extensions_of_check accepted
  have found : ((sample.plan .prod .never).roots.resolve mixedSite.disk
      (.ofSymbol "APP\\gen.V1")).map (fun f => (f.rank, f.path, f.relative)) =
        some (0, ⟨"/p/gen/app/Gen.v1.PHP"⟩, ⟨"app/Gen.v1.PHP"⟩) := by decide +kernel
  obtain ⟨f, resolved, told⟩ := Option.map_eq_some_iff.mp found
  simp only [Prod.mk.injEq] at told
  obtain ⟨rank, path, relative⟩ := told
  have keeps : (sample.plan .prod .never).KeepsIn ⟨⟨"/p/gen"⟩, 0, true⟩ :=
    ⟨by decide +kernel, rfl, by decide +kernel⟩
  obtain ⟨goal, beside, _⟩ := (beside_is_cached bare clean walked proper (by decide) (by decide)
    (by decide)).2 (sample.plan .prod .never) (plan_proper source artifact differ) rfl rfl _ keeps
    mixedSite.disk (sound_siteOf _) f (.asked _ resolved rank) relative
  have target : (sample.plan .prod .never).besideSource ⟨"/p/gen/app/Gen.v1.PHP"⟩ =
      ⟨"/p/gen/app/Gen.v1.phb"⟩ := by decide +kernel
  rw [path, target] at goal beside
  exact ⟨f, resolved, path, path ▸ goal, beside.symm⟩

/-- A generated source of which nothing but two dots is left without the extension. -/
def climbingSite : Site := siteOf [("/p/gen/...php", "gen")]

/-- It was compiled once. -/
def climbedSite : Site := (sample.compile .prod true .never climbingSite).2

/-- The second build reads the artifact and has its record, but the record is dropped. -/
theorem compile_forgets_beside : sampleConfig.check = .ok () ∧
    sample.layout.cache = sample.layout.generated ∧
    ∃ m r, Manifest.load climbedSite.disk sample.layout.cache = .ok (some m) ∧
      m.units.find? ".." = some r ∧
      let plan := sample.plan .prod .never
      let p := sample.settled .prod true .never climbedSite
      let u := UnitId.ofRelative ⟨"...php"⟩ "php"
      u.logical = ".." ∧ plan.besideSource ⟨"/p/gen/...php"⟩ = plan.cache.pathOf u ∧
      p.tracker.has u = false ∧ plan.cache.contains p.disk u = true ∧
      (plan.cache.read p.disk u).map Digest.ofContent = some r.checksum ∧
      p.stillHolds plan u.logical r = false ∧
      (p.carryOver plan (some m)).manifest.units.find? u.logical = none := by
  have accepted : sampleConfig.check = .ok () := by decide +kernel
  obtain ⟨source, artifact, differ⟩ := sampleConfig.extensions_of_check accepted
  -- What the first build leaves, and what the second makes of it.
  have seen : (((sample.settled .prod true .never climbingSite).disk.entryAt
        ((sample.settled .prod true .never climbingSite).disk.placeOf sample.layout.cache ++
          [Manifest.fileName])).isNone = true ∧
      ((sample.filled .prod true .never climbingSite).save
        (sample.settled .prod true .never climbingSite).disk sample.layout.cache).1.toOption =
          some () ∧
      ((sample.filled .prod true .never climbingSite).units.find? "..").isSome = true ∧
      (sample.cache.ensureFolder climbingSite.disk).1.toOption = some ()) ∧
      ((sample.plan .prod .never).cache.read (sample.settled .prod true .never climbedSite).disk
        (.ofRelative ⟨"...php"⟩ "php")).map Digest.ofContent =
          ((sample.filled .prod true .never climbingSite).units.find? "..").map (·.checksum) ∧
      (sample.settled .prod true .never climbedSite).tracker.has (.ofRelative ⟨"...php"⟩ "php") = false ∧
      (sample.plan .prod .never).cache.contains (sample.settled .prod true .never climbedSite).disk
        (.ofRelative ⟨"...php"⟩ "php") = true ∧
      ((sample.settled .prod true .never climbedSite).carryOver (sample.plan .prod .never)
        (some (sample.filled .prod true .never climbingSite))).manifest.units.find? ".." = none := by
    decide +kernel
  obtain ⟨⟨free, saved, recorded, opened⟩, same, untracked, there, forgotten⟩ := seen
  obtain ⟨r, found⟩ := Option.isSome_iff_exists.mp recorded
  obtain ⟨summary, s', built, ran, _⟩ :=
    @compile_runs sample .prod true .never climbingSite rfl opened
  have site : climbedSite = s' := by rw [climbedSite, built]
  have sound : climbingSite.disk.Sound := sound_siteOf _
  have plain : sample.layout.Plain climbingSite.disk := fun folder _ => plain_siteOf _ folder
  have proper : (sample.plan .prod .never).Proper := plan_proper source artifact differ
  have quiet : sample.service.Quiet := quiet_scripted
  have stores : ∀ device, (sample.settled .prod true .never climbingSite).disk.entryAt
      ((sample.settled .prod true .never climbingSite).disk.placeOf sample.layout.cache ++
        [Manifest.fileName]) ≠ some (.device device) := by
    rw [Option.isNone_iff_eq_none.mp free]
    simp
  have loaded := compile_loads proper quiet sound plain stores built ran (ok_of_toOption saved)
  have dropped : ∀ r, (sample.settled .prod true .never climbedSite).stillHolds
      (sample.plan .prod .never) ".." r = false := by
    have empty : (UnitId.ofSymbol "..").isEmpty = true := by decide
    intro r
    simp only [Pass.stillHolds, empty, Bool.not_true, Bool.false_and]
  have logical : (UnitId.ofRelative ⟨"...php"⟩ "php").logical = ".." := by decide
  refine ⟨accepted, by decide +kernel, _, r, site ▸ loaded, found, ?_⟩
  intro plan p u
  rw [show u.logical = ".." from logical]
  refine ⟨rfl, by decide +kernel, untracked, there, ?_, dropped r, forgotten⟩
  rw [same, found, Option.map_some]

end Builder
end LayerCache
