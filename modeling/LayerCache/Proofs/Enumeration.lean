import LayerCache.Proofs.Lookup

/-! Listing the roots and looking into them. What a sweep lists can be opened by its path unless that
is longer than the system takes, so a unit is found just where a sweep lists a file of it. -/
namespace LayerCache

namespace Path

variable {name : String} {names : List String}

theorem size_joinName (proper : IsName name) (p : Path) :
    p.text.utf8ByteSize < (p.joinName name).text.utf8ByteSize := by
  have some : name.utf8ByteSize ≠ 0 := fun none => proper.filled (String.utf8ByteSize_eq_zero_iff.mp none)
  have lead : p.text.utf8ByteSize ≤ p.lead.utf8ByteSize := by
    rw [Path.lead]
    split
    · exact Nat.le_refl _
    · rw [String.utf8ByteSize_append]
      exact Nat.le_add_right ..
  rw [joinName_eq proper, String.utf8ByteSize_append]
  omega

/-- Every name makes a path longer. -/
theorem size_joinNames (filled : names ≠ []) (proper : ∀ name ∈ names, IsName name) (p : Path) :
    p.text.utf8ByteSize < (names.foldl joinName p).text.utf8ByteSize := by
  induction names generalizing p with
  | nil => exact absurd rfl filled
  | cons name rest ih =>
    have first := size_joinName (proper name (by simp)) p
    rcases rest with _ | ⟨next, more⟩
    · exact first
    · exact first.trans (ih (by simp) (fun n member => proper n (by simp [member])) _)

/-- A name with slashes in front. -/
def slashed (count : Nat) (name : String) : Path :=
  ⟨String.ofList (List.replicate count '/') ++ name⟩

theorem names_slashed (proper : IsName name) (count : Nat) : (slashed (count + 1) name).names = [name] := by
  have none : Path.names ⟨String.ofList (List.replicate count '/')⟩ = [] := by
    refine List.eq_nil_iff_forall_not_mem.mpr fun piece member => ?_
    obtain ⟨filled, bare⟩ := mem_names member
    obtain ⟨c, cs, text⟩ := List.exists_cons_of_ne_nil fun none => filled (String.toList_inj.mp none)
    have inside := Text.mem_of_mem_split (List.mem_of_mem_filter member) (text ▸ List.mem_cons_self)
    have slash : c = '/' := by simpa using (List.mem_replicate.mp (by simpa using inside)).2
    exact bare (by simp [text, slash])
  have text : (slashed (count + 1) name).text.toList =
      (String.ofList (List.replicate count '/')).toList ++ '/' :: name.toList := by
    simp [slashed, List.replicate_succ']
  rw [names_of_toList text, none, names_of_isName proper]
  rfl

theorem size_slashed (count : Nat) (name : String) :
    (slashed count name).text.utf8ByteSize = count + name.utf8ByteSize := by
  rw [slashed, String.utf8ByteSize_append]
  congr 1
  induction count with
  | zero => rfl
  | succ count ih =>
    rw [List.replicate_succ, String.ofList_cons, String.utf8ByteSize_append, ih, Nat.add_comm]
    rfl

end Path

namespace Disk

variable {d : Disk} {p : Path} {names : List String}

/-- What the system asks of the text of a path. -/
theorem checkText_iff : checkText p = .ok () ↔
    Char.ofNat 0 ∉ p.text.toList ∧ p.text ≠ "" ∧ p.text.utf8ByteSize ≤ longestPath := by
  by_cases whole : Char.ofNat 0 ∈ p.text.toList
  · simp [checkText, whole]
  by_cases empty : p.text = ""
  · simp [checkText, empty]
  by_cases long : longestPath < p.text.utf8ByteSize
  · simp [checkText, whole, empty, long]
  · simp [checkText, whole, empty, long, Nat.le_of_not_lt long]

theorem checkText_of_stat {place : Place} {entry : Entry} (found : d.stat p = .ok (place, entry)) :
    Char.ofNat 0 ∉ p.text.toList ∧ p.text ≠ "" ∧ p.text.utf8ByteSize ≤ longestPath :=
  checkText_iff.mp (findFrom_eq (stat_find found)).1

/-- Slashes in front of a name but the first lead nowhere. -/
theorem stat_slashed (d : Disk) {name : String} (proper : IsName name)
    (storable : Char.ofNat 0 ∉ name.toList) {count : Nat} (short : count + 1 + name.utf8ByteSize ≤ longestPath) :
    d.stat (Path.slashed (count + 1) name) = d.stat (Path.slashed 1 name) := by
  have checked : ∀ n, n + 1 + name.utf8ByteSize ≤ longestPath →
      checkText (Path.slashed (n + 1) name) = .ok () := by
    intro n fits
    have whole : Char.ofNat 0 ∉ (Path.slashed (n + 1) name).text.toList := by
      simp only [Path.slashed, String.toList_append, String.toList_ofList, List.mem_append,
        List.mem_replicate, not_or]
      exact ⟨fun zero => absurd zero.2 (by decide), storable⟩
    have text : (Path.slashed (n + 1) name).text ≠ "" := by
      simp [Path.slashed, proper.filled]
    exact checkText_iff.mpr ⟨whole, text, by rw [Path.size_slashed]; omega⟩
  have steps : ∀ n, (Path.slashed (n + 1) name).steps = [name] := by
    intro n
    have closed : (Path.slashed (n + 1) name).asksForFolder = false := by
      obtain ⟨before, c, text⟩ := (List.eq_nil_or_concat name.toList).resolve_left
        fun none => proper.filled (String.toList_inj.mp none)
      have other : c ≠ '/' := fun same => proper.bare (by simp [text, same])
      simp [Path.asksForFolder, Path.slashed, text, other]
    rw [Path.steps, closed, Bool.false_and, if_neg Bool.false_ne_true, Path.names_slashed proper]
  have absolute : ∀ n, (Path.slashed (n + 1) name).isAbsolute = true := by
    intro n
    simp [Path.isAbsolute, Path.slashed, List.replicate_succ]
  simp only [stat, find, findFrom, checked count short, checked 0 (by omega), steps, absolute]

/-- A name that a file system can keep. -/
structure Storable (name : String) : Prop where
  short : name.utf8ByteSize ≤ longestName
  whole : Char.ofNat 0 ∉ name.toList

theorem whole_joinNames (proper : ∀ name ∈ names, IsName name)
    (storable : ∀ name ∈ names, Storable name) (whole : Char.ofNat 0 ∉ p.text.toList) :
    Char.ofNat 0 ∉ (names.foldl Path.joinName p).text.toList := by
  induction names generalizing p with
  | nil => exact whole
  | cons name rest ih =>
    refine ih (fun n member => proper n (by simp [member])) (fun n member => storable n (by simp [member])) ?_
    have lead : Char.ofNat 0 ∉ p.lead.toList := by
      rw [Path.lead]
      split
      · exact whole
      · simp only [String.toList_append, List.mem_append, not_or]
        exact ⟨whole, by decide⟩
    rw [Path.joinName_eq (proper name (by simp))]
    simp only [String.toList_append, List.mem_append, not_or]
    exact ⟨lead, (storable name (by simp)).whole⟩

/-- A file below an open folder can be opened by its path, unless that is too long. -/
theorem isFile_below (sound : d.Sound) (plain : d.Plain p) (opened : d.isFolder p = true)
    (filled : names ≠ []) (storable : ∀ name ∈ names, Storable name)
    (short : (names.foldl Path.joinName p).text.utf8ByteSize ≤ longestPath)
    (file : d.IsFileAt (d.placeOf p ++ names)) :
    d.isFile (names.foldl Path.joinName p) = true := by
  have proper : ∀ name ∈ names, IsName name := fun name member =>
    file.proper sound name (List.mem_append_right _ member)
  have checked : checkText (names.foldl Path.joinName p) = .ok () := by
    obtain ⟨place, found⟩ := isFolder_iff.mp opened
    obtain ⟨whole, text, _⟩ := checkText_of_stat found
    exact checkText_iff.mpr
      ⟨whole_joinNames proper storable whole, filled_joinNames proper text, short⟩
  obtain ⟨entry, there, leaf, unlinked, regular⟩ : ∃ entry,
      d.entryAt (d.placeOf p ++ names) = some entry ∧ entry ≠ .folder ∧ (∀ target, entry ≠ .link target) ∧
        ∀ place, d.stat (names.foldl Path.joinName p) = .ok (place, entry) →
          d.isFile (names.foldl Path.joinName p) = true := by
    rcases file with ⟨serial, content, there⟩ | ⟨name, there⟩
    · exact ⟨_, there, by simp, by simp, fun place found => by rw [isFile, found]⟩
    · exact ⟨_, there, by simp, by simp, fun place found => by rw [isFile, found]⟩
  obtain ⟨front, name, rfl⟩ := (List.eq_nil_or_concat names).resolve_left filled
  rw [List.concat_eq_append] at *
  obtain ⟨jump, walked⟩ := find_opened sound plain opened proper .target checked
  have followed := @follow_there d jump .self _ _ _ sound (by decide) proper
    (fun name member => (storable name member).short) filled there leaf unlinked
  exact regular _ (stat_of_find (walked.trans followed))

end Disk

/-- The name of a unit is made of filled segments, unless it ends in a slash. -/
theorem UnitId.Tidy.filled {u : UnitId} (tidy : u.Tidy) (named : u.logical ≠ "")
    (closed : u.logical.toList.getLast? ≠ some '/') : ∀ segment ∈ u.segments, segment ≠ "" := by
  obtain ⟨front, last, parts⟩ : ∃ front last, u.segments = front ++ [last] :=
    ⟨_, _, (List.dropLast_append_getLast u.segments_ne_nil).symm⟩
  have joined := u.join_segments
  rw [parts] at joined
  intro segment member
  rw [parts] at member
  rcases List.mem_append.mp member with before | final
  · exact (tidy segment (by simpa [parts] using before)).filled
  · obtain rfl := List.mem_singleton.mp final
    rintro rfl
    by_cases only : front = []
    · exact named (by rw [← joined, only]; rfl)
    · refine closed ?_
      rw [← joined, Text.join_append only (by simp)]
      simp [Text.join]

namespace Roots

variable {r : Roots} {d : Disk} {u : UnitId} {root : SourceRoot} {names : List String}
  {f : SourceFile}

/-- Roots as a file system holds them, without links, where no two names in a folder differ in case
alone and what sweeps list is not too deep to be opened. -/
structure Searchable (r : Roots) (d : Disk) : Prop where
  plain : ∀ root ∈ r.roots, d.Plain root.path
  named : ∀ root ∈ r.roots, root.path.text ≠ ""
  unmixed : ∀ root ∈ r.roots, UnmixedAt d (d.placeOf root.path)
  straight : ∀ root ∈ r.roots, ∀ names, d.entryAt (d.placeOf root.path ++ names) ≠ none →
    ∀ name ∈ names, '\\' ∉ name.toList
  storable : ∀ root ∈ r.roots, ∀ names, d.entryAt (d.placeOf root.path ++ names) ≠ none →
    ∀ name ∈ names, Disk.Storable name
  short : ∀ root ∈ r.roots, ∀ f ∈ r.sweep d root, f.path.text.utf8ByteSize ≤ Disk.longestPath

theorem ne_nil_of_spelled (spelled : names.map Text.lower =
    (UnitId.fileNames r.ending u.segments).map Text.lower) : names ≠ [] := by
  rintro rfl
  exact UnitId.fileNames_ne_nil u r.ending (List.map_eq_nil_iff.mp spelled.symm)

theorem isFolder_of_namesIn (sound : d.Sound) (plain : d.Plain root.path) (tidy : u.Tidy)
    (bare : IsBare r.ending) (named : root.path.text ≠ "") (found : r.namesIn d u root = some names) :
    d.isFolder root.path = true := by
  obtain ⟨spelled, proper, file⟩ := namesIn_spec sound tidy bare found
  obtain ⟨place, entry, there⟩ := Disk.stat_of_isFile file
  have opened :=
    @Disk.stat_of_joinNames _ _ _ _ [] names (ne_nil_of_spelled spelled) plain proper named there
  exact Disk.isFolder_iff.mpr ⟨_, opened⟩

theorem resolve_eq (sound : d.Sound) (tidy : u.Tidy) (bare : IsBare r.ending)
    (filled : ∀ segment ∈ u.segments, segment ≠ "") : r.resolve d u =
      r.roots.findSome? fun root => (r.namesIn d u root).map (r.below root) := by
  rw [resolve, UnitId.named_of_filled filled, if_neg Bool.false_ne_true]
  refine findSome?_congr fun root _ => ?_
  cases found : r.namesIn d u root with
  | none => rfl
  | some names =>
    obtain ⟨spelled, proper, _⟩ := namesIn_spec sound tidy bare found
    have carries := UnitId.carries_of_lower proper bare filled spelled
    simp only [Option.map_some, below, Disk.listed, Path.foldl_joinName carries.filled proper]

/-- A root is found to hold a unit just where its sweep lists a file of it. -/
theorem mem_sweep_iff_namesIn (bare : IsBare r.ending) (sound : d.Sound) (searchable : r.Searchable d)
    (tidy : u.Tidy) (filled : ∀ segment ∈ u.segments, segment ≠ "") (known : root ∈ r.roots)
    (apart : ∀ f ∈ r.sweep d root, (f.unit == u) = true →
      Text.lower f.unit.logical = Text.lower u.logical) :
    f ∈ r.sweep d root ∧ (f.unit == u) = true ↔
      ∃ names, r.namesIn d u root = some names ∧ f = r.below root names := by
  have plain := searchable.plain root known
  have straight : ∀ {names}, r.Holds d root names → ∀ name ∈ names, '\\' ∉ name.toList :=
    fun holds => searchable.straight root known _ holds.there
  constructor
  · rintro ⟨listed, same⟩
    obtain ⟨names, holds, rfl⟩ := holds_of_mem_sweep sound plain listed
    have opened : d.isFolder root.path = true := by
      obtain ⟨place, _, found, _⟩ := (mem_sweep sound).mp listed
      exact Disk.isFolder_iff.mpr ⟨place, found⟩
    have text : (r.below root names).path = names.foldl Path.joinName root.path := by
      rw [path_below, Path.foldl_joinName holds.1.filled holds.1.proper]
    have file := Disk.isFile_below sound plain opened holds.1.filled
      (searchable.storable root known _ holds.there)
      (text ▸ searchable.short root known _ listed) holds.2
    have spelled := (spells_iff holds (straight holds)).mp (apart _ listed same)
    exact ⟨names, namesIn_of_holds sound plain tidy bare opened file
      ((searchable.unmixed root known).unrivalled sound holds.there) holds spelled, rfl⟩
  · rintro ⟨names, found, rfl⟩
    obtain ⟨holds, spelled⟩ := holds_of_namesIn sound plain tidy bare filled found
    have opened := isFolder_of_namesIn sound plain tidy bare (searchable.named root known) found
    exact ⟨mem_sweep_of_holds sound plain opened holds,
      UnitId.beq_of_lower_eq ((spells_iff holds (straight holds)).mpr spelled)⟩

/-- A unit, by any spelling, is found if a sweep lists a file of it, and then it is that of the first
such root. -/
theorem resolve_first_listed (bare : IsBare r.ending) (sound : d.Sound) (searchable : r.Searchable d)
    {raw : String} {ending : Option String} (spelled : u = .ofLogical (logicalName raw ending))
    (named : u.logical ≠ "") (closed : u.logical.toList.getLast? ≠ some '/')
    (apart : ∀ root ∈ r.roots, ∀ f ∈ r.sweep d root, (f.unit == u) = true →
      Text.lower f.unit.logical = Text.lower u.logical) :
    ((r.resolve d u).isSome = true ↔
      ∃ root ∈ r.roots, ∃ f ∈ r.sweep d root, (f.unit == u) = true) ∧
    ∀ f, r.resolve d u = some f ↔ ∃ front root back, r.roots = front ++ root :: back ∧
      (∀ other ∈ front, ∀ g ∈ r.sweep d other, (g.unit == u) = false) ∧
      ∀ g, g ∈ r.sweep d root ∧ (g.unit == u) = true ↔ g = f := by
  have tidy : u.Tidy := spelled ▸ UnitId.tidy_ofLogical raw ending
  have filled := tidy.filled named closed
  have listed := fun root (known : root ∈ r.roots) f =>
    mem_sweep_iff_namesIn (f := f) bare sound searchable tidy filled known (apart root known)
  rw [resolve_eq sound tidy bare filled]
  constructor
  · rw [List.isSome_findSome?, List.any_eq_true]
    refine exists_congr fun root => and_congr_right fun known => ?_
    rw [Option.isSome_map, Option.isSome_iff_exists]
    constructor
    · rintro ⟨names, found⟩
      exact ⟨_, (listed root known _).mpr ⟨names, found, rfl⟩⟩
    · rintro ⟨f, there⟩
      obtain ⟨names, found, _⟩ := (listed root known f).mp there
      exact ⟨names, found⟩
  · intro f
    rw [List.findSome?_eq_some_iff]
    simp only [Option.map_eq_some_iff, Option.map_eq_none_iff]
    constructor
    · rintro ⟨front, root, back, parts, ⟨names, found, rfl⟩, missed⟩
      refine ⟨front, root, back, parts, ?_, ?_⟩
      · intro other before g there
        by_contra same
        obtain ⟨names, found, _⟩ := (listed other (by simp [parts, before]) g).mp
          ⟨there, by simpa using same⟩
        rw [missed other before] at found
        cases found
      · intro g
        rw [listed root (by simp [parts]) g, found]
        simp
    · rintro ⟨front, root, back, parts, missed, only⟩
      obtain ⟨names, found, same⟩ := (listed root (by simp [parts]) f).mp ((only f).mpr rfl)
      refine ⟨front, root, back, parts, ⟨names, found, same.symm⟩, ?_⟩
      intro other before
      by_contra some
      obtain ⟨names, found⟩ := Option.ne_none_iff_exists'.mp some
      obtain ⟨there, same⟩ := (listed other (by simp [parts, before]) _).mpr ⟨names, found, rfl⟩
      rw [missed other before _ there] at same
      cases same

/-- Whether roots can be searched can be looked up among all entries. -/
theorem searchable_of_entries (sound : d.Sound) (plain : ∀ root ∈ r.roots, d.Plain root.path)
    (named : ∀ root ∈ r.roots, root.path.text ≠ "")
    (apart : ∀ x ∈ d.entries.pairs, ∀ y ∈ d.entries.pairs, x.1.dropLast = y.1.dropLast →
      x.1.map Text.lower = y.1.map Text.lower → x.1 = y.1)
    (kept : ∀ pair ∈ d.entries.pairs, ∀ name ∈ pair.1, '\\' ∉ name.toList ∧
      name.utf8ByteSize ≤ Disk.longestName ∧ Char.ofNat 0 ∉ name.toList)
    (short : ∀ root ∈ r.roots, ∀ f ∈ r.sweep d root, f.path.text.utf8ByteSize ≤ Disk.longestPath) :
    r.Searchable d := by
  have names : ∀ place names, d.entryAt (place ++ names) ≠ none → ∀ name ∈ names, '\\' ∉ name.toList ∧
      name.utf8ByteSize ≤ Disk.longestName ∧ Char.ofNat 0 ∉ name.toList := by
    intro place names there name member
    obtain ⟨entry, found⟩ := Option.ne_none_iff_exists'.mp there
    have filled : place ++ names ≠ [] := by simp [List.ne_nil_of_mem member]
    exact kept _ ((sound.mem_pairs filled).mpr found) name (List.mem_append_right _ member)
  refine ⟨plain, named, ?_, fun root _ below there name member => (names _ below there name member).1,
    fun root _ below there name member => (names _ below there name member).2.elim .mk, short⟩
  intro root _ front a b first second lower
  obtain ⟨e, one⟩ := Option.ne_none_iff_exists'.mp first
  obtain ⟨e', two⟩ := Option.ne_none_iff_exists'.mp second
  have same := apart _ ((sound.mem_pairs (by simp)).mpr one) _ ((sound.mem_pairs (by simp)).mpr two)
    (by simp) (by simp [lower])
  simpa using same

def layeredFiles : List (String × String) :=
  [("/p/gen/app/X.PHP", "g"), ("/p/src/App/x.php", "s"), ("/p/src/App/Y.x/z.php", "z")]

def layeredRoots : Roots := .ofPaths (some ⟨"/p/gen"⟩) [⟨"/p/none"⟩, ⟨"/p/./src"⟩] "php"

/-- A unit that two roots hold, each in another case, is the one of the first. -/
theorem resolve_first_listed_layered :
    (layeredRoots.resolve (.ofFiles layeredFiles) (.ofSymbol "APP\\x")).map
      (fun f => (f.rank, f.path.text, f.unit.logical)) = some (0, "/p/gen/app/X.PHP", "app/X") ∧
    ((layeredRoots.resolve (.ofFiles layeredFiles) (.ofSymbol "APP\\x")).isSome = true ↔
      ∃ root ∈ layeredRoots.roots, ∃ f ∈ layeredRoots.sweep (.ofFiles layeredFiles) root,
        (f.unit == .ofSymbol "APP\\x") = true) ∧
    ∀ f, layeredRoots.resolve (.ofFiles layeredFiles) (.ofSymbol "APP\\x") = some f ↔
      ∃ front root back, layeredRoots.roots = front ++ root :: back ∧
        (∀ other ∈ front, ∀ g ∈ layeredRoots.sweep (.ofFiles layeredFiles) other,
          (g.unit == .ofSymbol "APP\\x") = false) ∧
        ∀ g, g ∈ layeredRoots.sweep (.ofFiles layeredFiles) root ∧
          (g.unit == .ofSymbol "APP\\x") = true ↔ g = f := by
  have sound : (Disk.ofFiles layeredFiles).Sound := (Disk.changes_ofFiles _).sound
  have seen : (layeredRoots.resolve (.ofFiles layeredFiles) (.ofSymbol "APP\\x")).map
        (fun f => (f.rank, f.path.text, f.unit.logical)) = some (0, "/p/gen/app/X.PHP", "app/X") ∧
      (∀ root ∈ layeredRoots.roots, root.path.text ≠ "") ∧
      (∀ x ∈ (Disk.ofFiles layeredFiles).entries.pairs, ∀ y ∈ (Disk.ofFiles layeredFiles).entries.pairs,
        x.1.dropLast = y.1.dropLast → x.1.map Text.lower = y.1.map Text.lower → x.1 = y.1) ∧
      (∀ pair ∈ (Disk.ofFiles layeredFiles).entries.pairs, ∀ name ∈ pair.1, '\\' ∉ name.toList ∧
        name.utf8ByteSize ≤ Disk.longestName ∧ Char.ofNat 0 ∉ name.toList) ∧
      (∀ root ∈ layeredRoots.roots, ∀ f ∈ layeredRoots.sweep (.ofFiles layeredFiles) root,
        f.path.text.utf8ByteSize ≤ Disk.longestPath) ∧
      (UnitId.ofSymbol "APP\\x").logical ≠ "" ∧
      (UnitId.ofSymbol "APP\\x").logical.toList.getLast? ≠ some '/' ∧
      ∀ root ∈ layeredRoots.roots, ∀ f ∈ layeredRoots.sweep (.ofFiles layeredFiles) root,
        (f.unit == .ofSymbol "APP\\x") = true →
          Text.lower f.unit.logical = Text.lower (UnitId.ofSymbol "APP\\x").logical := by
    decide +kernel
  obtain ⟨found, rooted, apart, kept, short, named, closed, alike⟩ := seen
  have searchable : layeredRoots.Searchable (.ofFiles layeredFiles) :=
    searchable_of_entries sound (fun root _ => Disk.plain_ofFiles _ root.path) rooted apart kept short
  exact ⟨found, resolve_first_listed (by constructor <;> decide) sound searchable rfl named closed alike⟩

/-- No file can be opened below a path that is as long as paths may be. -/
theorem namesIn_of_long (sound : d.Sound) (tidy : u.Tidy) (bare : IsBare r.ending)
    (long : Disk.longestPath ≤ root.path.text.utf8ByteSize) : r.namesIn d u root = none := by
  by_contra some
  obtain ⟨names, found⟩ := Option.ne_none_iff_exists'.mp some
  obtain ⟨spelled, proper, file⟩ := namesIn_spec sound tidy bare found
  have longer := Path.size_joinNames (ne_nil_of_spelled spelled) proper root.path
  obtain ⟨place, entry, there⟩ := Disk.stat_of_isFile file
  have fits := (Disk.checkText_of_stat there).2.2
  omega

/-- Of a root whose own path is as long as paths may be all files are listed and none is found. In a
root without a path files are found and none is listed. -/
theorem resolve_misses_listed :
    let deep : Roots := .ofPaths none [Path.slashed 4092 "src"] "php"
    let here : Roots := .ofPaths none [⟨""⟩] "php"
    (∃ root ∈ deep.roots, ∃ f ∈ deep.sweep (.ofFiles [("/src/A.php", "")]) root,
      (f.unit == .ofSymbol "A") = true) ∧
    (deep.resolve (.ofFiles [("/src/A.php", "")]) (.ofSymbol "A")).isSome = false ∧
    (∀ root ∈ here.roots, (here.sweep (.ofFiles [("/A.php", "")]) root).isEmpty = true) ∧
    (here.resolve (.ofFiles [("/A.php", "")]) (.ofSymbol "A")).isSome = true := by
  intro deep here
  have bare : IsBare "php" := by constructor <;> decide
  have sound : (Disk.ofFiles [("/src/A.php", "")]).Sound := (Disk.changes_ofFiles _).sound
  have plain := Disk.plain_ofFiles [("/src/A.php", "")]
  refine ⟨⟨_, List.mem_singleton_self _, deep.below ⟨.slashed 4092 "src", 0, false⟩ ["A.php"], ?_, ?_⟩,
    ?_, by decide +kernel, by decide +kernel⟩
  · have same : (Disk.ofFiles [("/src/A.php", "")]).stat (.slashed 4092 "src") =
        (Disk.ofFiles [("/src/A.php", "")]).stat (.slashed 1 "src") :=
      Disk.stat_slashed _ (by constructor <;> decide) (by decide) (by decide)
    have there : (Disk.ofFiles [("/src/A.php", "")]).isFolder (.slashed 1 "src") = true := by decide +kernel
    obtain ⟨place, found⟩ := Disk.isFolder_iff.mp there
    have file := Disk.isFile_spec sound (plain ⟨"/src/A.php"⟩) (by decide +kernel)
    have below : (Disk.ofFiles [("/src/A.php", "")]).placeOf ⟨"/src/A.php"⟩ =
        (Disk.ofFiles [("/src/A.php", "")]).placeOf (.slashed 4092 "src") ++ ["A.php"] := by
      rw [← Disk.stat_place (plain _) (same.trans found), Disk.stat_place (plain _) found]
      decide +kernel
    have carries : Carries "php" ["A.php"] :=
      ⟨fun name member => List.mem_singleton.mp member ▸ (by constructor <;> decide),
        [], "A.php", "A", "php", rfl, by unfold Path.Extends; decide, by decide⟩
    exact mem_sweep_of_holds sound (plain _) (Disk.isFolder_iff.mpr ⟨place, same.trans found⟩)
      ⟨carries, below ▸ file⟩
  · show (UnitId.ofRelative (Disk.relativePath ["A.php"]) "php" == .ofSymbol "A") = true
    decide +kernel
  · have tidy := UnitId.tidy_ofSymbol "A"
    rw [resolve_eq sound tidy bare (by decide +kernel), Option.isSome_eq_false_iff,
      Option.isNone_iff_eq_none, List.findSome?_eq_none_iff]
    intro root member
    obtain rfl := List.mem_singleton.mp member
    rw [namesIn_of_long sound tidy bare (by rw [Path.size_slashed]; decide)]
    rfl

end Roots
end LayerCache
