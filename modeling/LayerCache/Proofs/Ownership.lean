import LayerCache.Proofs.Snapshots

/-! Which entries of archives count, and which of them a unit leads to. -/
namespace LayerCache

namespace EntryName

/-- The name of an entry that can be a unit. It is read with slashes for backslashes. -/
structure Admissible (ending reserved name : String) : Prop where
  relative : (Text.slashes name).toList.head? ≠ some '/'
  driveless : ∀ first, (Text.split '/' (Text.slashes name)).head? = some first → ':' ∉ first.toList
  below : ".." ∉ Text.split '/' (Text.slashes name)
  closed : name.toList.getLast? ≠ some '/'
  extended : ∃ stem old, Text.slashes name = stem ++ "." ++ old ∧ stem ≠ "" ∧ '.' ∉ old.toList ∧
    Text.lower old = Text.lower ending
  unreserved : dropSlashes reserved ≠ "" →
    ¬ (dropSlashes reserved).toList <+: (Text.slashes name).toList
  named : (UnitId.ofEntry name ending).logical ≠ ""

/-- The first of some names that can be its unit. -/
def Owns (ending reserved : String) (names : List String) (name : String) : Prop :=
  Admissible ending reserved name ∧ ∃ front back, names = front ++ name :: back ∧
    ∀ other ∈ front, Admissible ending reserved other →
      (UnitId.ofEntry other ending == UnitId.ofEntry name ending) = false

variable {ending reserved name : String} {names : List String} {u : UnitId}

theorem dropSlashes_of_relative (relative : (Text.slashes name).toList.head? ≠ some '/') :
    dropSlashes name = Text.slashes name := by
  rw [dropSlashes]
  cases text : (Text.slashes name).toList with
  | nil => exact String.toList_inj.mp (by simp [text])
  | cons c rest =>
    rw [text] at relative
    rw [List.dropWhile_cons_of_neg (by simpa using relative), ← text, String.ofList_toList]

theorem isEnclosed_iff : isEnclosed name = true ↔ (Text.slashes name).toList.head? ≠ some '/' ∧
    (∀ first, (Text.split '/' (Text.slashes name)).head? = some first → ':' ∉ first.toList) ∧
    ".." ∉ Text.split '/' (Text.slashes name) := by
  have start : Text.startsWith (Text.slashes name) "/" = true ↔
      (Text.slashes name).toList.head? = some '/' := by
    rw [Text.startsWith]
    cases (Text.slashes name).toList with
    | nil => simp
    | cons c rest => simpa using eq_comm
  have drive : ((Text.split '/' (Text.slashes name)).head?.any fun first => decide (':' ∈ first.toList)) =
      false ↔ ∀ first, (Text.split '/' (Text.slashes name)).head? = some first → ':' ∉ first.toList := by
    cases (Text.split '/' (Text.slashes name)).head? <;> simp
  simp only [isEnclosed, Bool.and_eq_true, Bool.not_eq_true', List.contains_eq_mem, drive,
    decide_eq_false_iff_not, ← start, Bool.not_eq_true, ne_eq, and_assoc]

theorem isSource_iff : isSource ending name = true ↔ ∃ stem old, name = stem ++ "." ++ old ∧
    stem ≠ "" ∧ '.' ∉ old.toList ∧ Text.lower old = Text.lower ending := by
  rw [isSource]
  constructor
  · intro source
    split at source
    · rename_i stem old cut
      obtain ⟨parts, plain⟩ := Text.cutLast_eq_some.mp cut
      simp only [Bool.and_eq_true, bne_iff_ne, Text.sameIgnoringCase_iff] at source
      exact ⟨stem, old, String.toList_inj.mp (by simpa using parts), source.1, plain, source.2⟩
    · cases source
  · rintro ⟨stem, old, rfl, filled, plain, same⟩
    have cut : Text.cutLast '.' (stem ++ "." ++ old) = some (stem, old) :=
      Text.cutLast_eq_some.mpr ⟨by simp, plain⟩
    simp [cut, filled, Text.sameIgnoringCase_iff, same]

theorem admits_iff : admits ending (dropSlashes reserved) name = true ↔
    Admissible ending reserved name := by
  have closed : Text.endsWith name "/" = true ↔ name.toList.getLast? = some '/' := by
    rw [Text.endsWith, List.isSuffixOf_iff_suffix, List.getLast?_eq_some_iff]
    exact ⟨fun ⟨front, same⟩ => ⟨front, same.symm⟩, fun ⟨front, same⟩ => ⟨front, same.symm⟩⟩
  have unreserved : isReserved (dropSlashes reserved) (Text.slashes name) = false ↔
      (dropSlashes reserved ≠ "" → ¬ (dropSlashes reserved).toList <+: (Text.slashes name).toList) := by
    simp [isReserved, Text.startsWith, ← Bool.not_eq_true, List.isPrefixOf_iff_prefix]
  have named : (unit ending name).isEmpty = false ↔ (UnitId.ofEntry name ending).logical ≠ "" := by
    rw [unit_eq, UnitId.isEmpty, beq_eq_false_iff_ne]
  constructor
  · intro admitted
    simp only [admits, Bool.and_eq_true, Bool.not_eq_true', isEnclosed_iff] at admitted
    obtain ⟨⟨⟨⟨⟨relative, driveless, below⟩, open_⟩, source⟩, free⟩, filled⟩ := admitted
    rw [dropSlashes_of_relative relative] at source free
    exact ⟨relative, driveless, below, fun last => by simp [closed.mpr last] at open_,
      isSource_iff.mp source, unreserved.mp free, named.mp filled⟩
  · intro admissible
    have same := dropSlashes_of_relative admissible.relative
    have open_ : Text.endsWith name "/" = false :=
      Bool.eq_false_iff.mpr fun last => admissible.closed (closed.mp last)
    simp only [admits, Bool.and_eq_true, Bool.not_eq_true', isEnclosed_iff, same]
    exact ⟨⟨⟨⟨⟨admissible.relative, admissible.driveless, admissible.below⟩, open_⟩,
      isSource_iff.mpr admissible.extended⟩, unreserved.mpr admissible.unreserved⟩,
      named.mpr admissible.named⟩

/-- A name in front owns its unit unless that one is owned already. -/
theorem owns_cons {first : String} : Owns ending reserved (first :: names) name ↔
    (first = name ∧ Admissible ending reserved name) ∨
    (Owns ending reserved names name ∧ (Admissible ending reserved first →
      (UnitId.ofEntry first ending == UnitId.ofEntry name ending) = false)) := by
  constructor
  · rintro ⟨admissible, front, back, parts, others⟩
    rcases front with _ | ⟨c, front⟩
    · exact .inl ⟨(List.cons.inj parts).1, admissible⟩
    · obtain ⟨rfl, rest⟩ := List.cons.inj parts
      exact .inr ⟨⟨admissible, front, back, rest, fun other member => others other (by simp [member])⟩,
        others first (by simp)⟩
  · rintro (⟨rfl, admissible⟩ | ⟨⟨admissible, front, back, rfl, others⟩, apart⟩)
    · exact ⟨admissible, [], names, rfl, by simp⟩
    · refine ⟨admissible, first :: front, back, rfl, fun other member => ?_⟩
      rcases List.mem_cons.mp member with rfl | later
      · exact apart
      · exact others other later

theorem mem_owners : (u, name) ∈ owners ending (dropSlashes reserved) names ↔
    u = .ofEntry name ending ∧ Owns ending reserved names name := by
  induction names with
  | nil => simp [owners, Owns]
  | cons first rest ih =>
    rw [owns_cons]
    simp only [owners]
    split
    · rename_i admitted
      have admissible := admits_iff.mp admitted
      simp only [List.mem_cons, List.mem_filter, ih, unit_eq, Prod.mk.injEq, Bool.not_eq_true']
      constructor
      · rintro (⟨rfl, rfl⟩ | ⟨⟨rfl, owns⟩, apart⟩)
        · exact ⟨rfl, .inl ⟨rfl, admissible⟩⟩
        · refine ⟨rfl, .inr ⟨owns, fun _ => ?_⟩⟩
          rw [← apart, Bool.eq_iff_iff, UnitId.beq_iff, UnitId.beq_iff, eq_comm]
      · rintro ⟨rfl, ⟨rfl, _⟩ | ⟨owns, apart⟩⟩
        · exact .inl ⟨rfl, rfl⟩
        · refine .inr ⟨⟨rfl, owns⟩, ?_⟩
          rw [← apart admissible, Bool.eq_iff_iff, UnitId.beq_iff, UnitId.beq_iff, eq_comm]
    · rename_i refused
      have inadmissible : ¬ Admissible ending reserved first := fun h => refused (admits_iff.mpr h)
      rw [ih]
      refine and_congr_right fun _ => ⟨fun owns => .inr ⟨owns, fun h => absurd h inadmissible⟩, ?_⟩
      rintro (⟨rfl, admissible⟩ | ⟨owns, _⟩)
      · exact absurd admissible inadmissible
      · exact owns

/-- Every admissible name has an owner of its unit. -/
theorem exists_owns (member : name ∈ names) (admissible : Admissible ending reserved name) :
    ∃ owner, Owns ending reserved names owner ∧
      (UnitId.ofEntry owner ending == UnitId.ofEntry name ending) = true := by
  induction names with
  | nil => cases member
  | cons first rest ih =>
    by_cases taken : Admissible ending reserved first ∧
        (UnitId.ofEntry first ending == UnitId.ofEntry name ending) = true
    · exact ⟨first, owns_cons.mpr (.inl ⟨rfl, taken.1⟩), taken.2⟩
    · rcases List.mem_cons.mp member with rfl | later
      · exact absurd ⟨admissible, by simp⟩ taken
      · obtain ⟨owner, owns, same⟩ := ih later
        refine ⟨owner, owns_cons.mpr (.inr ⟨owns, fun free => ?_⟩), same⟩
        by_contra equal
        simp only [Bool.not_eq_false, UnitId.beq_iff] at equal same
        exact taken ⟨free, UnitId.beq_iff.mpr (equal.trans same)⟩

end EntryName

namespace Catalog

open EntryName

variable {ending reserved name : String} {names : List String} {u : UnitId} {i : Nat}

theorem mem_entries_ofNames : name ∈ (ofNames ending (dropSlashes reserved) names).entries ↔
    Owns ending reserved names name := by
  rw [← (perm_entries _).mem_iff, owners_ofNames]
  simp [mem_owners]

theorem owned_ofNames (ending reserved : String) (names : List String) :
    Owned ending (ofNames ending reserved names).owners := by
  rw [owners_ofNames]
  exact owned_owners ending reserved names

/-- Two entries of one unit are the same. -/
theorem entries_inj {c : Catalog} (owned : Owned ending c.owners) {other : String}
    (first : name ∈ c.entries) (second : other ∈ c.entries)
    (same : (UnitId.ofEntry name ending == UnitId.ofEntry other ending) = true) : name = other := by
  obtain ⟨⟨u, _⟩, there, rfl⟩ := List.mem_map.mp (c.perm_entries.mem_iff.mpr first)
  obtain ⟨⟨v, _⟩, here, rfl⟩ := List.mem_map.mp (c.perm_entries.mem_iff.mpr second)
  rw [← owned.named u _ there, ← owned.named v _ here] at same
  have one := owned.entryIn_eq there same
  rw [owned.entryIn_eq here (UnitId.beq_iff.mpr rfl)] at one
  exact (Option.some.inj one).symm

theorem nodup_entries {c : Catalog} (owned : Owned ending c.owners) : c.entries.Nodup := by
  have digests : (c.owners.map fun pair => (UnitId.ofEntry pair.2 ending).digest) =
      c.owners.map (·.1.digest) :=
    List.map_congr_left fun pair member => by rw [owned.named pair.1 pair.2 member]
  have distinct := owned.distinct
  rw [← digests] at distinct
  change (c.owners.map ((fun name => (UnitId.ofEntry name ending).digest) ∘ Prod.snd)).Nodup at distinct
  rw [← List.map_map] at distinct
  exact c.perm_entries.nodup_iff.mp (List.Nodup.of_map _ distinct)

/-- A unit leads to the place of its entry. -/
theorem place?_eq_some {c : Catalog} (owned : Owned ending c.owners) : c.place? u = some i ↔
    ∃ name, c.entries[i]? = some name ∧ (UnitId.ofEntry name ending == u) = true := by
  constructor
  · intro found
    obtain ⟨⟨v, j⟩, first, rfl⟩ := Option.map_eq_some_iff.mp found
    have member := List.mem_of_find?_eq_some first
    have same : (v == u) = true := by simpa using List.find?_some first
    have inside : j < c.entries.length := c.lt_of_mem_places member
    have there : (v, c.entries[j]) ∈ c.owners := List.mem_map.mpr ⟨(v, j), member, by simp [inside]⟩
    exact ⟨c.entries[j], List.getElem?_eq_getElem inside, owned.named v _ there ▸ same⟩
  · rintro ⟨name, here, same⟩
    obtain ⟨⟨v, _⟩, there, rfl⟩ :=
      List.mem_map.mp (c.perm_entries.mem_iff.mpr (List.mem_of_getElem? here))
    rw [← owned.named v _ there] at same
    have led : c.entryOf u = some _ := (c.entryOf_eq u).trans (owned.entryIn_eq there same)
    obtain ⟨j, found, last⟩ := Option.bind_eq_some_iff.mp led
    have inside : i < c.entries.length := (List.getElem?_eq_some_iff.mp here).1
    rw [found, (List.getElem?_inj inside (nodup_entries owned)).mp (here.trans last.symm)]

theorem place?_isSome : ((ofNames ending (dropSlashes reserved) names).place? u).isSome = true ↔
    ∃ name ∈ names, Admissible ending reserved name ∧ (UnitId.ofEntry name ending == u) = true := by
  have owned := owned_ofNames ending (dropSlashes reserved) names
  rw [Option.isSome_iff_exists]
  constructor
  · rintro ⟨i, found⟩
    obtain ⟨name, here, same⟩ := (place?_eq_some owned).mp found
    obtain ⟨admissible, front, back, rfl, _⟩ := mem_entries_ofNames.mp (List.mem_of_getElem? here)
    exact ⟨name, by simp, admissible, same⟩
  · rintro ⟨name, member, admissible, same⟩
    obtain ⟨owner, owns, alike⟩ := exists_owns member admissible
    obtain ⟨i, here⟩ := List.mem_iff_getElem?.mp (mem_entries_ofNames.mpr owns)
    have led : (UnitId.ofEntry owner ending == u) = true :=
      UnitId.beq_iff.mpr ((UnitId.beq_iff.mp alike).trans (UnitId.beq_iff.mp same))
    exact ⟨i, (place?_eq_some owned).mpr ⟨owner, here, led⟩⟩

/-- Entries stand in increasing order, none twice. -/
theorem increasing_entries {c : Catalog} (owned : Owned ending c.owners) :
    c.entries.Pairwise (· < ·) := by
  have both := c.ordered.and (nodup_entries owned)
  exact both.imp fun ⟨le, ne⟩ => by_contra fun not => ne (String.le_antisymm le (String.not_lt.mp not))

end Catalog

/-! Reading members of an archive changes none of their names. -/

namespace Zip

theorem name_read (m : Member) (b : ByteArray) : (m.read b).2.name = m.name := by
  have located : (m.located b).2.name = m.name := by
    unfold Member.located
    split
    · rfl
    · split <;> rfl
  unfold Member.read
  split
  · rfl
  · split
    · rename_i found
      rw [found] at located
      exact located
    · rename_i found
      rw [found] at located
      exact located

theorem names_insertMember {m : Member} {members : List Member} (known : m.name ∈ members.map (·.name)) :
    (insertMember m members).map (·.name) = members.map (·.name) := by
  induction members with
  | nil => cases known
  | cons other rest ih =>
    simp only [insertMember]
    split
    · rename_i same
      simp [same]
    · rename_i apart
      rcases List.mem_cons.mp known with same | later
      · exact absurd same.symm apart
      · rw [List.map_cons, List.map_cons, ih later]

theorem names_read (dir : Directory) (b : ByteArray) (name : String) :
    (dir.read b name).2.names = dir.names := by
  unfold Directory.read
  split
  · rfl
  · rename_i m found
    exact names_insertMember (by
      rw [name_read]
      exact List.mem_map_of_mem (List.mem_of_find?_eq_some found))

end Zip

namespace Archives

open EntryName

variable {ending reserved : String} {as : Archives} {d : Disk} {u : UnitId} {p : Path} {r : EntryRef}

/-- Archives know the catalogs of their own members. -/
def Catalogued (as : Archives) : Prop :=
  Each (fun _ state => ∀ i, state = .indexed i →
    i.catalog = .ofNames as.ending as.reserved i.directory.names) as.archives

theorem catalogued_new (ending reserved : String) : (new ending reserved).Catalogued :=
  fun _ none => by cases none

theorem catalog_index {i : Index} (opened : Archive.index d p ending reserved = .ok i) :
    i.catalog = .ofNames ending reserved i.directory.names := by
  unfold Archive.index at opened
  split at opened
  · split at opened
    · cases opened
      rfl
    · cases opened
  · cases opened
  · cases opened

theorem Catalogued.next (catalogued : as.Catalogued) (distinct : (as.paths.map Archive.key).Nodup)
    (d : Disk) (request : Request) : (as.next d request).Catalogued := by
  obtain ⟨ending, reserved⟩ := as.options_next d request
  have opens : ∀ path ∈ as.paths, ∀ i,
      ArchiveState.ofIndex (Archive.index d path as.ending as.reserved) = .indexed i →
        i.catalog = .ofNames as.ending as.reserved i.directory.names := by
    intro path _ i state
    cases opened : Archive.index d path as.ending as.reserved with
    | error e => simp [opened, ArchiveState.ofIndex] at state
    | ok j =>
      simp only [opened, ArchiveState.ofIndex, ArchiveState.indexed.injEq] at state
      exact state ▸ catalog_index opened
  rw [Catalogued, ending, reserved]
  cases request with
  | register p =>
    simp only [Archives.next, register]
    split
    · exact catalogued
    · intro a member
      rcases List.mem_append.mp member with old | new
      · exact catalogued a old
      · rw [List.mem_singleton.mp new]
        exact fun i state => by cases state
  | openAt p => exact each_openAt catalogued opens
  | find u => exact each_find catalogued opens
  | entries p => exact each_entries catalogued opens
  | read r =>
    refine each_read distinct catalogued opens ?_
    intro path i known j state
    obtain rfl := ArchiveState.indexed.inj state
    rw [show (i.read d r.entry).2.directory.names = i.directory.names from Zip.names_read ..]
    exact known i rfl

theorem Catalogued.after (catalogued : as.Catalogued) (distinct : (as.paths.map Archive.key).Nodup)
    (requests : List (Disk × Request)) : (as.after requests).Catalogued := by
  induction requests generalizing as with
  | nil => exact catalogued
  | cons call rest ih =>
    exact ih (catalogued.next distinct call.1 call.2) (distinct_next distinct call.1 call.2)

/-- Archives list admissible entries only. -/
theorem admissible_of_entries {name : String} (requests : List (Disk × Request))
    (listed : name ∈ (((new ending reserved).after requests).entries d p).1) :
    Admissible ending reserved name := by
  have catalogued : ((new ending reserved).after (requests ++ [(d, .openAt p)])).Catalogued :=
    (catalogued_new ending reserved).after List.nodup_nil _
  obtain ⟨endings, reserve⟩ := (new ending reserved).options_after (requests ++ [(d, .openAt p)])
  rw [Catalogued, endings, reserve, after_append] at catalogued
  rw [entries_eq] at listed
  cases opened : (((new ending reserved).after requests).openAt d p).1 with
  | error e => simp [opened, Except.toOption] at listed
  | ok i =>
    obtain ⟨a, member, _, state⟩ := openIn_ok opened
    have catalog : i.catalog = .ofNames ending (dropSlashes reserved) i.directory.names :=
      catalogued a member i state
    simp only [opened, Except.toOption, Option.map_some, Option.getD_some, Index.entries, catalog] at listed
    exact (Catalog.mem_entries_ofNames.mp listed).1

/-- A search leads to the first archive that lists an entry of the unit. -/
theorem find_eq_some (distinct : (as.paths.map Archive.key).Nodup) (kept : as.Kept as.ending) :
    (as.find d u).1 = some r ↔ ∃ front back, as.paths = front ++ r.archive :: back ∧
      (∀ p ∈ front, ∀ name ∈ (as.entries d p).1, (UnitId.ofEntry name as.ending == u) = false) ∧
      ∀ name, name ∈ (as.entries d r.archive).1 ∧ (UnitId.ofEntry name as.ending == u) = true ↔
        name = r.entry := by
  rw [find_eq distinct, List.findSome?_eq_some_iff]
  simp only [Option.map_eq_some_iff, Option.map_eq_none_iff]
  constructor
  · rintro ⟨front, p, back, parts, ⟨entry, opened, rfl⟩, before⟩
    refine ⟨front, back, parts, ?_, ?_⟩
    · intro q member name listed
      by_contra same
      have offered := (entryOf_openAt kept).mpr ⟨listed, Bool.not_eq_false _ ▸ same⟩
      rw [before q member] at offered
      cases offered
    · intro name
      rw [← entryOf_openAt kept, opened]
      simp [eq_comm]
  · rintro ⟨front, back, parts, before, only⟩
    refine ⟨front, r.archive, back, parts, ⟨r.entry, ?_, rfl⟩, ?_⟩
    · exact (entryOf_openAt kept).mpr ((only r.entry).mpr rfl)
    · intro q member
      by_contra some
      obtain ⟨name, opened⟩ := Option.ne_none_iff_exists'.mp some
      obtain ⟨listed, same⟩ := (entryOf_openAt kept).mp opened
      rw [before q member name listed] at same
      cases same

theorem admissible_of_find (requests : List (Disk × Request))
    (found : (((new ending reserved).after requests).find d u).1 = some r) :
    Admissible ending reserved r.entry := by
  have remembers := (remembers_new ending reserved).after requests
  obtain ⟨_, _, _, _, only⟩ := (find_eq_some remembers.distinct remembers.kept).mp found
  exact admissible_of_entries requests ((only r.entry).mpr rfl).1

/-- An archive lists the first admissible name of each unit, in order, and leads from a unit to its
place there. A search leads to the first archive that lists an entry of the unit. -/
theorem catalog_owns (ending reserved : String) :
    (∀ names, let c := Catalog.ofNames ending (dropSlashes reserved) names
      c.entries.Pairwise (· < ·) ∧
      (∀ name, name ∈ c.entries ↔ Owns ending reserved names name) ∧
      (c.places.map (·.1.digest)).Nodup ∧
      (∀ u, (c.place? u).isSome = true ↔ ∃ name ∈ names, Admissible ending reserved name ∧
        (UnitId.ofEntry name ending == u) = true) ∧
      ∀ u i, c.place? u = some i ↔ ∃ name, c.entries[i]? = some name ∧
        (UnitId.ofEntry name ending == u) = true) ∧
    ∀ requests, let as := (new ending reserved).after requests
      (∀ a ∈ as.archives, ∀ i, a.state = .indexed i →
        i.catalog = .ofNames ending (dropSlashes reserved) i.directory.names) ∧
      ∀ d u r, (as.find d u).1 = some r ↔ ∃ front back, as.paths = front ++ r.archive :: back ∧
        (∀ p ∈ front, ∀ name ∈ (as.entries d p).1, (UnitId.ofEntry name ending == u) = false) ∧
        ∀ name, name ∈ (as.entries d r.archive).1 ∧ (UnitId.ofEntry name ending == u) = true ↔
          name = r.entry := by
  constructor
  · intro names c
    have owned : Owned ending c.owners := Catalog.owned_ofNames ending (dropSlashes reserved) names
    refine ⟨Catalog.increasing_entries owned, fun name => Catalog.mem_entries_ofNames, ?_,
      fun u => Catalog.place?_isSome, fun u i => Catalog.place?_eq_some owned⟩
    have distinct := owned.distinct
    rw [Catalog.owners, List.map_map] at distinct
    exact distinct
  · intro requests as
    have remembers := (remembers_new ending reserved).after requests
    obtain ⟨endings, reserve⟩ : as.ending = ending ∧ as.reserved = dropSlashes reserved :=
      (new ending reserved).options_after requests
    constructor
    · have catalogued : as.Catalogued :=
        (catalogued_new ending reserved).after List.nodup_nil requests
      rw [Catalogued, endings, reserve] at catalogued
      exact catalogued
    · intro d u r
      rw [find_eq_some remembers.distinct remembers.kept, show as.ending = ending from endings]

end Archives
end LayerCache
