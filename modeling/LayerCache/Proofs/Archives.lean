import LayerCache.Proofs.Sources
import LayerCache.Sources.Archives
import Mathlib.Data.List.Nodup

/-! Catalogs, unit by unit. When the entries are put in order the place of each moves along, so a
unit leads to the same entry as before. -/
namespace LayerCache

namespace Catalog

variable {u : UnitId}

/-- The entry of each unit. -/
def owners (c : Catalog) : List (UnitId × String) :=
  c.places.map fun (u, i) => (u, c.entries.getD i "")

theorem lt_of_mem_places (c : Catalog) {pair : UnitId × Nat} (member : pair ∈ c.places) :
    pair.2 < c.entries.length := by
  simpa using c.whole.mem_iff.mp (List.mem_map_of_mem member)

theorem perm_entries (c : Catalog) : (c.owners.map Prod.snd).Perm c.entries := by
  have all : (List.range c.entries.length).map (c.entries.getD · "") = c.entries := by
    refine List.ext_getElem (by simp) fun i _ inside => ?_
    simp [inside]
  have moved := c.whole.map (c.entries.getD · "")
  rw [all, List.map_map] at moved
  rwa [owners, List.map_map]

/-- The entries are those of the units, in order. -/
theorem entries_eq (c : Catalog) :
    c.entries = (c.owners.map Prod.snd).mergeSort fun a b => a ≤ b :=
  (c.perm_entries.symm.trans (List.mergeSort_perm ..).symm).eq_of_pairwise
    (fun _ _ _ _ => String.le_antisymm) c.ordered (Text.sorted_mergeSort _)

/-- A unit leads to its entry. -/
theorem entryOf_eq (c : Catalog) (u : UnitId) :
    c.entryOf u = (c.owners.find? (·.1 == u)).map Prod.snd := by
  rw [entryOf, place?, owners, List.find?_map]
  change _ = ((c.places.find? (·.1 == u)).map _).map _
  cases found : c.places.find? (·.1 == u) with
  | none => rfl
  | some pair =>
    have inside : pair.2 < c.entries.length := c.lt_of_mem_places (List.mem_of_find?_eq_some found)
    simp [inside]

/-- Ordering entries gives no unit the entry of another. -/
theorem owners_ofNames (ending reserved : String) (names : List String) :
    (ofNames ending reserved names).owners = EntryName.owners ending reserved names := by
  simp only [ofNames, owners]
  generalize EntryName.owners ending reserved names = listed
  refine List.ext_getElem (by simp) fun k _ inside => ?_
  have length := length_orderOf (listed.map Prod.snd)
  have perm := perm_orderOf (listed.map Prod.snd)
  rw [← length] at perm
  -- The place a unit was listed at is somewhere in the order, and is moved to just there.
  obtain ⟨j, there⟩ : ∃ j, (orderOf (listed.map Prod.snd))[j]? = some k :=
    List.mem_iff_getElem?.mp (perm.mem_iff.mpr (by simpa [length] using inside))
  have moved := getElem?_moves perm there
  simp [moved, there, inside]

end Catalog

/-- The entry of each unit that an archive holds. -/
def Index.owners (i : Index) : List (UnitId × String) := i.catalog.owners

end LayerCache

/-! What archives tell. An archive that was opened tells the same from then on, and a unit that
several of them hold is the one of the first. -/
namespace LayerCache

/-! Looking into archives registers none and forgets none. -/

namespace Archives

theorem path_opened (a : Archive) (d : Disk) (ending reserved : String) :
    (a.opened d ending reserved).2.path = a.path := by
  unfold Archive.opened
  split
  · rfl
  · rfl
  · split <;> rfl

theorem paths_openIn (d : Disk) (ending reserved : String) (p : Path) (all : List Archive) :
    (openIn d ending reserved p all).2.map (·.path) = all.map (·.path) := by
  induction all with
  | nil => rfl
  | cons a rest ih =>
    simp only [openIn]
    split
    · simp [path_opened]
    · simpa using ih

theorem paths_findIn (d : Disk) (ending reserved : String) (u : UnitId) (all : List Archive) :
    (findIn d ending reserved u all).2.map (·.path) = all.map (·.path) := by
  induction all with
  | nil => rfl
  | cons a rest ih =>
    simp only [findIn]
    split
    · simp [path_opened]
    · simpa [path_opened] using ih

@[simp] theorem paths_openAt (as : Archives) (d : Disk) (p : Path) :
    (as.openAt d p).2.paths = as.paths := paths_openIn ..

@[simp] theorem paths_find (as : Archives) (d : Disk) (u : UnitId) :
    (as.find d u).2.paths = as.paths := paths_findIn ..

@[simp] theorem paths_entries (as : Archives) (d : Disk) (p : Path) :
    (as.entries d p).2.paths = as.paths := by
  have same := paths_openAt as d p
  unfold entries
  split
  rename_i opened
  rw [opened] at same
  split <;> exact same

@[simp] theorem paths_setIndex (as : Archives) (p : Path) (i : Index) :
    (as.setIndex p i).paths = as.paths := by
  simp only [paths, setIndex, List.map_map]
  apply List.map_congr_left
  intro a _
  simp only [Function.comp_apply]
  split <;> rfl

@[simp] theorem paths_read (as : Archives) (d : Disk) (r : EntryRef) :
    (as.read d r).2.paths = as.paths := by
  have same := paths_openAt as d r.archive
  unfold read
  split
  rename_i opened
  rw [opened] at same
  split
  · exact same
  · simpa using same

end Archives

/-! An archive that was opened tells the same from then on. -/

/-- What an archive holds, once it was opened; nothing if that failed. -/
def Archive.settled (a : Archive) : Option (List (UnitId × String)) :=
  match a.state with
  | .unopened => none
  | .unavailable => some []
  | .indexed i => some i.owners

namespace Archives

variable {d : Disk} {ending reserved : String} {p q : Path} {all : List Archive}
  {held : List (UnitId × String)}

def settledIn (p : Path) : List Archive → Option (List (UnitId × String))
  | [] => some []
  | a :: rest => if Archive.key a.path = Archive.key p then a.settled else settledIn p rest

def settled (as : Archives) (p : Path) : Option (List (UnitId × String)) :=
  settledIn p as.archives

def holdings (result : Except ArchiveError Index) : List (UnitId × String) :=
  match result with
  | .ok i => i.owners
  | .error _ => []

theorem settled_opened (a : Archive) (d : Disk) (ending reserved : String) :
    (a.opened d ending reserved).2.settled = some (holdings (a.opened d ending reserved).1) := by
  unfold Archive.opened
  split
  · rename_i state
    simp [Archive.settled, state, holdings]
  · rename_i state
    simp [Archive.settled, state, holdings]
  · split
    · rfl
    · rfl

theorem opened_keeps {a : Archive} (settled : a.settled = some held) :
    (a.opened d ending reserved).2.settled = some held := by
  unfold Archive.opened
  split
  · exact settled
  · exact settled
  · rename_i state
    simp [Archive.settled, state] at settled

theorem settledIn_openIn (d : Disk) (ending reserved : String) (p : Path) (all : List Archive) :
    settledIn p (openIn d ending reserved p all).2 =
      some (holdings (openIn d ending reserved p all).1) := by
  induction all with
  | nil => rfl
  | cons a rest ih =>
    by_cases here : Archive.key a.path = Archive.key p
    · simp [openIn, here, settledIn, path_opened, settled_opened]
    · simpa [openIn, here, settledIn] using ih

theorem openIn_keeps (settled : settledIn q all = some held) :
    settledIn q (openIn d ending reserved p all).2 = some held := by
  induction all with
  | nil => exact settled
  | cons a rest ih =>
    simp only [settledIn] at settled
    by_cases opened : Archive.key a.path = Archive.key p
    · simp only [openIn, opened, if_true, settledIn, path_opened]
      rw [opened] at settled
      split
      · rename_i here
        rw [if_pos here] at settled
        exact opened_keeps settled
      · rename_i other
        rwa [if_neg other] at settled
    · simp only [openIn, opened, if_false, settledIn]
      split
      · rename_i here
        rwa [if_pos here] at settled
      · rename_i other
        rw [if_neg other] at settled
        exact ih settled

theorem findIn_keeps {u : UnitId} (settled : settledIn q all = some held) :
    settledIn q (findIn d ending reserved u all).2 = some held := by
  induction all with
  | nil => exact settled
  | cons a rest ih =>
    simp only [settledIn] at settled
    simp only [findIn]
    split
    · simp only [settledIn, path_opened]
      split
      · rename_i here
        rw [if_pos here] at settled
        exact opened_keeps settled
      · rename_i other
        rwa [if_neg other] at settled
    · simp only [settledIn, path_opened]
      split
      · rename_i here
        rw [if_pos here] at settled
        exact opened_keeps settled
      · rename_i other
        rw [if_neg other] at settled
        exact ih settled

theorem settledIn_congr (same : Archive.key p = Archive.key q) (all : List Archive) :
    settledIn p all = settledIn q all := by
  induction all with
  | nil => rfl
  | cons a rest ih => simp only [settledIn, same, ih]

theorem setIndex_keeps {as : Archives} {i : Index} (same : as.settled p = some i.owners)
    (settled : as.settled q = some held) : (as.setIndex p i).settled q = some held := by
  rcases as with ⟨all, ending, reserved⟩
  simp only [Archives.settled, setIndex] at same settled ⊢
  by_cases asked : Archive.key p = Archive.key q
  · rw [settledIn_congr asked, settled] at same
    cases same
    induction all with
    | nil => exact settled
    | cons a rest ih =>
      simp only [settledIn, List.map_cons, asked] at settled ⊢
      by_cases here : Archive.key a.path = Archive.key q
      · simp [here, Archive.settled]
      · rw [if_neg here] at settled
        simpa [here, asked] using ih settled
  · clear same
    induction all with
    | nil => exact settled
    | cons a rest ih =>
      simp only [settledIn, List.map_cons] at settled ⊢
      by_cases here : Archive.key a.path = Archive.key p
      · rw [here, if_neg asked] at settled
        simpa [here, asked] using ih settled
      · by_cases wanted : Archive.key a.path = Archive.key q
        · rw [if_pos wanted] at settled
          rwa [if_neg here, if_pos wanted]
        · rw [if_neg wanted] at settled
          simpa [here, wanted] using ih settled

theorem settled_of_none {as : Archives} (none : as.paths = []) :
    as.settled p = some [] := by
  rw [Archives.settled, List.map_eq_nil_iff.mp none]
  rfl

theorem settled_openAt (as : Archives) (d : Disk) (p : Path) :
    (as.openAt d p).2.settled p = some (holdings (as.openAt d p).1) := settledIn_openIn ..

theorem openAt_keeps {as : Archives} (settled : as.settled q = some held) :
    (as.openAt d p).2.settled q = some held := openIn_keeps settled

theorem find_keeps {as : Archives} {u : UnitId} (settled : as.settled q = some held) :
    (as.find d u).2.settled q = some held := findIn_keeps settled

theorem entries_keeps {as : Archives} (settled : as.settled q = some held) :
    (as.entries d p).2.settled q = some held := by
  have kept := openAt_keeps (d := d) (p := p) settled
  unfold entries
  split
  rename_i opened
  rw [opened] at kept
  split
  · exact kept
  · exact kept

theorem read_keeps {as : Archives} {r : EntryRef} (settled : as.settled q = some held) :
    (as.read d r).2.settled q = some held := by
  have kept := openAt_keeps (d := d) (p := r.archive) settled
  have here := settled_openAt as d r.archive
  unfold read
  split
  rename_i opened
  rw [opened] at kept here
  split
  · exact kept
  · exact setIndex_keeps here kept

/-- The entries of units, in order. -/
def sortedEntries (held : List (UnitId × String)) : List String :=
  (held.map Prod.snd).mergeSort fun a b => a ≤ b

/-- Listing an archive settles what it holds. -/
theorem entries_settles (as : Archives) (d : Disk) (p : Path) :
    ∃ held, (as.entries d p).2.settled p = some held ∧ (as.entries d p).1 = sortedEntries held := by
  have here := settled_openAt as d p
  unfold entries
  split
  rename_i opened
  rw [opened] at here
  split
  · rename_i i
    exact ⟨_, here, i.catalog.entries_eq⟩
  · exact ⟨_, here, by simp [sortedEntries, holdings]⟩

theorem entries_of_settled {as : Archives} (settled : as.settled p = some held) (d : Disk) :
    (as.entries d p).1 = sortedEntries held := by
  obtain ⟨others, same, listed⟩ := as.entries_settles d p
  rw [entries_keeps settled] at same
  cases same
  exact listed

end Archives

/-! What an archive holds. -/

namespace Chars

theorem split_dropWhile (sep : Char) (cs : List Char) :
    (split sep (cs.dropWhile (· == sep))).filter (· ≠ []) = (split sep cs).filter (· ≠ []) := by
  induction cs with
  | nil => rfl
  | cons c rest ih =>
    by_cases same : c = sep
    · rw [List.dropWhile_cons_of_pos (by simp [same]), ih, split, if_pos same]
      simp
    · rw [List.dropWhile_cons_of_neg (by simp [same])]

end Chars

namespace EntryName

/-- Slashes in front of an entry's name mean nothing to its unit. -/
theorem unit_eq (ending name : String) : unit ending name = .ofEntry name ending := by
  have clean : '\\' ∉ (dropSlashes name).toList := by
    intro member
    rw [dropSlashes, String.toList_ofList] at member
    exact Text.straight_slashes name ((List.dropWhile_suffix _).subset member)
  have pieces : ∀ cs : List Char, ((Chars.split '/' cs).map String.ofList).filter (· ≠ "") =
      ((Chars.split '/' cs).filter (· ≠ [])).map String.ofList := by
    intro cs
    rw [List.filter_map]
    congr 2
    funext piece
    simp [String.ofList_eq_empty_iff]
  have cut : ∀ raw, segmentsOf raw = (((Chars.split '/' (Text.slashes raw).toList).filter
      (· ≠ [])).map String.ofList).filter (· ≠ ".") := by
    intro raw
    rw [← pieces, List.filter_filter]
    simp only [segmentsOf, Text.split, Bool.decide_and, Bool.and_comm]
  have segments : segmentsOf (dropSlashes name) = segmentsOf name := by
    rw [cut, cut, Text.slashes_of_straight clean, dropSlashes, String.toList_ofList,
      Chars.split_dropWhile]
  simp only [unit, UnitId.ofEntry, logicalName, segments]

/-- The entry of a unit in what an archive holds. -/
def entryIn (held : List (UnitId × String)) (u : UnitId) : Option String :=
  (held.find? fun (v, _) => v == u).map Prod.snd

/-- What an archive may hold: entries under their own units, and of a unit only one. -/
structure Owned (ending : String) (held : List (UnitId × String)) : Prop where
  named : ∀ v name, (v, name) ∈ held → v = .ofEntry name ending
  filled : ∀ v name, (v, name) ∈ held → v.isEmpty = false
  distinct : (held.map (·.1.digest)).Nodup

variable {ending reserved : String} {held : List (UnitId × String)} {u v : UnitId} {name : String}

theorem owned_owners (ending reserved : String) (names : List String) :
    Owned ending (owners ending reserved names) := by
  induction names with
  | nil => exact ⟨by simp [owners], by simp [owners], by simp [owners]⟩
  | cons name rest ih =>
    simp only [owners]
    split
    · rename_i admitted
      refine ⟨?_, ?_, ?_⟩
      · intro v other member
        rcases List.mem_cons.mp member with same | later
        · obtain ⟨rfl, rfl⟩ := Prod.mk.inj same
          exact unit_eq ending other
        · exact ih.named v other (List.mem_of_mem_filter later)
      · intro v other member
        rcases List.mem_cons.mp member with same | later
        · obtain ⟨rfl, rfl⟩ := Prod.mk.inj same
          simp only [admits, Bool.and_eq_true, Bool.not_eq_true'] at admitted
          exact admitted.2
        · exact ih.filled v other (List.mem_of_mem_filter later)
      · refine List.nodup_cons.mpr ⟨?_, (ih.distinct.sublist (List.filter_sublist.map _))⟩
        intro member
        obtain ⟨pair, inside, same⟩ := List.mem_map.mp member
        have other := (List.mem_filter.mp inside).2
        have equal : (pair.1 == unit ending name) = true := UnitId.beq_iff.mpr same
        simp [equal] at other
    · exact ih

theorem mem_of_entryIn (found : entryIn held u = some name) :
    ∃ v, (v, name) ∈ held ∧ (v == u) = true := by
  obtain ⟨⟨v, other⟩, first, same⟩ := Option.map_eq_some_iff.mp found
  cases same
  exact ⟨v, List.mem_of_find?_eq_some first, by simpa using List.find?_some first⟩

theorem Owned.entryIn_eq (owned : Owned ending held) (member : (v, name) ∈ held)
    (same : (v == u) = true) : entryIn held u = some name := by
  have there : (held.find? fun (v, _) => v == u).isSome = true :=
    List.find?_isSome.mpr ⟨(v, name), member, same⟩
  obtain ⟨pair, found⟩ := Option.isSome_iff_exists.mp there
  have matched : (pair.1 == u) = true := by simpa using List.find?_some found
  have digest : pair.1.digest = v.digest :=
    (UnitId.beq_iff.mp matched).trans (UnitId.beq_iff.mp same).symm
  have equal : pair = (v, name) :=
    List.inj_on_of_nodup_map owned.distinct (List.mem_of_find?_eq_some found) member digest
  rw [entryIn, found, equal]
  rfl

theorem entryIn_congr (same : (u == v) = true) : entryIn held u = entryIn held v := by
  have digest := UnitId.beq_iff.mp same
  have alike : (fun pair : UnitId × String => pair.1 == u) = fun pair => pair.1 == v := by
    funext pair
    rw [Bool.eq_iff_iff, UnitId.beq_iff, UnitId.beq_iff, digest]
  exact congrArg (Option.map Prod.snd) (congrArg (held.find? ·) alike)

end EntryName

open EntryName

namespace Archives

variable {d : Disk} {ending reserved : String} {u v : UnitId} {p : Path} {all : List Archive}
  {as : Archives} {r : EntryRef} {held : List (UnitId × String)}

/-! Opened archives hold what archives may hold. -/

def Sorted (ending : String) (all : List Archive) : Prop :=
  ∀ a ∈ all, ∀ held, a.settled = some held → Owned ending held

theorem owned_opened {a : Archive} (owned : ∀ held, a.settled = some held → Owned ending held) :
    ∀ held, (a.opened d ending reserved).2.settled = some held → Owned ending held := by
  unfold Archive.opened
  split
  · exact owned
  · exact owned
  · split
    · rename_i i indexed
      intro held settled
      cases settled
      simp only [Archive.index] at indexed
      split at indexed
      · split at indexed
        · cases indexed
          rw [Index.owners, Catalog.owners_ofNames]
          exact owned_owners ending reserved _
        · cases indexed
      · cases indexed
      · cases indexed
    · intro held settled
      cases settled
      exact ⟨by simp, by simp, by simp⟩

theorem sorted_openIn (sorted : Sorted ending all) :
    Sorted ending (openIn d ending reserved p all).2 := by
  induction all with
  | nil => exact sorted
  | cons a rest ih =>
    have first := sorted a (by simp)
    have others : Sorted ending rest := fun b member => sorted b (by simp [member])
    simp only [openIn]
    split
    · intro b member
      rcases List.mem_cons.mp member with rfl | later
      · exact owned_opened first
      · exact others b later
    · intro b member
      rcases List.mem_cons.mp member with rfl | later
      · exact first
      · exact ih others b later

theorem sorted_findIn (sorted : Sorted ending all) :
    Sorted ending (findIn d ending reserved u all).2 := by
  induction all with
  | nil => exact sorted
  | cons a rest ih =>
    have first := @owned_opened d ending reserved a (sorted a (by simp))
    have others : Sorted ending rest := fun b member => sorted b (by simp [member])
    simp only [findIn]
    split
    · intro b member
      rcases List.mem_cons.mp member with rfl | later
      · exact first
      · exact others b later
    · intro b member
      rcases List.mem_cons.mp member with rfl | later
      · exact first
      · exact ih others b later

theorem owned_settledIn (sorted : Sorted ending all) (settled : settledIn p all = some held) :
    Owned ending held := by
  induction all with
  | nil =>
    cases settled
    exact ⟨by simp, by simp, by simp⟩
  | cons a rest ih =>
    simp only [settledIn] at settled
    split at settled
    · exact sorted a (by simp) held settled
    · exact ih (fun b member => sorted b (by simp [member])) settled

/-- Archives of entries that carry an extension. -/
structure Kept (ending : String) (as : Archives) : Prop where
  ending_eq : as.ending = ending
  sorted : Sorted ending as.archives

theorem Kept.owned (kept : as.Kept ending) (settled : as.settled p = some held) :
    Owned ending held := owned_settledIn kept.sorted settled

theorem Kept.openAt (kept : as.Kept ending) : (as.openAt d p).2.Kept ending := by
  obtain ⟨rfl, sorted⟩ := kept
  exact ⟨rfl, sorted_openIn sorted⟩

theorem Kept.find (kept : as.Kept ending) : (as.find d u).2.Kept ending := by
  obtain ⟨rfl, sorted⟩ := kept
  exact ⟨rfl, sorted_findIn sorted⟩

theorem Kept.entries (kept : as.Kept ending) : (as.entries d p).2.Kept ending := by
  have opened : (as.openAt d p).2.Kept ending := kept.openAt
  unfold Archives.entries
  split
  rename_i known
  rw [known] at opened
  split
  · exact opened
  · exact opened

theorem Kept.read (kept : as.Kept ending) : (as.read d r).2.Kept ending := by
  have opened : (as.openAt d r.archive).2.Kept ending := kept.openAt
  have here := settled_openAt as d r.archive
  unfold Archives.read
  split
  rename_i known
  rw [known] at opened here
  split
  · exact opened
  · rename_i i
    refine ⟨opened.ending_eq, ?_⟩
    intro a member
    obtain ⟨b, inside, same⟩ := List.mem_map.mp member
    split at same
    · subst same
      intro held settled
      cases settled
      exact opened.owned here
    · rw [← same]
      exact opened.sorted b inside

/-! The first archive that holds a unit. -/

/-- The entry of a unit in the first archive that holds it; no archive before that one is still to
be opened. -/
def First (as : Archives) (u : UnitId) (r : EntryRef) : Prop :=
  ∃ front back, as.paths = front ++ r.archive :: back ∧
    (∀ p ∈ front, ∃ held, as.settled p = some held ∧ entryIn held u = none) ∧
    ∃ held, as.settled r.archive = some held ∧ entryIn held u = some r.entry

theorem First.mono {later : Archives} (first : as.First u r) (paths : later.paths = as.paths)
    (settled : ∀ p held, as.settled p = some held → later.settled p = some held) :
    later.First u r := by
  obtain ⟨front, back, parts, others, held, here, found⟩ := first
  refine ⟨front, back, paths.trans parts, ?_, held, settled _ _ here, found⟩
  intro p member
  obtain ⟨held, known, lacks⟩ := others p member
  exact ⟨held, settled _ _ known, lacks⟩

theorem First.congr (first : as.First u r) (same : (u == v) = true) : as.First v r := by
  simpa only [First, entryIn_congr same] using first

/-- The entry is one of the unit. -/
theorem First.unit (first : as.First u r) (kept : as.Kept ending) :
    (UnitId.ofEntry r.entry ending == u) = true := by
  obtain ⟨_, _, _, _, held, settled, found⟩ := first
  obtain ⟨v, member, same⟩ := mem_of_entryIn found
  rwa [← (kept.owned settled).named v _ member]

/-- There is one first archive. -/
theorem First.unique {other : EntryRef} (first : as.First u r) (second : as.First u other) :
    r = other := by
  obtain ⟨front, back, parts, before, held, here, found⟩ := first
  obtain ⟨front', back', parts', before', held', here', found'⟩ := second
  have lacks : ∀ {p : Path} {one two : List (UnitId × String)} {entry : String},
      as.settled p = some one → entryIn one u = none → as.settled p = some two →
        entryIn two u ≠ some entry := by
    intro p one two entry first none second some
    rw [first] at second
    cases second
    rw [none] at some
    cases some
  rw [parts] at parts'
  rcases List.append_eq_append_iff.mp parts' with ⟨more, rfl, rest⟩ | ⟨more, rfl, rest⟩
  · rcases more with _ | ⟨p, more⟩
    · have same : r.archive = other.archive := (List.cons.inj rest).1
      rw [same, here'] at here
      cases here
      rw [found] at found'
      cases r
      cases other
      simp_all
    · obtain ⟨rfl, _⟩ := List.cons.inj rest
      obtain ⟨_, known, none⟩ := before' r.archive (by simp)
      exact absurd found (lacks known none here)
  · rcases more with _ | ⟨p, more⟩
    · have same : other.archive = r.archive := (List.cons.inj rest).1
      rw [same, here] at here'
      cases here'
      rw [found] at found'
      cases r
      cases other
      simp_all
    · obtain ⟨rfl, _⟩ := List.cons.inj rest
      obtain ⟨_, known, none⟩ := before other.archive (by simp)
      exact absurd found' (lacks known none here')

theorem entryIn_holdings (result : Except ArchiveError Index) (u : UnitId) :
    entryIn (holdings result) u = result.toOption.bind (·.entryOf u) := by
  cases result with
  | error e => rfl
  | ok i => exact (i.catalog.entryOf_eq u).symm

theorem findIn_first (distinct : ((all.map (·.path)).map Archive.key).Nodup)
    (found : (findIn d ending reserved u all).1 = some r) :
    ∃ front back, all.map (·.path) = front ++ r.archive :: back ∧
      (∀ p ∈ front, ∃ held, settledIn p (findIn d ending reserved u all).2 = some held ∧
        entryIn held u = none) ∧
      ∃ held, settledIn r.archive (findIn d ending reserved u all).2 = some held ∧
        entryIn held u = some r.entry := by
  induction all with
  | nil => cases found
  | cons a rest ih =>
    have here := settled_opened a d ending reserved
    rw [List.map_cons, List.map_cons, List.nodup_cons] at distinct
    simp only [findIn] at found ⊢
    split at found
    · rename_i entry inside
      cases found
      refine ⟨[], rest.map (·.path), by simp [path_opened], by simp,
        holdings (a.opened d ending reserved).1, ?_, ?_⟩
      · simpa [settledIn, path_opened] using here
      · rw [entryIn_holdings, inside]
    · rename_i missing
      obtain ⟨front, back, parts, before, held, known, entry⟩ := ih distinct.2 found
      have other : ∀ p ∈ rest.map (·.path), Archive.key a.path ≠ Archive.key p := by
        intro p member same
        exact distinct.1 (List.mem_map.mpr ⟨p, member, same.symm⟩)
      refine ⟨a.path :: front, back, by simp [parts], ?_, held, ?_, entry⟩
      · intro p member
        rcases List.mem_cons.mp member with rfl | later
        · exact ⟨_, by simpa [settledIn, path_opened] using here, by rw [entryIn_holdings, missing]⟩
        · obtain ⟨held, settled, lacks⟩ := before p later
          refine ⟨held, ?_, lacks⟩
          simpa [settledIn, path_opened, other p (by simp [parts, later])] using settled
      · simpa [settledIn, path_opened, other r.archive (by simp [parts])] using known

theorem find_first (distinct : (as.paths.map Archive.key).Nodup)
    (found : (as.find d u).1 = some r) : (as.find d u).2.First u r := by
  obtain ⟨front, back, parts, before, here⟩ := findIn_first distinct found
  exact ⟨front, back, by rw [paths_find]; exact parts, before, here⟩

theorem distinct_register (distinct : (as.paths.map Archive.key).Nodup) (p : Path) :
    ((as.register p).2.paths.map Archive.key).Nodup := by
  simp only [register]
  split
  · exact distinct
  · rename_i free
    simp only [isRegistered, List.any_eq_true, beq_iff_eq, not_exists, not_and] at free
    simp only [Archives.paths, List.map_append, List.map_cons, List.map_nil, List.map_map]
      at distinct ⊢
    refine List.nodup_append.mpr ⟨distinct, List.nodup_singleton _, ?_⟩
    intro key member other last same
    obtain ⟨a, known, rfl⟩ := List.mem_map.mp member
    rw [List.mem_singleton.mp last] at same
    exact free a known same

theorem Kept.register (kept : as.Kept ending) (p : Path) : (as.register p).2.Kept ending := by
  simp only [Archives.register]
  split
  · exact kept
  · refine ⟨kept.ending_eq, ?_⟩
    intro a member
    rcases List.mem_append.mp member with old | new
    · exact kept.sorted a old
    · rw [List.mem_singleton.mp new]
      exact fun held settled => by cases settled

theorem kept_new (ending reserved : String) : (new ending reserved).Kept ending :=
  ⟨rfl, fun _ none => by cases none⟩

/-- Archives before a build are told apart, and none was opened. -/
theorem fresh_ofPaths (paths : List Path) (ending reserved : String) :
    ((ofPaths paths ending reserved).paths.map Archive.key).Nodup ∧
      (ofPaths paths ending reserved).Kept ending := by
  suffices all : ∀ as : Archives, (as.paths.map Archive.key).Nodup → as.Kept ending →
      ((paths.foldl (fun as p => (as.register p).2) as).paths.map Archive.key).Nodup ∧
        (paths.foldl (fun as p => (as.register p).2) as).Kept ending from
    all (new ending reserved) List.nodup_nil (kept_new ending reserved)
  induction paths with
  | nil => exact fun as distinct kept => ⟨distinct, kept⟩
  | cons p rest ih => exact fun as distinct kept => ih _ (distinct_register distinct p) (kept.register p)

end Archives

end LayerCache
