import LayerCache.Proofs.Openings

/-! Archives in use while their files come and go. An archive is as its file was when a request
reached it first, whatever lies on the disk by then. -/
namespace LayerCache

/-- The catalog of an archive that was opened, if that went well. -/
def ArchiveState.known : ArchiveState → Option (Option Catalog)
  | .unopened => none
  | .unavailable => some none
  | .indexed i => some (some i.catalog)

namespace Archive

variable {a : Archive} {d : Disk} {p : Path} {ending reserved : String}

def catalog (d : Disk) (p : Path) (ending reserved : String) : Except ArchiveError Catalog :=
  (index d p ending reserved).map (·.catalog)

/-- What there is to know of an archive that was opened on an earlier disk, or else is now. -/
def remembered (d : Disk) (p : Path) (ending reserved : String) : Option Disk → Except ArchiveError Catalog
  | none => catalog d p ending reserved
  | some before => (catalog before p ending reserved).mapError fun _ => .missing p

theorem known_opened (a : Archive) (d : Disk) (ending reserved : String) :
    (a.opened d ending reserved).2.state.known =
      a.state.known.or (some (catalog d a.path ending reserved).toOption) := by
  unfold opened catalog
  cases known : a.state with
  | unopened =>
    cases indexed : index d a.path ending reserved with
    | error e => rfl
    | ok i => rfl
  | unavailable => simp [known, ArchiveState.known]
  | indexed i => simp [known, ArchiveState.known]

/-- An opening says what the first one found. -/
theorem catalog_opened {seen : Option Disk} (d : Disk)
    (known : a.state.known = seen.map fun before => (catalog before a.path ending reserved).toOption) :
    (a.opened d ending reserved).1.map (·.catalog) = remembered d a.path ending reserved seen := by
  rcases a with ⟨path, state⟩
  cases seen with
  | none =>
    cases state with
    | unopened =>
      simp only [opened, remembered, catalog]
      cases index d path ending reserved with
      | error e => rfl
      | ok i => rfl
    | unavailable => cases known
    | indexed i => cases known
  | some before =>
    simp only [Option.map_some] at known
    simp only [remembered]
    cases found : catalog before path ending reserved with
    | error e =>
      rw [found] at known
      cases state with
      | unopened => cases known
      | unavailable => rfl
      | indexed i => cases known
    | ok c =>
      rw [found] at known
      cases state with
      | unopened => cases known
      | unavailable => cases known
      | indexed i =>
        cases known
        rfl

end Archive

open EntryName

namespace Archives

variable {d : Disk} {ending reserved : String} {u : UnitId} {p q : Path} {all : List Archive}
  {as : Archives} {a : Archive} {r : EntryRef}

theorem openIn_eq (distinct : ((all.map (·.path)).map Archive.key).Nodup) (member : a ∈ all)
    (same : Archive.key p = Archive.key a.path) :
    (openIn d ending reserved p all).1 = (a.opened d ending reserved).1 := by
  induction all with
  | nil => cases member
  | cons b rest ih =>
    rw [List.map_cons, List.map_cons, List.nodup_cons] at distinct
    simp only [openIn]
    rcases List.mem_cons.mp member with rfl | later
    · rw [if_pos same.symm]
    · have other : Archive.key b.path ≠ Archive.key p := by
        intro here
        exact distinct.1 (List.mem_map.mpr ⟨a.path, List.mem_map_of_mem later, (here.trans same).symm⟩)
      rw [if_neg other]
      exact ih distinct.2 later

/-- One archive is opened. -/
theorem state_of_openIn (distinct : ((all.map (·.path)).map Archive.key).Nodup)
    (member : a ∈ (openIn d ending reserved p all).2) : ∃ b ∈ all, b.path = a.path ∧
      a.state = if Archive.key b.path = Archive.key p then (b.opened d ending reserved).2.state
        else b.state := by
  induction all with
  | nil => cases member
  | cons b rest ih =>
    rw [List.map_cons, List.map_cons, List.nodup_cons] at distinct
    simp only [openIn] at member
    split at member
    · rename_i here
      rcases List.mem_cons.mp member with rfl | later
      · exact ⟨b, List.mem_cons_self .., (path_opened ..).symm, by rw [if_pos here]⟩
      · have other : Archive.key a.path ≠ Archive.key p := by
          intro same
          exact distinct.1 (List.mem_map.mpr ⟨a.path, List.mem_map_of_mem later, same.trans here.symm⟩)
        exact ⟨a, List.mem_cons_of_mem _ later, rfl, by rw [if_neg other]⟩
    · rename_i other
      rcases List.mem_cons.mp member with rfl | later
      · exact ⟨a, List.mem_cons_self .., rfl, by rw [if_neg other]⟩
      · obtain ⟨c, inside, found⟩ := ih distinct.2 later
        exact ⟨c, List.mem_cons_of_mem _ inside, found⟩

theorem findIn_eq (d : Disk) (ending reserved : String) (u : UnitId) (all : List Archive) :
    (findIn d ending reserved u all).1 = all.findSome? fun a =>
      ((a.opened d ending reserved).1.toOption.bind (·.entryOf u)).map (⟨a.path, ·⟩) := by
  induction all with
  | nil => rfl
  | cons a rest ih =>
    simp only [findIn, List.findSome?_cons]
    split
    · rename_i entry found
      rw [found, path_opened]
      rfl
    · rename_i missing
      rw [missing]
      exact ih

/-- The archives up to the first that holds the unit are opened. -/
theorem state_of_findIn (distinct : (all.map (·.path)).Nodup)
    (member : a ∈ (findIn d ending reserved u all).2) : ∃ b ∈ all, b.path = a.path ∧
      a.state = if (all.takeWhile (·.path != b.path)).all (fun c =>
          ((c.opened d ending reserved).1.toOption.bind (·.entryOf u)).isNone)
        then (b.opened d ending reserved).2.state else b.state := by
  induction all with
  | nil => cases member
  | cons b rest ih =>
    rw [List.map_cons, List.nodup_cons] at distinct
    have other : ∀ c ∈ rest, b.path ≠ c.path := by
      intro c inside same
      exact distinct.1 (same ▸ List.mem_map_of_mem inside)
    simp only [findIn] at member
    split at member
    · rename_i entry found
      rcases List.mem_cons.mp member with rfl | later
      · exact ⟨b, List.mem_cons_self .., (path_opened ..).symm, by simp⟩
      · exact ⟨a, List.mem_cons_of_mem _ later, rfl, by simp [other a later, found]⟩
    · rename_i missing
      rcases List.mem_cons.mp member with rfl | later
      · exact ⟨b, List.mem_cons_self .., (path_opened ..).symm, by simp⟩
      · obtain ⟨c, inside, path, state⟩ := ih distinct.2 later
        exact ⟨c, List.mem_cons_of_mem _ inside, path, by simpa [other c inside, missing] using state⟩

theorem entries_eq (as : Archives) (d : Disk) (p : Path) :
    (as.entries d p).1 = ((as.openAt d p).1.toOption.map (·.entries)).getD [] := by
  unfold entries
  split
  rename_i result after opened
  rw [opened]
  cases result with
  | error e => rfl
  | ok i => rfl

theorem read_eq (as : Archives) (d : Disk) (r : EntryRef) :
    (as.read d r).1 = (as.openAt d r.archive).1.bind fun i =>
      (i.read d r.entry).1.mapError (.unreadable r.archive r.entry) := by
  unfold read
  split
  rename_i result after opened
  rw [opened]
  cases result with
  | error e => rfl
  | ok i => rfl

/-- A search opens one archive after the other. -/
theorem find_eq (distinct : (as.paths.map Archive.key).Nodup) (d : Disk) (u : UnitId) :
    (as.find d u).1 = as.paths.findSome? fun p =>
      ((as.openAt d p).1.toOption.bind (·.entryOf u)).map (⟨p, ·⟩) := by
  rw [paths, List.findSome?_map]
  refine (findIn_eq d as.ending as.reserved u as.archives).trans (findSome?_congr fun a member => ?_)
  have answer : (as.openAt d a.path).1 = (a.opened d as.ending as.reserved).1 :=
    openIn_eq distinct member rfl
  simp only [Function.comp_apply, answer]

/-- An archive offers a unit if it lists an entry of it. -/
def offers (as : Archives) (d : Disk) (p : Path) (u : UnitId) : Bool :=
  (as.entries d p).1.any fun name => .ofEntry name as.ending == u

/-- An opened archive leads from a unit to the entry of it that is listed. -/
theorem entryOf_openAt (kept : as.Kept as.ending) {name : String} :
    (as.openAt d p).1.toOption.bind (·.entryOf u) = some name ↔
      name ∈ (as.entries d p).1 ∧ (UnitId.ofEntry name as.ending == u) = true := by
  obtain ⟨held, settled, listed⟩ := as.entries_settles d p
  have owned : Owned as.ending held := kept.entries.owned settled
  have here : (as.entries d p).2.settled p = some (holdings (as.openAt d p).1) := by
    have opened := settled_openAt as d p
    unfold entries
    split
    rename_i known
    rw [known] at opened ⊢
    split
    · exact opened
    · exact opened
  obtain rfl : held = holdings (as.openAt d p).1 := Option.some.inj (settled.symm.trans here)
  rw [← entryIn_holdings, listed]
  simp only [sortedEntries, List.mem_mergeSort, List.mem_map, Prod.exists, exists_eq_right]
  constructor
  · intro found
    obtain ⟨v, member, same⟩ := mem_of_entryIn found
    exact ⟨⟨v, member⟩, owned.named v name member ▸ same⟩
  · rintro ⟨⟨v, member⟩, same⟩
    rw [← owned.named v name member] at same
    exact owned.entryIn_eq member same

theorem offers_eq (kept : as.Kept as.ending) (d : Disk) (p : Path) (u : UnitId) :
    as.offers d p u = ((as.openAt d p).1.toOption.bind (·.entryOf u)).isSome := by
  rw [Bool.eq_iff_iff, offers, List.any_eq_true, Option.isSome_iff_exists]
  exact exists_congr fun name => (entryOf_openAt kept).symm

/-! Requests in a row. -/

/-- What can be asked of archives. -/
inductive Request where
  | register (path : Path)
  | openAt (path : Path)
  | find (unit : UnitId)
  | entries (path : Path)
  | read (entry : EntryRef)

/-- The archives after a request. -/
def next (as : Archives) (d : Disk) : Request → Archives
  | .register p => (as.register p).2
  | .openAt p => (as.openAt d p).2
  | .find u => (as.find d u).2
  | .entries p => (as.entries d p).2
  | .read r => (as.read d r).2

/-- The archives after some requests, each made on the disk as it is by then. -/
def after (as : Archives) (requests : List (Disk × Request)) : Archives :=
  requests.foldl (fun as (d, request) => as.next d request) as

/-- An archive is reached by its key, or by a search unless one before it offers the unit. -/
def reaches (as : Archives) (d : Disk) (p : Path) : Request → Bool
  | .register _ => false
  | .openAt q | .entries q => as.paths.contains p && Archive.key p == Archive.key q
  | .read r => as.paths.contains p && Archive.key p == Archive.key r.archive
  | .find u => as.paths.contains p && (as.paths.takeWhile (· != p)).all fun q => !as.offers d q u

/-- The disk on which an archive was reached first. -/
def seen (as : Archives) (p : Path) : List (Disk × Request) → Option Disk
  | [] => none
  | (d, request) :: rest =>
    if as.reaches d p request then some d else (as.next d request).seen p rest

theorem options_next (as : Archives) (d : Disk) (request : Request) :
    (as.next d request).ending = as.ending ∧ (as.next d request).reserved = as.reserved := by
  cases request with
  | register p =>
    simp only [next, register]
    split <;> exact ⟨rfl, rfl⟩
  | openAt p => exact as.options_openAt d p
  | find u => exact as.options_find d u
  | entries p => exact as.options_entries d p
  | read r => exact as.options_read d r

theorem prefix_next (as : Archives) (d : Disk) (request : Request) :
    as.paths <+: (as.next d request).paths := by
  cases request with
  | register p =>
    simp only [next, register]
    split
    · exact List.prefix_rfl
    · simp [paths]
  | openAt p => exact (as.paths_openAt d p) ▸ List.prefix_rfl
  | find u => exact (as.paths_find d u) ▸ List.prefix_rfl
  | entries p => exact (as.paths_entries d p) ▸ List.prefix_rfl
  | read r => exact (as.paths_read d r) ▸ List.prefix_rfl

theorem distinct_next (distinct : (as.paths.map Archive.key).Nodup) (d : Disk) (request : Request) :
    ((as.next d request).paths.map Archive.key).Nodup := by
  cases request with
  | register p => exact distinct_register distinct p
  | openAt p => rwa [next, paths_openAt]
  | find u => rwa [next, paths_find]
  | entries p => rwa [next, paths_entries]
  | read r => rwa [next, paths_read]

theorem Kept.next (kept : as.Kept ending) (d : Disk) (request : Request) :
    (as.next d request).Kept ending := by
  cases request with
  | register p => exact kept.register p
  | openAt p => exact kept.openAt
  | find u => exact kept.find
  | entries p => exact kept.entries
  | read r => exact kept.read

theorem after_append (as : Archives) (requests more : List (Disk × Request)) :
    as.after (requests ++ more) = (as.after requests).after more := List.foldl_append ..

theorem prefix_after (as : Archives) (requests : List (Disk × Request)) :
    as.paths <+: (as.after requests).paths := by
  induction requests generalizing as with
  | nil => exact List.prefix_rfl
  | cons call rest ih => exact (as.prefix_next call.1 call.2).trans (ih _)

/-! What a request makes of each archive. -/

theorem reaches_of_not_mem (absent : p ∉ as.paths) (d : Disk) (request : Request) :
    as.reaches d p request = false := by
  cases request <;> simp [reaches, absent]

theorem contains_path (member : a ∈ as.archives) : as.paths.contains a.path = true := by
  simpa [paths] using ⟨a, member, rfl⟩

/-- By a key one archive is reached. -/
theorem known_openAt (distinct : (as.paths.map Archive.key).Nodup)
    (member : a ∈ (as.openAt d p).2.archives) : ∃ b ∈ as.archives, b.path = a.path ∧
      a.state.known = if Archive.key b.path == Archive.key p
        then (b.opened d as.ending as.reserved).2.state.known else b.state.known := by
  obtain ⟨b, inside, path, state⟩ := state_of_openIn distinct member
  refine ⟨b, inside, path, ?_⟩
  rw [state, apply_ite ArchiveState.known]
  simp only [beq_iff_eq]

theorem known_entries (distinct : (as.paths.map Archive.key).Nodup)
    (member : a ∈ (as.entries d p).2.archives) : ∃ b ∈ as.archives, b.path = a.path ∧
      a.state.known = if Archive.key b.path == Archive.key p
        then (b.opened d as.ending as.reserved).2.state.known else b.state.known := by
  refine known_openAt distinct ?_
  unfold entries at member
  split at member
  rename_i opened
  rw [opened]
  split at member
  · exact member
  · exact member

/-- Reading tells nothing new of what an archive holds. -/
theorem known_read (distinct : (as.paths.map Archive.key).Nodup)
    (member : a ∈ (as.read d r).2.archives) : ∃ b ∈ as.archives, b.path = a.path ∧
      a.state.known = if Archive.key b.path == Archive.key r.archive
        then (b.opened d as.ending as.reserved).2.state.known else b.state.known := by
  have opened := fun a => @known_openAt d r.archive as a distinct
  have found : ∀ i, (as.openAt d r.archive).1 = .ok i → ∃ a ∈ (as.openAt d r.archive).2.archives,
      Archive.key a.path = Archive.key r.archive ∧ a.state = .indexed i := fun _ ok => openIn_ok ok
  have keys : ((as.openAt d r.archive).2.archives.map fun a => Archive.key a.path).Nodup := by
    rw [← as.paths_openAt d r.archive, paths, List.map_map] at distinct
    exact distinct
  unfold read at member
  split at member
  rename_i known
  rw [known] at opened found keys
  split at member
  · exact opened a member
  · rename_i i
    obtain ⟨b, old, same⟩ := List.mem_map.mp member
    split at same
    · rename_i asked
      obtain ⟨c, inside, here, state⟩ := found i rfl
      obtain rfl : b = c := List.inj_on_of_nodup_map keys old inside (asked.trans here.symm)
      obtain ⟨first, there, path, told⟩ := opened b old
      refine ⟨first, there, path.trans (by rw [← same]), ?_⟩
      rw [← told, ← same, state]
      rfl
    · rw [← same]
      exact opened b old

/-- By a search those are reached that no archive before them makes needless. -/
theorem known_find (distinct : (as.paths.map Archive.key).Nodup) (kept : as.Kept as.ending)
    (member : a ∈ (as.find d u).2.archives) : ∃ b ∈ as.archives, b.path = a.path ∧
      a.state.known = if (as.paths.takeWhile (· != b.path)).all (fun q => !as.offers d q u)
        then (b.opened d as.ending as.reserved).2.state.known else b.state.known := by
  obtain ⟨b, inside, path, state⟩ := state_of_findIn (List.Nodup.of_map _ distinct) member
  have same : (as.paths.takeWhile (· != b.path)).all (fun q => !as.offers d q u) =
      (as.archives.takeWhile (·.path != b.path)).all fun c =>
        ((c.opened d as.ending as.reserved).1.toOption.bind (·.entryOf u)).isNone := by
    rw [paths, List.takeWhile_map, List.all_map, Bool.eq_iff_iff, List.all_eq_true, List.all_eq_true]
    refine forall₂_congr fun c before => ?_
    have there : c ∈ as.archives := List.takeWhile_subset _ before
    have answer : (as.openAt d c.path).1 = (c.opened d as.ending as.reserved).1 :=
      openIn_eq distinct there rfl
    simp [offers_eq kept, answer]
  refine ⟨b, inside, path, ?_⟩
  rw [state, same, apply_ite ArchiveState.known]

theorem known_next (distinct : (as.paths.map Archive.key).Nodup) (kept : as.Kept as.ending)
    {request : Request} (member : a ∈ (as.next d request).archives) :
    (a.path ∉ as.paths ∧ a.state.known = none) ∨ ∃ b ∈ as.archives, b.path = a.path ∧
      a.state.known = if as.reaches d b.path request
        then (b.opened d as.ending as.reserved).2.state.known else b.state.known := by
  cases request with
  | register p =>
    simp only [next, register] at member
    split at member
    · exact .inr ⟨a, member, rfl, rfl⟩
    · rename_i free
      rcases List.mem_append.mp member with old | new
      · exact .inr ⟨a, old, rfl, rfl⟩
      · obtain rfl := List.mem_singleton.mp new
        refine .inl ⟨fun known => free ?_, rfl⟩
        obtain ⟨b, inside, same⟩ := List.mem_map.mp known
        exact List.any_eq_true.mpr ⟨b, inside, by simp [same]⟩
  | openAt p =>
    obtain ⟨b, inside, path, state⟩ := known_openAt distinct member
    exact .inr ⟨b, inside, path, by rwa [reaches, contains_path inside, Bool.true_and]⟩
  | find u =>
    obtain ⟨b, inside, path, state⟩ := known_find distinct kept member
    exact .inr ⟨b, inside, path, by rwa [reaches, contains_path inside, Bool.true_and]⟩
  | entries p =>
    obtain ⟨b, inside, path, state⟩ := known_entries distinct member
    exact .inr ⟨b, inside, path, by rwa [reaches, contains_path inside, Bool.true_and]⟩
  | read r =>
    obtain ⟨b, inside, path, state⟩ := known_read distinct member
    exact .inr ⟨b, inside, path, by rwa [reaches, contains_path inside, Bool.true_and]⟩

/-- What is known of each archive is what it held on the disk on which it was reached first. -/
structure Remembers (as : Archives) (seen : Path → Option Disk) : Prop where
  distinct : (as.paths.map Archive.key).Nodup
  kept : as.Kept as.ending
  known : ∀ a ∈ as.archives, a.state.known =
    (seen a.path).map fun d => (Archive.catalog d a.path as.ending as.reserved).toOption
  fresh : ∀ p, p ∉ as.paths → seen p = none

theorem remembers_new (ending reserved : String) : (new ending reserved).Remembers fun _ => none where
  distinct := List.nodup_nil
  kept := kept_new ending reserved
  known _ none := by cases none
  fresh _ _ := rfl

theorem Remembers.next {seen : Path → Option Disk} (remembers : as.Remembers seen) (d : Disk)
    (request : Request) : (as.next d request).Remembers fun p =>
      (seen p).or (if as.reaches d p request then some d else none) := by
  obtain ⟨ending, reserved⟩ := as.options_next d request
  refine ⟨distinct_next remembers.distinct d request,
    by rw [ending]; exact remembers.kept.next d request, ?_, ?_⟩
  · intro a member
    rw [ending, reserved]
    rcases known_next remembers.distinct remembers.kept member with
      ⟨new, unknown⟩ | ⟨b, inside, path, state⟩
    · rw [unknown, remembers.fresh _ new, reaches_of_not_mem new]
      rfl
    · rw [state, ← path, Archive.known_opened, remembers.known b inside]
      rcases seen b.path with _ | before
      · cases as.reaches d b.path request <;> rfl
      · cases as.reaches d b.path request <;> rfl
  · intro p absent
    have new : p ∉ as.paths := fun old => absent ((as.prefix_next d request).subset old)
    rw [remembers.fresh p new, reaches_of_not_mem new]
    rfl

theorem Remembers.after {seen : Path → Option Disk} (remembers : as.Remembers seen)
    (requests : List (Disk × Request)) :
    (as.after requests).Remembers fun p => (seen p).or (as.seen p requests) := by
  induction requests generalizing as seen with
  | nil => simpa [Archives.after, Archives.seen] using remembers
  | cons call rest ih =>
    obtain ⟨d, request⟩ := call
    have last := ih (remembers.next d request)
    have same : ∀ p, ((seen p).or (if as.reaches d p request then some d else none)).or
        ((as.next d request).seen p rest) = (seen p).or (as.seen p ((d, request) :: rest)) := by
      intro p
      rw [Option.or_assoc, Archives.seen]
      split <;> rfl
    simp only [same] at last
    exact last

/-- The disk of the first request that reached an archive is never replaced. -/
theorem seen_append (as : Archives) (p : Path) (requests more : List (Disk × Request)) :
    as.seen p (requests ++ more) = (as.seen p requests).or ((as.after requests).seen p more) := by
  induction requests generalizing as with
  | nil => rfl
  | cons call rest ih =>
    obtain ⟨d, request⟩ := call
    simp only [List.cons_append, seen]
    split
    · rfl
    · exact ih _

section

variable {seen : Path → Option Disk}

theorem Remembers.openAt (remembers : as.Remembers seen) (d : Disk) (known : p ∈ as.paths)
    (same : Archive.key q = Archive.key p) :
    (as.openAt d q).1.map (·.catalog) = Archive.remembered d p as.ending as.reserved (seen p) := by
  obtain ⟨a, member, rfl⟩ := List.mem_map.mp known
  have answer : (as.openAt d q).1 = (a.opened d as.ending as.reserved).1 :=
    openIn_eq remembers.distinct member same
  rw [answer]
  exact Archive.catalog_opened d (remembers.known a member)

theorem Remembers.entries (remembers : as.Remembers seen) (d : Disk) (known : p ∈ as.paths)
    (same : Archive.key q = Archive.key p) : (as.entries d q).1 =
      ((Archive.remembered d p as.ending as.reserved (seen p)).toOption.map (·.entries)).getD [] := by
  rw [entries_eq, ← remembers.openAt d known same]
  cases (as.openAt d q).1 <;> rfl

theorem Remembers.find (remembers : as.Remembers seen) (d : Disk) (u : UnitId) :
    (as.find d u).1 = as.paths.findSome? fun p =>
      ((Archive.remembered d p as.ending as.reserved (seen p)).toOption.bind (·.entryOf u)).map (⟨p, ·⟩) := by
  refine (find_eq remembers.distinct d u).trans (findSome?_congr fun p member => ?_)
  rw [← remembers.openAt d member rfl]
  cases (as.openAt d p).1 <;> rfl

/-- Reading fails as opening does, or else for the entry. -/
theorem Remembers.read (remembers : as.Remembers seen) (d : Disk) (known : p ∈ as.paths)
    (same : Archive.key q = Archive.key p) (entry : String) :
    match Archive.remembered d p as.ending as.reserved (seen p) with
    | .error e => (as.read d ⟨q, entry⟩).1 = .error e
    | .ok _ => ∀ e, (as.read d ⟨q, entry⟩).1 = .error e → ∃ fault, e = .unreadable q entry fault := by
  rw [← remembers.openAt d known same, read_eq]
  cases (as.openAt d q).1 with
  | error e => rfl
  | ok i =>
    intro e failed
    cases content : (i.read d entry).1 with
    | error fault =>
      simp only [Except.bind, content] at failed
      exact ⟨fault, (Except.error.inj failed).symm⟩
    | ok bytes =>
      simp only [Except.bind, content] at failed
      cases failed

end

theorem options_after (as : Archives) (requests : List (Disk × Request)) :
    (as.after requests).ending = as.ending ∧ (as.after requests).reserved = as.reserved := by
  induction requests generalizing as with
  | nil => exact ⟨rfl, rfl⟩
  | cons call rest ih =>
    obtain ⟨ending, reserved⟩ := as.options_next call.1 call.2
    exact ⟨(ih _).1.trans ending, (ih _).2.trans reserved⟩

/-- A path that was registered leads to an archive. -/
theorem registered_after {requests : List (Disk × Request)} (member : (d, .register q) ∈ requests) :
    ∃ p ∈ (as.after requests).paths, Archive.key q = Archive.key p := by
  obtain ⟨front, back, rfl⟩ := List.append_of_mem member
  have there : ∃ p ∈ ((as.after front).register q).2.paths, Archive.key q = Archive.key p := by
    simp only [register]
    split
    · rename_i known
      obtain ⟨a, inside, same⟩ := List.any_eq_true.mp known
      exact ⟨a.path, List.mem_map_of_mem inside, (beq_iff_eq.mp same).symm⟩
    · exact ⟨q, by simp [paths], rfl⟩
  obtain ⟨p, inside, same⟩ := there
  rw [after_append]
  exact ⟨p, (prefix_after _ back).subset inside, same⟩

/-- After any requests each archive is as its file was when one of them reached it first. Only that
request sees why an opening failed. -/
theorem after_recalls (ending reserved : String) (requests : List (Disk × Request)) :
    let fresh := new ending reserved
    let as := fresh.after requests
    let catalog d p := Archive.catalog d p ending (dropSlashes reserved)
    let recalled d p := Archive.remembered d p ending (dropSlashes reserved) (fresh.seen p requests)
    (as.paths.map Archive.key).Nodup ∧
    (∀ more, as.paths <+: (fresh.after (requests ++ more)).paths) ∧
    (∀ d q, (d, .register q) ∈ requests → ∃ p ∈ as.paths, Archive.key q = Archive.key p) ∧
    (∀ a ∈ as.archives, a.state.known =
      (fresh.seen a.path requests).map fun d => (catalog d a.path).toOption) ∧
    (∀ p d, fresh.seen p requests = some d → ∀ more, fresh.seen p (requests ++ more) = some d) ∧
    (∀ p ∈ as.paths, ∀ q, Archive.key q = Archive.key p → ∀ d,
      (as.openAt d q).1.map (·.catalog) = recalled d p ∧
      (as.entries d q).1 = ((recalled d p).toOption.map (·.entries)).getD [] ∧
      ∀ entry, match recalled d p with
        | .error e => (as.read d ⟨q, entry⟩).1 = .error e
        | .ok _ => ∀ e, (as.read d ⟨q, entry⟩).1 = .error e →
          ∃ fault, e = .unreadable q entry fault) ∧
    ∀ d u, (as.find d u).1 = as.paths.findSome? fun p =>
      ((recalled d p).toOption.bind (·.entryOf u)).map (⟨p, ·⟩) := by
  intro fresh as catalog recalled
  have remembers : as.Remembers (fresh.seen · requests) :=
    (remembers_new ending reserved).after requests
  obtain ⟨endings, reserve⟩ : as.ending = ending ∧ as.reserved = dropSlashes reserved :=
    fresh.options_after requests
  have recalls : ∀ d p, recalled d p =
      Archive.remembered d p as.ending as.reserved (fresh.seen p requests) := by
    intro d p
    rw [endings, reserve]
  refine ⟨remembers.distinct, ?_, fun d q => registered_after, ?_, ?_, ?_, ?_⟩
  · intro more
    rw [after_append]
    exact prefix_after as more
  · intro a member
    rw [remembers.known a member, endings, reserve]
  · intro p d first more
    rw [seen_append, first]
    rfl
  · intro p known q same d
    rw [recalls]
    exact ⟨remembers.openAt d known same, remembers.entries d known same, remembers.read d known same⟩
  · intro d u
    simp only [recalls]
    exact remembers.find d u

end Archives
end LayerCache
