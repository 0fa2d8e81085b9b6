import LayerCache.Proofs.Archives

/-! What can become of an archive: it is opened once, and then only learns where its members start.
So a property of each archive that a first opening brings about and reading keeps is never lost. -/
namespace LayerCache

/-- What the first opening makes of an archive. -/
def ArchiveState.ofIndex : Except ArchiveError Index → ArchiveState
  | .ok i => indexed i
  | .error _ => unavailable

namespace Archive

theorem opened_state (a : Archive) (d : Disk) (ending reserved : String) :
    (a.opened d ending reserved).2.state = a.state ∨
      (a.opened d ending reserved).2.state = .ofIndex (index d a.path ending reserved) := by
  unfold opened
  split
  · exact .inl rfl
  · exact .inl rfl
  · refine .inr ?_
    split
    · rename_i indexed
      rw [indexed]
      rfl
    · rename_i failed
      rw [failed]
      rfl

theorem opened_ok {a : Archive} {d : Disk} {ending reserved : String} {i : Index}
    (ok : (a.opened d ending reserved).1 = .ok i) :
    (a.opened d ending reserved).2.state = .indexed i := by
  unfold opened at ok ⊢
  split
  · rename_i known
    simp only [known, Except.ok.injEq] at ok ⊢
    rw [ok]
  · rename_i gone
    simp [gone] at ok
  · rename_i closed
    simp only [closed] at ok
    split
    · rename_i indexed
      simp only [indexed, Except.ok.injEq] at ok
      rw [ok]
    · rename_i failed
      simp [failed] at ok

end Archive

namespace Archives

variable {d : Disk} {ending reserved : String} {p : Path} {u : UnitId} {all : List Archive}
  {as : Archives} {r : EntryRef} {good : Path → ArchiveState → Prop}

def Each (good : Path → ArchiveState → Prop) (all : List Archive) : Prop :=
  ∀ a ∈ all, good a.path a.state

theorem each_opened {a : Archive} (before : good a.path a.state)
    (opens : good a.path (.ofIndex (Archive.index d a.path ending reserved))) :
    good (a.opened d ending reserved).2.path (a.opened d ending reserved).2.state := by
  rw [path_opened]
  rcases a.opened_state d ending reserved with same | first
  · rwa [same]
  · rwa [first]

theorem each_openIn (each : Each good all)
    (opens : ∀ a ∈ all, good a.path (.ofIndex (Archive.index d a.path ending reserved))) :
    Each good (openIn d ending reserved p all).2 := by
  induction all with
  | nil => exact each
  | cons a rest ih =>
    have others : Each good rest := fun b member => each b (by simp [member])
    simp only [openIn]
    split
    · intro b member
      rcases List.mem_cons.mp member with rfl | later
      · exact each_opened (each a (by simp)) (opens a (by simp))
      · exact others b later
    · intro b member
      rcases List.mem_cons.mp member with rfl | later
      · exact each b (by simp)
      · exact ih others (fun c inside => opens c (by simp [inside])) b later

theorem each_findIn (each : Each good all)
    (opens : ∀ a ∈ all, good a.path (.ofIndex (Archive.index d a.path ending reserved))) :
    Each good (findIn d ending reserved u all).2 := by
  induction all with
  | nil => exact each
  | cons a rest ih =>
    have first : good (a.opened d ending reserved).2.path (a.opened d ending reserved).2.state :=
      each_opened (each a (by simp)) (opens a (by simp))
    have others : Each good rest := fun b member => each b (by simp [member])
    simp only [findIn]
    split
    · intro b member
      rcases List.mem_cons.mp member with rfl | later
      · exact first
      · exact others b later
    · intro b member
      rcases List.mem_cons.mp member with rfl | later
      · exact first
      · exact ih others (fun c inside => opens c (by simp [inside])) b later

/-- What is opened under a path is one of the archives, told by the key of the path. -/
theorem openIn_ok {i : Index} (ok : (openIn d ending reserved p all).1 = .ok i) :
    ∃ a ∈ (openIn d ending reserved p all).2, Archive.key a.path = Archive.key p ∧
      a.state = .indexed i := by
  induction all with
  | nil => cases ok
  | cons a rest ih =>
    simp only [openIn] at ok ⊢
    split
    · rename_i here
      rw [if_pos here] at ok
      exact ⟨_, List.mem_cons_self .., by rw [path_opened]; exact here, Archive.opened_ok ok⟩
    · rename_i other
      rw [if_neg other] at ok
      obtain ⟨b, inside, same, state⟩ := ih ok
      exact ⟨b, List.mem_cons_of_mem _ inside, same, state⟩

/-- Whatever an archive holds is in the index of one of the archives. -/
theorem indexed_of_settledIn {held : List (UnitId × String)} (settled : settledIn p all = some held)
    (filled : held ≠ []) : ∃ a ∈ all, Archive.key a.path = Archive.key p ∧
      ∃ i, a.state = .indexed i ∧ i.owners = held := by
  induction all with
  | nil =>
    cases settled
    exact absurd rfl filled
  | cons a rest ih =>
    simp only [settledIn] at settled
    split at settled
    · rename_i here
      simp only [Archive.settled] at settled
      split at settled
      · cases settled
      · cases settled
        exact absurd rfl filled
      · rename_i i state
        exact ⟨a, List.mem_cons_self .., here, i, state, Option.some.inj settled⟩
    · obtain ⟨b, inside, found⟩ := ih settled
      exact ⟨b, List.mem_cons_of_mem _ inside, found⟩

/-! Which entries count is settled with the archives. -/

theorem options_find (as : Archives) (d : Disk) (u : UnitId) :
    (as.find d u).2.ending = as.ending ∧ (as.find d u).2.reserved = as.reserved := ⟨rfl, rfl⟩

theorem options_openAt (as : Archives) (d : Disk) (p : Path) :
    (as.openAt d p).2.ending = as.ending ∧ (as.openAt d p).2.reserved = as.reserved := ⟨rfl, rfl⟩

theorem options_entries (as : Archives) (d : Disk) (p : Path) :
    (as.entries d p).2.ending = as.ending ∧ (as.entries d p).2.reserved = as.reserved := by
  have opened := as.options_openAt d p
  unfold entries
  split
  rename_i known
  rw [known] at opened
  split
  · exact opened
  · exact opened

theorem options_read (as : Archives) (d : Disk) (r : EntryRef) :
    (as.read d r).2.ending = as.ending ∧ (as.read d r).2.reserved = as.reserved := by
  have opened := as.options_openAt d r.archive
  unfold read
  split
  rename_i known
  rw [known] at opened
  split
  · exact opened
  · exact opened

/-! A property of each archive. -/

theorem each_find (each : Each good as.archives) (opens : ∀ path ∈ as.paths,
      good path (.ofIndex (Archive.index d path as.ending as.reserved))) :
    Each good (as.find d u).2.archives :=
  each_findIn each fun _ member => opens _ (List.mem_map_of_mem member)

theorem each_openAt (each : Each good as.archives) (opens : ∀ path ∈ as.paths,
      good path (.ofIndex (Archive.index d path as.ending as.reserved))) :
    Each good (as.openAt d p).2.archives :=
  each_openIn each fun _ member => opens _ (List.mem_map_of_mem member)

theorem each_entries (each : Each good as.archives) (opens : ∀ path ∈ as.paths,
      good path (.ofIndex (Archive.index d path as.ending as.reserved))) :
    Each good (as.entries d p).2.archives := by
  have opened : Each good (as.openAt d p).2.archives := each_openAt each opens
  unfold entries
  split
  rename_i known
  rw [known] at opened
  split
  · exact opened
  · exact opened

theorem each_read (distinct : (as.paths.map Archive.key).Nodup) (each : Each good as.archives)
    (opens : ∀ path ∈ as.paths, good path (.ofIndex (Archive.index d path as.ending as.reserved)))
    (reads : ∀ path i, good path (.indexed i) → good path (.indexed (i.read d r.entry).2)) :
    Each good (as.read d r).2.archives := by
  have opened : Each good (as.openAt d r.archive).2.archives := each_openAt each opens
  have keys : ((as.openAt d r.archive).2.archives.map fun a => Archive.key a.path).Nodup := by
    rw [← as.paths_openAt d r.archive, paths, List.map_map] at distinct
    exact distinct
  have found : ∀ i, (as.openAt d r.archive).1 = .ok i →
      ∃ a ∈ (as.openAt d r.archive).2.archives, Archive.key a.path = Archive.key r.archive ∧
        a.state = .indexed i := fun _ ok => openIn_ok ok
  unfold read
  split
  rename_i known
  rw [known] at opened found keys
  split
  · exact opened
  · rename_i i
    obtain ⟨a, inside, here, state⟩ := found i rfl
    intro b member
    obtain ⟨c, old, same⟩ := List.mem_map.mp member
    split at same
    · rename_i asked
      -- keys tell archives apart, so the index is put back where it came from
      obtain rfl : c = a := List.inj_on_of_nodup_map keys old inside (asked.trans here.symm)
      rw [← same]
      exact reads _ i (state ▸ opened c inside)
    · rw [← same]
      exact opened c old

/-! Archives before they are opened. -/

theorem closed_ofPaths (paths : List Path) (ending reserved : String) :
    Each (fun _ state => state = .unopened) (ofPaths paths ending reserved).archives := by
  suffices all : ∀ as : Archives, Each (fun _ state => state = .unopened) as.archives →
      Each (fun _ state => state = .unopened)
        (paths.foldl (fun as p => (as.register p).2) as).archives from
    all (new ending reserved) fun _ none => by cases none
  induction paths with
  | nil => exact fun _ closed => closed
  | cons p rest ih =>
    intro as closed
    refine ih _ ?_
    simp only [register]
    split
    · exact closed
    · intro a member
      rcases List.mem_append.mp member with old | new
      · exact closed a old
      · rw [List.mem_singleton.mp new]

end Archives
end LayerCache
