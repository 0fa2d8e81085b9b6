import LayerCache.Disk.Edit
import LayerCache.Proofs.Dict
import LayerCache.Proofs.Path

/-! Where paths lead on a disk, and what a change of the disk leaves as it was. -/
namespace LayerCache

def Found.place : Found → Place
  | taken place _ => place
  | free folder name => folder ++ [name]

namespace Disk

variable {d d' : Disk} {place folder : Place} {name : String} {entry : Entry} {p : Path}

/-- What a disk keeps to: places in order, proper names, and a folder above every entry. -/
structure Sound (d : Disk) : Prop where
  sorted : (d.entries.pairs.map Prod.fst).Pairwise (· < ·)
  inside : ∀ folder name, d.entryAt (folder ++ [name]) ≠ none →
    IsName name ∧ d.entryAt folder = some .folder
  here : d.entryAt d.here = some .folder

@[simp] theorem entryAt_root (d : Disk) : d.entryAt [] = some .folder := rfl

namespace Sound

theorem names (sound : d.Sound) (there : d.entryAt place ≠ none) : ∀ name ∈ place, IsName name := by
  induction place using List.reverseRecOn with
  | nil => simp
  | append_singleton folder name ih =>
    obtain ⟨proper, above⟩ := sound.inside folder name there
    intro n member
    rcases List.mem_append.mp member with before | last
    · exact ih (by simp [above]) n before
    · rwa [List.mem_singleton.mp last]

theorem up (sound : d.Sound) (there : d.entryAt folder = some .folder) :
    d.entryAt folder.dropLast = some .folder := by
  rcases List.eq_nil_or_concat folder with rfl | ⟨front, name, rfl⟩
  · rfl
  · rw [List.concat_eq_append] at there ⊢
    rw [List.dropLast_concat]
    exact (sound.inside front name (by simp [there])).2

theorem above (sound : d.Sound) {names : List String} (there : d.entryAt (folder ++ names) ≠ none)
    (more : names ≠ []) : d.entryAt folder = some .folder := by
  induction names using List.reverseRecOn with
  | nil => exact absurd rfl more
  | append_singleton front name ih =>
    rw [← List.append_assoc] at there
    have next := (sound.inside _ name there).2
    rcases front with _ | ⟨first, rest⟩
    · simpa using next
    · exact ih (by simp [next]) (by simp)

theorem mem_pairs (sound : d.Sound) (filled : place ≠ []) :
    (place, entry) ∈ d.entries.pairs ↔ d.entryAt place = some entry := by
  have distinct : (d.entries.pairs.map Prod.fst).Nodup :=
    sound.sorted.imp fun {a b} less => by
      rintro rfl
      exact List.lt_irrefl a less
  simp only [entryAt, List.isEmpty_iff, filled, if_false]
  exact ⟨Dict.findIn_of_mem distinct, Dict.mem_of_findIn⟩

end Sound

/-! What is found. -/

theorem bare_of_mem_steps (member : name ∈ p.steps) : '/' ∉ name.toList := by
  simp only [Path.steps] at member
  split at member
  · rcases List.mem_append.mp member with inside | last
    · exact (Path.mem_names inside).2
    · simp [List.mem_singleton.mp last]
  · exact (Path.mem_names member).2

def Fits (d : Disk) : Found → Prop
  | .taken place entry => d.entryAt place = some entry
  | .free folder name =>
    IsName name ∧ d.entryAt folder = some .folder ∧ d.entryAt (folder ++ [name]) = none

variable {jump : Place → List String → Except Fault Found} {aim : Aim} {names : List String}
  {found : Found}

theorem follow_fits (sound : d.Sound)
    (jumps : ∀ folder names found, d.entryAt folder = some .folder →
      (∀ name ∈ names, '/' ∉ name.toList) → jump folder names = .ok found → d.Fits found)
    (start : d.entryAt folder = some .folder) (bare : ∀ name ∈ names, '/' ∉ name.toList)
    (followed : d.follow jump aim folder names = .ok found) : d.Fits found := by
  induction names generalizing folder with
  | nil =>
    cases followed
    exact start
  | cons name rest ih =>
    have later : ∀ n ∈ rest, '/' ∉ n.toList := fun n member => bare n (by simp [member])
    simp only [follow] at followed
    split at followed
    · exact ih start later followed
    rename_i named
    split at followed
    · exact ih (sound.up start) later followed
    rename_i below
    have proper : IsName name :=
      ⟨fun h => named (.inl h), fun h => named (.inr h), below, bare name (by simp)⟩
    split at followed
    · cases followed
    split at followed
    · cases followed
    split at followed
    · rename_i absent
      split at followed
      · cases followed
        exact ⟨proper, start, absent⟩
      · cases followed
    · rename_i present
      exact ih present later followed
    · rename_i target present
      split at followed
      · cases followed
        exact present
      · refine jumps _ _ _ ?_ ?_ followed
        · split
          · rfl
          · exact start
        · intro n member
          rcases List.mem_append.mp member with inside | after
          · exact bare_of_mem_steps inside
          · exact later n after
    · rename_i present
      split at followed
      · cases followed
        exact present
      · cases followed

theorem followLinks_fits (sound : d.Sound) (links : Nat)
    (start : d.entryAt folder = some .folder) (bare : ∀ name ∈ names, '/' ∉ name.toList)
    (followed : d.followLinks aim links folder names = .ok found) : d.Fits found := by
  induction links generalizing folder names found with
  | zero => exact follow_fits sound (fun _ _ _ _ _ h => by cases h) start bare followed
  | succ links ih =>
    exact follow_fits sound (fun _ _ _ start bare h => ih start bare h) start bare followed

/-- Where a path starts. -/
def startOf (d : Disk) (p : Path) : Place := if p.isAbsolute then [] else d.here

theorem findFrom_eq {steps : List String} (ok : d.findFrom aim p steps = .ok found) :
    checkText p = .ok () ∧ d.followLinks aim mostLinks (d.startOf p) steps = .ok found := by
  simp only [findFrom] at ok
  split at ok
  · cases ok
  · rename_i checked
    exact ⟨checked, ok⟩

theorem findFrom_of_follow {steps : List String} (checked : checkText p = .ok ())
    (followed : d.followLinks aim mostLinks (d.startOf p) steps = .ok found) :
    d.findFrom aim p steps = .ok found := by
  simp only [findFrom, checked]
  exact followed

theorem findFrom_fits (sound : d.Sound) {steps : List String}
    (bare : ∀ name ∈ steps, '/' ∉ name.toList)
    (ok : d.findFrom aim p steps = .ok found) : d.Fits found := by
  refine followLinks_fits sound mostLinks ?_ bare (findFrom_eq ok).2
  simp only [startOf]
  split
  · rfl
  · exact sound.here

theorem find_fits (sound : d.Sound) (ok : d.find aim p = .ok found) : d.Fits found :=
  findFrom_fits sound (fun _ => bare_of_mem_steps) ok

/-! Where a path leads by its text alone. -/

def stepTo (place : Place) (name : String) : Place :=
  if name = "" ∨ name = "." then place
  else if name = ".." then place.dropLast
  else place ++ [name]

def placeOf (d : Disk) (p : Path) : Place := p.names.foldl stepTo (d.startOf p)

/-- The places that are passed on the way. -/
def way : Place → List String → List Place
  | _, [] => []
  | place, name :: rest => stepTo place name :: way (stepTo place name) rest

/-- No link stands on the way of a path or below where it leads. -/
structure Plain (d : Disk) (p : Path) : Prop where
  way : ∀ place ∈ way (d.startOf p) p.names, ∀ target, d.entryAt place ≠ some (.link target)
  below : ∀ names target, d.entryAt (d.placeOf p ++ names) ≠ some (.link target)

theorem way_append (place : Place) (front back : List String) :
    way place (front ++ back) = way place front ++ way (front.foldl stepTo place) back := by
  induction front generalizing place with
  | nil => rfl
  | cons name rest ih => simp [way, ih]

theorem foldl_stepTo_proper (proper : ∀ name ∈ names, IsName name) :
    names.foldl stepTo place = place ++ names := by
  induction names generalizing place with
  | nil => simp
  | cons name rest ih =>
    obtain ⟨filled, inside, below, _⟩ := proper name (by simp)
    rw [List.foldl_cons, ih fun n member => proper n (by simp [member])]
    simp [stepTo, filled, inside, below]

theorem way_proper (proper : ∀ name ∈ names, IsName name) {passed : Place}
    (member : passed ∈ way place names) : ∃ front, passed = place ++ front := by
  induction names generalizing place with
  | nil => cases member
  | cons name rest ih =>
    obtain ⟨filled, inside, below, _⟩ := proper name (by simp)
    have step : stepTo place name = place ++ [name] := by simp [stepTo, filled, inside, below]
    simp only [way, step] at member
    rcases List.mem_cons.mp member with rfl | later
    · exact ⟨[name], rfl⟩
    · obtain ⟨front, rfl⟩ := ih (fun n member => proper n (by simp [member])) later
      exact ⟨name :: front, by simp⟩

/-- Where a path leads once names are put behind it. -/
theorem placeOf_joinRelative (proper : ∀ name ∈ names, IsName name) :
    d.placeOf (p.join (relativePath names)) = d.placeOf p ++ names := by
  have start : d.startOf (p.join (relativePath names)) = d.startOf p := by
    rw [startOf, startOf, Path.isAbsolute_join (Path.relative_of_names proper)]
  rw [placeOf, placeOf, start, Path.names_joinRelative proper, List.foldl_append,
    foldl_stepTo_proper proper]

theorem Plain.join (plain : d.Plain p) (proper : ∀ name ∈ names, IsName name) :
    d.Plain (p.join (relativePath names)) := by
  have start : d.startOf (p.join (relativePath names)) = d.startOf p := by
    rw [startOf, startOf, Path.isAbsolute_join (Path.relative_of_names proper)]
  constructor
  · intro place member target
    rw [start, Path.names_joinRelative proper, way_append] at member
    rcases List.mem_append.mp member with before | after
    · exact plain.way place before target
    · obtain ⟨front, rfl⟩ := way_proper proper after
      exact plain.below front target
  · intro more target
    rw [placeOf_joinRelative proper, List.append_assoc]
    exact plain.below _ target

theorem joinName_eq_join (p : Path) (name : String) :
    p.joinName name = p.join (relativePath [name]) := rfl

theorem placeOf_joinName (proper : IsName name) :
    d.placeOf (p.joinName name) = d.placeOf p ++ [name] := by
  have all : ∀ n ∈ [name], IsName n := by simpa using proper
  rw [joinName_eq_join, placeOf_joinRelative all]

theorem Plain.joinName (plain : d.Plain p) (proper : IsName name) : d.Plain (p.joinName name) := by
  have all : ∀ n ∈ [name], IsName n := by simpa using proper
  rw [joinName_eq_join]
  exact plain.join all

theorem follow_place
    (plain : ∀ place ∈ way folder names, ∀ target, d.entryAt place ≠ some (.link target))
    (followed : d.follow jump aim folder names = .ok found) :
    found.place = names.foldl stepTo folder := by
  induction names generalizing folder with
  | nil =>
    cases followed
    rfl
  | cons name rest ih =>
    have later := fun place member => plain place (List.mem_cons_of_mem _ member)
    rw [List.foldl_cons]
    simp only [follow] at followed
    split at followed
    · rename_i same
      rw [stepTo, if_pos same] at later ⊢
      exact ih later followed
    rename_i named
    split at followed
    · rename_i up
      rw [stepTo, if_neg named, if_pos up] at later ⊢
      exact ih later followed
    rename_i below
    have down : stepTo folder name = folder ++ [name] := by rw [stepTo, if_neg named, if_neg below]
    rw [down] at later ⊢
    split at followed
    · cases followed
    split at followed
    · cases followed
    split at followed
    · split at followed
      · rename_i ends
        simp only [Bool.and_eq_true, List.isEmpty_iff] at ends
        cases followed
        rw [ends.1]
        rfl
      · cases followed
    · exact ih later followed
    · rename_i target present
      exact absurd present (plain _ (by simp [way, down]) target)
    · split at followed
      · rename_i ends
        cases followed
        rw [List.isEmpty_iff.mp ends]
        rfl
      · cases followed

theorem followLinks_jump (d : Disk) (aim : Aim) (links : Nat) :
    ∃ jump, d.followLinks aim links = d.follow jump aim := by
  cases links with
  | zero => exact ⟨_, rfl⟩
  | succ links => exact ⟨_, rfl⟩

theorem foldl_mem_way (filled : names ≠ []) : names.foldl stepTo place ∈ way place names := by
  induction names generalizing place with
  | nil => exact absurd rfl filled
  | cons name rest ih =>
    rcases rest with _ | ⟨next, more⟩
    · simp [way]
    · exact List.mem_cons_of_mem _ (ih (by simp))

theorem foldl_steps (p : Path) (place : Place) :
    p.steps.foldl stepTo place = p.names.foldl stepTo place := by
  simp only [Path.steps]
  split
  · simp [stepTo]
  · rfl

theorem way_steps (member : place ∈ way folder p.steps) : place ∈ way folder p.names := by
  simp only [Path.steps] at member
  split at member
  · rename_i closed
    rw [way_append] at member
    rcases List.mem_append.mp member with inside | last
    · exact inside
    · simp only [way, stepTo, true_or, if_true, List.mem_singleton] at last
      rw [last]
      exact foldl_mem_way (by simpa using (Bool.and_eq_true_iff.mp closed).2)
  · exact member

theorem findFrom_place (plain : d.Plain p) (ok : d.findFrom aim p p.names = .ok found) :
    found.place = d.placeOf p := by
  obtain ⟨jump, follows⟩ := followLinks_jump d aim mostLinks
  have followed := (findFrom_eq ok).2
  rw [follows] at followed
  exact follow_place plain.way followed

theorem find_place (plain : d.Plain p) (ok : d.find aim p = .ok found) :
    found.place = d.placeOf p := by
  obtain ⟨jump, follows⟩ := followLinks_jump d aim mostLinks
  have followed := (findFrom_eq ok).2
  rw [follows] at followed
  rw [follow_place (fun place member => plain.way place (way_steps member)) followed, foldl_steps]
  rfl

/-! Changes. -/

/-- What stands at a place, unless it is a folder. -/
def leafAt (d : Disk) (place : Place) : Option Entry :=
  match d.entryAt place with
  | some .folder => none
  | other => other

theorem leafAt_eq_some (leaf : entry ≠ .folder) :
    d.leafAt place = some entry ↔ d.entryAt place = some entry := by
  simp only [leafAt]
  split
  · rename_i folder
    rw [folder]
    exact ⟨nofun, fun same => absurd (Option.some.inj same).symm leaf⟩
  · exact Iff.rfl

/-- A change that takes no folder away and adds no link, and leaves alone what else there is,
except at some places. -/
structure Changes (within : Place → Prop) (d d' : Disk) : Prop where
  sound : d'.Sound
  here : d'.here = d.here
  folders : ∀ place, d.entryAt place = some .folder → d'.entryAt place = some .folder
  links : ∀ place target, d'.entryAt place = some (.link target) →
    d.entryAt place = some (.link target)
  leaves : ∀ place, d'.leafAt place = d.leafAt place ∨ within place

namespace Changes

variable {within : Place → Prop} {d'' : Disk}

theorem refl (sound : d.Sound) : Changes within d d :=
  ⟨sound, rfl, fun _ h => h, fun _ _ h => h, fun _ => .inl rfl⟩

theorem trans (first : Changes within d d') (second : Changes within d' d'') :
    Changes within d d'' := by
  refine ⟨second.sound, second.here.trans first.here, ?_, ?_, ?_⟩
  · exact fun place there => second.folders place (first.folders place there)
  · exact fun place target there => first.links place target (second.links place target there)
  · intro place
    rcases second.leaves place with same | inside
    · rw [same]
      exact first.leaves place
    · exact .inr inside

theorem mono {wider : Place → Prop} (change : Changes within d d')
    (wide : ∀ place, within place → wider place) : Changes wider d d' :=
  ⟨change.sound, change.here, change.folders, change.links,
    fun place => (change.leaves place).imp id (wide place)⟩

theorem startOf (change : Changes within d d') (p : Path) : d'.startOf p = d.startOf p := by
  rw [Disk.startOf, Disk.startOf, change.here]

theorem placeOf (change : Changes within d d') (p : Path) : d'.placeOf p = d.placeOf p := by
  rw [Disk.placeOf, Disk.placeOf, change.startOf]

theorem plain (change : Changes within d d') (plain : d.Plain p) : d'.Plain p := by
  constructor
  · intro place member target there
    rw [change.startOf] at member
    exact plain.way place member target (change.links place target there)
  · intro names target there
    rw [change.placeOf] at there
    exact plain.below names target (change.links _ target there)

theorem lasting (change : Changes within d d') (outside : ¬ within place) (leaf : entry ≠ .folder)
    (there : d.entryAt place = some entry) : d'.entryAt place = some entry := by
  rw [← leafAt_eq_some leaf] at there ⊢
  rwa [(change.leaves place).resolve_right outside]

end Changes

/-- A change that takes nothing away: what differs at some places was written there. -/
def Additions (within : Place → Prop) (d d' : Disk) : Prop :=
  Changes (fun place => within place ∧ d'.leafAt place ≠ none) d d'

namespace Additions

variable {within : Place → Prop} {d'' : Disk}

theorem changes (added : Additions within d d') : Changes within d d' :=
  Changes.mono added fun _ here => here.1

theorem of_folders (made : Changes (fun _ => False) d d') : Additions within d d' :=
  made.mono fun _ none => none.elim

theorem mono {wider : Place → Prop} (added : Additions within d d')
    (wide : ∀ place, within place → wider place) : Additions wider d d' :=
  Changes.mono added fun place here => ⟨wide place here.1, here.2⟩

theorem trans (first : Additions within d d') (second : Additions within d' d'') :
    Additions within d d'' := by
  refine ⟨second.sound, second.here.trans first.here,
    fun place there => second.folders place (first.folders place there),
    fun place target there => first.links place target (second.links place target there), ?_⟩
  intro place
  rcases second.leaves place with same | written
  · rcases first.leaves place with equal | ⟨inside, there⟩
    · exact .inl (same.trans equal)
    · exact .inr ⟨inside, by rwa [same]⟩
  · exact .inr written

/-- What was there is there. -/
theorem lasts (added : Additions within d d') {place : Place} (there : d.entryAt place ≠ none) :
    d'.entryAt place ≠ none := by
  by_cases folder : d.entryAt place = some .folder
  · rw [added.folders place folder]
    exact Option.some_ne_none _
  have leaf : d'.leafAt place ≠ none := by
    rcases added.leaves place with same | ⟨_, written⟩
    · rw [same, leafAt]
      split
      · rename_i other
        exact absurd other folder
      · exact there
    · exact written
  intro gone
  exact leaf (by simp [leafAt, gone])

end Additions

/-! What is found stays where folders stay. -/

/-- What is found is found again, as what has come to stand there, if folders are folders still and
links on the way lead to the same. -/
theorem follow_kept {jump' : Place → List String → Except Fault Found} {aim' : Aim} {later : Entry}
    (reads : aim' = .file → aim = .file) (sound : d.Sound) (start : d.entryAt folder = some .folder)
    (jumps : ∀ place ∈ way folder names, ∀ target, d.entryAt place = some (.link target) →
      d'.entryAt place = some (.link target) ∧ (aim' = .self → aim = .self) ∧ ∀ rest,
        jump (if target.isAbsolute then [] else place.dropLast) (target.steps ++ rest) = .ok found →
          jump' (if target.isAbsolute then [] else place.dropLast) (target.steps ++ rest) =
            .ok (.taken found.place later))
    (folders : ∀ place, d.entryAt place = some .folder → d'.entryAt place = some .folder)
    (followed : d.follow jump aim folder names = .ok found)
    (there : d'.entryAt found.place = some later) (unlinked : ∀ target, later ≠ .link target)
    (alike : later = .folder → ∀ place entry, found = .taken place entry → entry = .folder) :
    d'.follow jump' aim' folder names = .ok (.taken found.place later) := by
  induction names generalizing folder with
  | nil =>
    cases followed
    have same : d'.entryAt folder = some later := there
    rw [folders _ start] at same
    cases same
    rfl
  | cons name rest ih =>
    have next := fun place member => jumps place (List.mem_cons_of_mem _ member)
    simp only [follow] at followed ⊢
    split at followed
    · rename_i same
      rw [stepTo, if_pos same] at next
      rw [if_pos same]
      exact ih start next followed
    rename_i named
    rw [if_neg named]
    split at followed
    · rename_i up
      rw [stepTo, if_neg named, if_pos up] at next
      rw [if_pos up]
      exact ih (sound.up start) next followed
    rename_i below
    have down : stepTo folder name = folder ++ [name] := by rw [stepTo, if_neg named, if_neg below]
    rw [down] at next
    rw [if_neg below]
    split at followed
    · cases followed
    rename_i file
    rw [if_neg fun asked => file ⟨reads asked.1, asked.2⟩]
    split at followed
    · cases followed
    rename_i short
    rw [if_neg short]
    split at followed
    · split at followed
      · rename_i ends
        cases followed
        have last : rest.isEmpty = true := (Bool.and_eq_true_iff.mp ends).1
        simp only [Found.place] at there ⊢
        rw [there]
        cases later with
        | folder => simp only [List.isEmpty_iff.mp last, follow]
        | link target => exact absurd rfl (unlinked target)
        | file | program | device => simp only [if_pos last]
      · cases followed
    · rename_i present
      rw [folders _ present]
      exact ih present next followed
    · rename_i target present
      obtain ⟨kept, whole, onward⟩ := jumps (folder ++ [name]) (by simp [way, down]) target present
      rw [List.dropLast_concat] at onward
      simp only [kept]
      split at followed
      · cases followed
        exact absurd (Option.some.inj (there.symm.trans kept)) (unlinked target)
      · rename_i passed
        have passed' : ¬ (rest.isEmpty && decide (aim' = .self)) = true := by
          simp only [Bool.and_eq_true, decide_eq_true_eq] at passed ⊢
          exact fun stops => passed ⟨stops.1, whole stops.2⟩
        rw [if_neg passed']
        exact onward rest followed
    · rename_i leaf nonfolder nonlink present
      split at followed
      · rename_i ends
        cases followed
        have other : later ≠ .folder := fun same => nonfolder (alike same _ _ rfl)
        simp only [Found.place] at there ⊢
        rw [there]
        cases later with
        | folder => exact absurd rfl other
        | link target => exact absurd rfl (unlinked target)
        | file | program | device => simp only [if_pos ends]
      · cases followed

theorem followLinks_kept {aim' : Aim} {later : Entry} {links : Nat}
    (reads : aim' = .file → aim = .file) (whole : aim' = .self → aim = .self) (sound : d.Sound)
    (start : d.entryAt folder = some .folder)
    (folders : ∀ place, d.entryAt place = some .folder → d'.entryAt place = some .folder)
    (lasting : ∀ place target, d.entryAt place = some (.link target) →
      d'.entryAt place = some (.link target))
    (followed : d.followLinks aim links folder names = .ok found)
    (there : d'.entryAt found.place = some later) (unlinked : ∀ target, later ≠ .link target)
    (alike : later = .folder → ∀ place entry, found = .taken place entry → entry = .folder) :
    d'.followLinks aim' links folder names = .ok (.taken found.place later) := by
  induction links generalizing folder names with
  | zero =>
    exact follow_kept reads sound start (fun place _ target present =>
      ⟨lasting place target present, whole, fun _ none => by cases none⟩) folders followed there
      unlinked alike
  | succ links ih =>
    refine follow_kept reads sound start (fun place _ target present =>
      ⟨lasting place target present, whole, fun rest onward => ih ?_ onward⟩) folders followed there
      unlinked alike
    rcases List.eq_nil_or_concat place with rfl | ⟨front, name, rfl⟩
    · cases present
    rw [List.concat_eq_append] at present ⊢
    rw [List.dropLast_concat]
    split
    · rfl
    · exact (sound.inside front name (by simp [present])).2

theorem stat_find (found : d.stat p = .ok (place, entry)) :
    d.find .target p = .ok (.taken place entry) := by
  simp only [stat] at found
  split at found
  · rename_i taken
    cases found
    exact taken
  · cases found
  · cases found

theorem stat_entry (sound : d.Sound) (found : d.stat p = .ok (place, entry)) :
    d.entryAt place = some entry := find_fits sound (stat_find found)

theorem stat_place (plain : d.Plain p) (found : d.stat p = .ok (place, entry)) :
    place = d.placeOf p := find_place plain (stat_find found)

theorem isFolder_iff : d.isFolder p = true ↔ ∃ place, d.stat p = .ok (place, .folder) := by
  simp only [isFolder]
  split
  · rename_i place found
    simp [found]
  · rename_i other
    simpa using fun place found => other place found

theorem startOf_entry (sound : d.Sound) (p : Path) : d.entryAt (d.startOf p) = some .folder := by
  simp only [Disk.startOf]
  split
  · rfl
  · exact sound.here

/-- What a path leads to it leads to later, over whatever links, where these stay too. -/
theorem findFrom_kept {aim' : Aim} {steps : List String} {later : Entry}
    (reads : aim' = .file → aim = .file) (whole : aim' = .self → aim = .self) (sound : d.Sound)
    (here : d'.here = d.here)
    (folders : ∀ place, d.entryAt place = some .folder → d'.entryAt place = some .folder)
    (lasting : ∀ place target, d.entryAt place = some (.link target) →
      d'.entryAt place = some (.link target)) (ok : d.findFrom aim p steps = .ok found)
    (there : d'.entryAt found.place = some later) (unlinked : ∀ target, later ≠ .link target)
    (alike : later = .folder → ∀ place entry, found = .taken place entry → entry = .folder) :
    d'.findFrom aim' p steps = .ok (.taken found.place later) := by
  obtain ⟨checked, followed⟩ := findFrom_eq ok
  have start : d'.startOf p = d.startOf p := by rw [Disk.startOf, Disk.startOf, here]
  exact findFrom_of_follow checked (start ▸ followLinks_kept reads whole sound
    (startOf_entry sound p) folders lasting followed there unlinked alike)

theorem Changes.stat {within : Place → Prop} {later : Entry} (change : Changes within d d')
    (sound : d.Sound) (plain : d.Plain p) (found : d.stat p = .ok (place, entry))
    (there : d'.entryAt place = some later) (alike : entry = .folder ∨ later ≠ .folder) :
    d'.stat p = .ok (place, later) := by
  obtain ⟨checked, followed⟩ := findFrom_eq (stat_find found)
  obtain ⟨jump, follows⟩ := followLinks_jump d .target mostLinks
  obtain ⟨jump', follows'⟩ := followLinks_jump d' .target mostLinks
  have unlinked : ∀ target, later ≠ .link target := by
    rintro target rfl
    rw [stat_place plain found] at there
    exact plain.below [] target (by simpa using change.links _ target there)
  rw [follows] at followed
  have kept : d'.follow jump' .target (d.startOf p) p.steps = .ok (.taken place later) :=
    follow_kept (by decide) sound (startOf_entry sound p)
      (fun place member target there => absurd there (plain.way place (way_steps member) target))
      change.folders followed there unlinked fun same _ _ taken => by
        cases taken
        exact alike.resolve_right (fun other => other same)
  rw [← follows', ← change.startOf] at kept
  have whole : d'.find .target p = .ok (.taken place later) := by
    simp only [find, findFrom, checked]
    exact kept
  simp only [Disk.stat, whole]

theorem Changes.isFolder {within : Place → Prop} (change : Changes within d d') (sound : d.Sound)
    (plain : d.Plain p) (opened : d.isFolder p = true) : d'.isFolder p = true := by
  obtain ⟨place, found⟩ := isFolder_iff.mp opened
  have there := change.folders _ (stat_entry sound found)
  exact isFolder_iff.mpr ⟨place, change.stat sound plain found there (.inl rfl)⟩

/-- What is not written to is found as it was. -/
theorem Changes.stat_same {within : Place → Prop} (change : Changes within d d') (sound : d.Sound)
    (plain : d.Plain p) (found : d.stat p = .ok (place, entry)) (leaf : entry ≠ .folder)
    (same : d'.leafAt (d.placeOf p) = d.leafAt (d.placeOf p)) : d'.stat p = .ok (place, entry) := by
  rw [← stat_place plain found, (leafAt_eq_some leaf).mpr (stat_entry sound found)] at same
  exact change.stat sound plain found ((leafAt_eq_some leaf).mp same) (.inr leaf)

theorem Changes.isFile {within : Place → Prop} (change : Changes within d d') (sound : d.Sound)
    (plain : d.Plain p) (file : d.isFile p = true)
    (same : d'.leafAt (d.placeOf p) = d.leafAt (d.placeOf p)) : d'.isFile p = true := by
  simp only [Disk.isFile] at file
  split at file
  · rename_i found
    simp [Disk.isFile, change.stat_same sound plain found (by simp) same]
  · rename_i found
    simp [Disk.isFile, change.stat_same sound plain found (by simp) same]
  · cases file

/-- What is not written to is read as it was. -/
theorem Changes.read {within : Place → Prop} {content : ByteArray}
    (change : d.Changes within d') (sound : d.Sound) (plain : d.Plain p)
    (read : d.read p = .ok content) (same : d'.leafAt (d.placeOf p) = d.leafAt (d.placeOf p)) :
    d'.read p = .ok content := by
  simp only [Disk.read] at read
  split at read
  · rename_i found
    simpa [Disk.read, change.stat_same sound plain found (by simp) same] using read
  · rename_i found
    simpa [Disk.read, change.stat_same sound plain found (by simp) same] using read
  · rename_i found
    simpa [Disk.read, change.stat_same sound plain found (by simp) same] using read
  · cases read
  · cases read

/-! Folders on the way to what is found. -/

/-- Goes on with more names from what was found. -/
def followOn (d : Disk) (jump : Place → List String → Except Fault Found) (aim : Aim)
    (back : List String) : Except Fault Found → Except Fault Found
  | .ok (.taken above .folder) => d.follow jump aim above back
  | .ok (.taken _ _) => .error .notFolder
  | .ok (.free _ _) => .error .notFound
  | .error fault => .error fault

/-- With no link on the way, names are followed one part after the other. -/
theorem follow_append {front back : List String} (reads : aim ≠ .file) (more : back ≠ [])
    (plain : ∀ place ∈ way folder front, ∀ target, d.entryAt place ≠ some (.link target)) :
    d.follow jump aim folder (front ++ back) =
      d.followOn jump aim back (d.follow jump aim folder front) := by
  induction front generalizing folder with
  | nil => rfl
  | cons first rest ih =>
    have next := fun place member => plain place (List.mem_cons_of_mem _ member)
    have longer : (rest ++ back).isEmpty = false := by simp [more]
    simp only [List.cons_append, follow, longer, Bool.false_and, Bool.false_eq_true, if_false,
      reads, false_and]
    by_cases same : first = "" ∨ first = "."
    · rw [stepTo, if_pos same] at next
      simp only [if_pos same]
      exact ih next
    by_cases up : first = ".."
    · rw [stepTo, if_neg same, if_pos up] at next
      simp only [if_neg same, if_pos up]
      exact ih next
    have down : stepTo folder first = folder ++ [first] := by rw [stepTo, if_neg same, if_neg up]
    rw [down] at next
    simp only [if_neg same, if_neg up]
    by_cases long : longestName < first.utf8ByteSize
    · simp only [if_pos long, followOn]
    simp only [if_neg long]
    split
    · split
      · rfl
      · rfl
    · exact ih next
    · rename_i target present
      exact absurd present (plain _ (by simp [way, down]) target)
    · rename_i leaf nonfolder nonlink present
      split
      · cases leaf with
        | folder => exact absurd rfl nonfolder
        | link target => exact absurd rfl (nonlink target)
        | file | program | device => rfl
      · rfl

/-- More names are found in the folder that the first ones lead to. -/
theorem follow_append_ok {front back : List String} (reads : aim ≠ .file) (more : back ≠ [])
    (plain : ∀ place ∈ way folder front, ∀ target, d.entryAt place ≠ some (.link target))
    (followed : d.follow jump aim folder (front ++ back) = .ok found) :
    ∃ above, d.follow jump aim folder front = .ok (.taken above .folder) ∧
      d.follow jump aim above back = .ok found := by
  rw [follow_append reads more plain] at followed
  rcases first : d.follow jump aim folder front with fault | ⟨above, entry⟩ | _
  · rw [first] at followed
    cases followed
  · rw [first] at followed
    cases entry with
    | folder => exact ⟨above, rfl, followed⟩
    | file | link | program | device => cases followed
  · rw [first] at followed
    cases followed

theorem stat_of_find (found : d.find .target p = .ok (.taken place entry)) :
    d.stat p = .ok (place, entry) := by
  simp only [stat, found]

theorem steps_joinName (proper : IsName name) : (p.joinName name).steps = p.names ++ [name] := by
  have closed : (p.joinName name).asksForFolder = false := by
    rw [Path.joinName_eq proper]
    rcases List.eq_nil_or_concat name.toList with empty | ⟨before, c, text⟩
    · exact absurd (String.toList_eq_nil_iff.mp empty) proper.filled
    · have other : c ≠ '/' := fun same => proper.bare (by simp [text, same])
      simp [Path.asksForFolder, text, other]
  simp [Path.steps, closed, Path.names_joinName proper]

/-- A path may be as long as one with more names. -/
theorem checkText_of_joinName (proper : IsName name) (filled : p.text ≠ "")
    (checked : checkText (p.joinName name) = .ok ()) : checkText p = .ok () := by
  obtain ⟨tail, longer⟩ : ∃ tail : String, (p.joinName name).text = p.text ++ tail := by
    rw [Path.joinName_eq proper, Path.lead]
    split
    · exact ⟨name, rfl⟩
    · exact ⟨"/" ++ name, by simp only [String.append_assoc]⟩
  simp only [checkText, longer] at checked
  split at checked
  · cases checked
  rename_i clean
  split at checked
  · cases checked
  split at checked
  · cases checked
  rename_i short
  rw [String.utf8ByteSize_append] at short
  have whole : ¬ (p.text.toList.contains (Char.ofNat 0) = true) := by
    intro inside
    simp only [String.toList_append, List.contains_eq_mem, List.mem_append, decide_eq_true_eq]
      at clean inside
    exact clean (.inl inside)
  rw [checkText, if_neg whole, if_neg filled, if_neg (by omega)]

/-- What stands under a name stands in a folder. -/
theorem stat_of_joinName (plain : d.Plain p) (proper : IsName name) (filled : p.text ≠ "")
    (found : d.stat (p.joinName name) = .ok (place, entry)) :
    d.stat p = .ok (d.placeOf p, .folder) := by
  obtain ⟨checked, followed⟩ := findFrom_eq (stat_find found)
  obtain ⟨jump, follows⟩ := followLinks_jump d .target mostLinks
  have start : d.startOf (p.joinName name) = d.startOf p := by
    rw [startOf, startOf, Path.isAbsolute_joinName proper]
  have short := checkText_of_joinName proper filled checked
  rw [follows, start, steps_joinName proper] at followed
  obtain ⟨above, walked, _⟩ := follow_append_ok (by decide) (by simp) plain.way followed
  have whole : d.follow jump .target (d.startOf p) p.steps = .ok (.taken above .folder) := by
    simp only [Path.steps]
    split
    · rw [follow_append (by decide) (by simp) plain.way, walked]
      simp [followOn, follow]
    · exact walked
  have here : d.find .target p = .ok (.taken above .folder) := by
    simp only [find, findFrom, short]
    rw [follows]
    exact whole
  have opened := stat_of_find here
  rw [← stat_place plain opened]
  exact opened

theorem Plain.joinNames (plain : d.Plain p) (proper : ∀ name ∈ names, IsName name) :
    d.Plain (names.foldl Path.joinName p) := by
  induction names generalizing p with
  | nil => exact plain
  | cons name rest ih =>
    exact ih (plain.joinName (proper name (by simp))) fun n member => proper n (by simp [member])

theorem placeOf_joinNames (proper : ∀ name ∈ names, IsName name) :
    d.placeOf (names.foldl Path.joinName p) = d.placeOf p ++ names := by
  induction names generalizing p with
  | nil => simp
  | cons name rest ih =>
    rw [List.foldl_cons, ih fun n member => proper n (by simp [member]),
      placeOf_joinName (proper name (by simp)), List.append_assoc, List.singleton_append]

theorem filled_joinNames (proper : ∀ name ∈ names, IsName name) (filled : p.text ≠ "") :
    (names.foldl Path.joinName p).text ≠ "" := by
  induction names generalizing p with
  | nil => exact filled
  | cons name rest ih =>
    refine ih (fun n member => proper n (by simp [member])) ?_
    rw [Path.joinName_eq (proper name (by simp))]
    simp [(proper name (by simp)).filled]

/-- So do all folders on the way to what can be found. -/
theorem stat_of_joinNames {front back : List String} (more : back ≠ []) (plain : d.Plain p)
    (proper : ∀ name ∈ front ++ back, IsName name) (filled : p.text ≠ "")
    (found : d.stat ((front ++ back).foldl Path.joinName p) = .ok (place, entry)) :
    d.stat (front.foldl Path.joinName p) = .ok (d.placeOf p ++ front, .folder) := by
  induction back using List.reverseRecOn generalizing place entry with
  | nil => exact absurd rfl more
  | append_singleton before name ih =>
    rw [← List.append_assoc, List.foldl_append] at found
    have above : ∀ n ∈ front ++ before, IsName n := fun n member => proper n (by
      rcases List.mem_append.mp member with inside | inside
      · simp [inside]
      · simp [inside])
    have opened := stat_of_joinName (plain.joinNames above) (proper name (by simp))
      (filled_joinNames above filled) found
    rw [placeOf_joinNames above] at opened
    rcases before with _ | ⟨first, rest⟩
    · simpa using opened
    · exact ih (by simp) above opened

/-! Operations. -/

@[simp] theorem entries_noteMode (d : Disk) (place : Place) (mode : Nat) :
    (d.noteMode place mode).entries = d.entries := by
  unfold noteMode
  split
  · rfl
  · rfl

@[simp] theorem here_noteMode (d : Disk) (place : Place) (mode : Nat) :
    (d.noteMode place mode).here = d.here := by
  unfold noteMode
  split
  · rfl
  · rfl

theorem entryAt_set (d : Disk) {other : Place} (filled : place ≠ []) :
    (d.set place entry).entryAt other = if other = place then some entry else d.entryAt other := by
  split
  · rename_i same
    rw [same, entryAt_set_self d filled]
  · rename_i different
    exact entryAt_set_of_ne d (Ne.symm different) entry

theorem sound_of_entries (sound : d.Sound) (entries : d'.entries = d.entries)
    (here : d'.here = d.here) : d'.Sound := by
  have same : ∀ place, d'.entryAt place = d.entryAt place := by
    intro place
    rw [entryAt, entryAt, entries]
  refine ⟨by rw [entries]; exact sound.sorted, ?_, by rw [here, same]; exact sound.here⟩
  intro folder name there
  rw [same] at there ⊢
  exact sound.inside folder name there

theorem Changes.of_entries {within : Place → Prop} {d'' : Disk} (change : Changes within d d')
    (entries : d''.entries = d'.entries) (here : d''.here = d'.here) : Changes within d d'' := by
  have same : ∀ place, d''.entryAt place = d'.entryAt place := by
    intro place
    rw [entryAt, entryAt, entries]
  refine ⟨sound_of_entries change.sound entries here, here.trans change.here, ?_, ?_, ?_⟩
  · exact fun place there => (same place).trans (change.folders place there)
  · exact fun place target there => change.links place target ((same place).symm.trans there)
  · intro place
    rw [leafAt, same]
    exact change.leaves place

theorem changes_set (sound : d.Sound) (proper : IsName name)
    (above : d.entryAt folder = some .folder) (unlinked : ∀ target, entry ≠ .link target)
    (kept : d.entryAt (folder ++ [name]) = some .folder → entry = .folder) :
    Changes (· = folder ++ [name]) d (d.set (folder ++ [name]) entry) := by
  have filled : folder ++ [name] ≠ [] := by simp
  have folders : ∀ place, d.entryAt place = some .folder →
      (d.set (folder ++ [name]) entry).entryAt place = some .folder := by
    intro place there
    rw [entryAt_set d filled]
    split
    · rename_i same
      rw [kept (same ▸ there)]
    · exact there
  refine ⟨⟨?_, ?_, folders _ sound.here⟩, rfl, folders, ?_, ?_⟩
  · refine Dict.sorted_insertIn (fun _ _ _ => List.lt_trans) ?_ sound.sorted
    intro a b other above
    exact Decidable.byContradiction fun below =>
      other (Std.Trichotomous.trichotomous a b above below)
  · intro front n there
    rw [entryAt_set d filled] at there
    split at there
    · rename_i same
      obtain ⟨rfl, last⟩ := List.append_inj' same rfl
      cases last
      exact ⟨proper, folders _ above⟩
    · obtain ⟨named, above⟩ := sound.inside front n there
      exact ⟨named, folders _ above⟩
  · intro place target there
    rw [entryAt_set d filled] at there
    split at there
    · exact absurd (Option.some.inj there) (unlinked target)
    · exact there
  · intro place
    by_cases same : place = folder ++ [name]
    · exact .inr same
    · left
      rw [leafAt, entryAt_set d filled, if_neg same, leafAt]

/-- What is set at a place, other than a folder, is written there. -/
theorem Changes.written {place : Place} (change : Changes (· = place) d d')
    (there : d'.entryAt place = some entry) (leaf : entry ≠ .folder) :
    Additions (· = place) d d' := by
  refine change.mono ?_
  rintro _ rfl
  refine ⟨rfl, ?_⟩
  rw [leafAt, there]
  cases entry with
  | folder => exact absurd rfl leaf
  | _ => simp

theorem changes_addFile (sound : d.Sound) (fits : d.Fits (.free folder name)) (content : ByteArray) :
    Additions (· = folder ++ [name]) d (d.addFile (folder ++ [name]) content) := by
  obtain ⟨proper, above, free⟩ := fits
  have change : Changes (· = folder ++ [name]) d
      (d.set (folder ++ [name]) (.file d.fresh content)) :=
    changes_set sound proper above (fun _ h => by cases h) (by simp [free])
  have added : Changes (· = folder ++ [name]) d (d.addFile (folder ++ [name]) content) :=
    change.of_entries (by simp [addFile]) (by simp [addFile])
  have there : (d.addFile (folder ++ [name]) content).entryAt (folder ++ [name]) =
      some (.file d.fresh content) := by
    simp only [entryAt, addFile, entries_noteMode]
    exact entryAt_set_self d (by simp) _
  exact added.written there (by simp)

theorem changes_addFolder (sound : d.Sound) (fits : d.Fits (.free folder name)) :
    Changes (fun _ => False) d (d.addFolder (folder ++ [name])) := by
  obtain ⟨proper, above, free⟩ := fits
  have change : Changes (· = folder ++ [name]) d (d.set (folder ++ [name]) .folder) :=
    changes_set sound proper above (fun _ h => by cases h) (fun _ => rfl)
  have made : Changes (· = folder ++ [name]) d (d.addFolder (folder ++ [name])) :=
    change.of_entries (by simp [addFolder]) (by simp [addFolder])
  refine ⟨made.sound, made.here, made.folders, made.links, ?_⟩
  intro place
  left
  rcases made.leaves place with same | rfl
  · exact same
  · have there : (d.addFolder (folder ++ [name])).entryAt (folder ++ [name]) = some .folder := by
      rw [entryAt, addFolder, entries_noteMode]
      exact entryAt_set_self d (by simp) .folder
    simp [leafAt, there, free]

theorem changes_makeFolder (sound : d.Sound) (made : d.makeFolder p = .ok d') :
    Changes (fun _ => False) d d' := by
  simp only [makeFolder] at made
  split at made
  · cases made
  · rename_i found
    cases made
    exact changes_addFolder sound (findFrom_fits sound (fun _ member => (Path.mem_names member).2) found)
  · cases made

theorem changes_makeFoldersOf (sound : d.Sound) (ups : List Path) :
    Changes (fun _ => False) d (d.makeFoldersOf ups).2 := by
  induction ups with
  | nil => exact .refl sound
  | cons p ups ih =>
    simp only [makeFoldersOf]
    split
    · exact .refl sound
    split
    · rename_i made
      exact changes_makeFolder sound made
    · split
      · rename_i above
        rw [above] at ih
        exact ih
      · rename_i above
        rw [above] at ih
        split
        · rename_i made
          exact ih.trans (changes_makeFolder ih.sound made)
        · exact ih
    · exact .refl sound

theorem changes_makeFolders (sound : d.Sound) (p : Path) :
    Changes (fun _ => False) d (d.makeFolders p).2 := changes_makeFoldersOf sound p.ancestors

/-- A file stands apart from the root, so there is a folder that holds it. -/
theorem Fits.split (sound : d.Sound) (fits : d.Fits (.taken place entry)) (leaf : entry ≠ .folder) :
    ∃ folder name, place = folder ++ [name] ∧ IsName name ∧ d.entryAt folder = some .folder := by
  have there : d.entryAt place = some entry := fits
  rcases List.eq_nil_or_concat place with rfl | ⟨folder, name, rfl⟩
  · exact absurd (Option.some.inj there).symm leaf
  · rw [List.concat_eq_append] at there ⊢
    exact ⟨folder, name, rfl, sound.inside folder name (by simp [there])⟩

/-- A write changes what is found and nothing else. -/
theorem write_changes (sound : d.Sound) {content : ByteArray}
    (written : d.write p content = .ok d') :
    ∃ found, d.find .file p = .ok found ∧ Additions (· = found.place) d d' := by
  simp only [write] at written
  split at written
  · rename_i place serial old found
    cases written
    have fits := find_fits sound found
    obtain ⟨folder, name, rfl, proper, above⟩ := fits.split sound (by simp)
    have change : Changes (· = folder ++ [name]) d
        (d.set (folder ++ [name]) (.file serial content)) :=
      changes_set sound proper above (fun _ h => by cases h) fun other => by
        simp [Fits, other] at fits
    exact ⟨_, found, change.written (entryAt_set_self d (by simp) _) (by simp)⟩
  · rename_i found
    split at written
    · cases written
    · cases written
      exact ⟨_, found, .refl sound⟩
  · cases written
  · cases written
  · rename_i found
    cases written
    exact ⟨_, found, changes_addFile sound (find_fits sound found) content⟩
  · cases written

theorem changes_write (sound : d.Sound) (plain : d.Plain p) {content : ByteArray}
    (written : d.write p content = .ok d') : Additions (· = d.placeOf p) d d' := by
  obtain ⟨found, ok, change⟩ := write_changes sound written
  rwa [find_place plain ok] at change

/-- Where no device takes it, what is written lies in a file. -/
theorem file_of_write (sound : d.Sound) {content : ByteArray}
    (stores : ∀ place device, d.find .file p ≠ .ok (.taken place (.device device)))
    (written : d.write p content = .ok d') : ∃ found serial, d.find .file p = .ok found ∧
      d'.entryAt found.place = some (.file serial content) := by
  simp only [write] at written
  split at written
  · rename_i place serial old found
    cases written
    obtain ⟨folder, name, rfl, _⟩ := (find_fits sound found).split sound (by simp)
    exact ⟨_, serial, found, entryAt_set_self d (by simp) _⟩
  · rename_i found
    exact absurd found (stores _ _)
  · cases written
  · cases written
  · rename_i folder name found
    cases written
    refine ⟨_, d.fresh, found, ?_⟩
    simp only [Found.place, entryAt, addFile, entries_noteMode]
    exact entryAt_set_self d (by simp) _
  · cases written

/-- No link is written over: it is followed. -/
theorem links_of_write (sound : d.Sound) {content : ByteArray} (written : d.write p content = .ok d')
    {target : Path} (there : d.entryAt place = some (.link target)) :
    d'.entryAt place = some (.link target) := by
  obtain ⟨found, ok, added⟩ := write_changes sound written
  have apart : place ≠ found.place := by
    rintro rfl
    have fits := find_fits sound ok
    cases found with
    | taken place entry =>
      have same : d.entryAt place = some entry := fits
      rw [Found.place, same] at there
      cases Option.some.inj there
      simp [write, ok] at written
    | free folder name =>
      rw [Found.place, fits.2.2] at there
      cases there
  exact added.changes.lasting apart (by simp) there

/-- What was written is found, over whatever links. -/
theorem stat_of_write (sound : d.Sound) {content : ByteArray}
    (stores : ∀ place device, d.find .file p ≠ .ok (.taken place (.device device)))
    (written : d.write p content = .ok d') : ∃ found serial, d.find .file p = .ok found ∧
      d'.find .file p = .ok (.taken found.place (.file serial content)) ∧
      d'.stat p = .ok (found.place, .file serial content) := by
  obtain ⟨_, _, added⟩ := write_changes sound written
  obtain ⟨found, serial, ok, there⟩ := file_of_write sound stores written
  have kept : ∀ aim' : Aim, aim' ≠ .self → d'.find aim' p =
      .ok (.taken found.place (.file serial content)) := fun aim' whole =>
    findFrom_kept (fun _ => rfl) (fun same => absurd same whole) sound added.here added.folders
      (fun _ _ => links_of_write sound written) ok there (by simp) (by simp)
  exact ⟨found, serial, ok, kept .file (by decide), stat_of_find (kept .target (by decide))⟩

/-- Whatever a path leads to after a write, if that is no device the write was to none. -/
theorem free_of_write (sound : d.Sound) {content : ByteArray}
    (stores : ∀ place device, d'.stat p ≠ .ok (place, .device device))
    (written : d.write p content = .ok d') {device : Device} :
    d.find .file p ≠ .ok (.taken place (.device device)) := by
  intro found
  have there : d.entryAt place = some (.device device) := find_fits sound found
  have same : d = d' := by
    simp only [write, found] at written
    split at written
    · cases written
    · exact Except.ok.inj written
  have looked : d.find .target p = .ok (.taken place (.device device)) :=
    findFrom_kept (by simp) (by simp) sound rfl (fun _ h => h) (fun _ _ h => h) found there (by simp)
      (by simp)
  exact stores place device (same ▸ stat_of_find looked)

theorem read_of_write (sound : d.Sound) {content : ByteArray}
    (stores : ∀ place device, d'.stat p ≠ .ok (place, .device device))
    (written : d.write p content = .ok d') : d'.read p = .ok content := by
  obtain ⟨_, _, _, _, found⟩ := stat_of_write sound
    (fun _ _ => free_of_write sound stores written) written
  simp only [read, found]

/-- A folder stays one when a file is written. -/
theorem isFolder_of_write {q : Path} (sound : d.Sound) {content : ByteArray}
    (written : d.write q content = .ok d') (opened : d.isFolder p = true) : d'.isFolder p = true := by
  obtain ⟨_, _, added⟩ := write_changes sound written
  obtain ⟨place, found⟩ := isFolder_iff.mp opened
  have kept : d'.find .target p = .ok (.taken place .folder) :=
    findFrom_kept (by simp) (by simp) sound added.here added.folders
      (fun _ _ => links_of_write sound written) (stat_find found)
      (added.folders _ (stat_entry sound found)) (by simp) fun _ _ _ taken => by
        cases taken
        rfl
  exact isFolder_iff.mpr ⟨place, stat_of_find kept⟩

section

variable (sound : d.Sound) (plain : d.Plain p) {content : ByteArray}
  (stores : ∀ device, d.entryAt (d.placeOf p) ≠ some (.device device))
  (written : d.write p content = .ok d')

include sound plain stores written

theorem write_file : ∃ found serial, d.find .file p = .ok found ∧
    d'.entryAt found.place = some (.file serial content) :=
  file_of_write sound (fun place device found => stores device (by
    rw [← find_place plain found]
    exact find_fits sound found)) written

theorem stat_write : ∃ serial, d'.stat p = .ok (d.placeOf p, .file serial content) := by
  obtain ⟨found, serial, ok, _, stat⟩ := stat_of_write sound (fun place device found =>
    stores device (by
      rw [← find_place plain found]
      exact find_fits sound found)) written
  exact ⟨serial, find_place plain ok ▸ stat⟩

theorem read_write : d'.read p = .ok content := by
  obtain ⟨serial, found⟩ := stat_write sound plain stores written
  simp [read, found]

end

/-! Folders that are made stand, and nothing has to be made of them again. -/

/-- Names that more names can follow lead to something, if only to a link. -/
theorem follow_front {jump' : Place → List String → Except Fault Found} {back : List String}
    (jumps : ∀ folder names place entry, jump folder (names ++ back) = .ok (.taken place entry) →
      ∃ place entry, jump' folder names = .ok (.taken place entry))
    (followed : d.follow jump aim folder (names ++ back) = .ok (.taken place entry)) :
    ∃ place entry, d.follow jump' .self folder names = .ok (.taken place entry) := by
  induction names generalizing folder with
  | nil => exact ⟨_, _, rfl⟩
  | cons name rest ih =>
    simp only [List.cons_append, follow, reduceCtorEq, false_and, if_false, decide_true,
      Bool.and_true] at followed ⊢
    split at followed
    · rename_i same
      rw [if_pos same]
      exact ih followed
    rename_i named
    rw [if_neg named]
    split at followed
    · rename_i up
      rw [if_pos up]
      exact ih followed
    rename_i below
    rw [if_neg below]
    split at followed
    · cases followed
    split at followed
    · cases followed
    rename_i short
    rw [if_neg short]
    split at followed
    · split at followed
      · cases followed
      · cases followed
    · exact ih followed
    · by_cases last : rest.isEmpty = true
      · exact ⟨_, _, if_pos last⟩
      · have longer : (rest ++ back).isEmpty = false := by
          simpa using fun void => absurd (List.isEmpty_iff.mpr void) last
        simp only [longer, Bool.false_and, Bool.false_eq_true, if_false, ← List.append_assoc]
          at followed
        simpa only [if_neg last] using jumps _ _ _ _ followed
    · split at followed
      · rename_i ends
        have last : rest = [] := (List.append_eq_nil_iff.mp (List.isEmpty_iff.mp ends)).1
        exact ⟨_, _, by simp only [last, List.isEmpty_nil, if_true]; rfl⟩
      · cases followed

theorem followLinks_front {links : Nat} {back : List String}
    (followed : d.followLinks aim links folder (names ++ back) = .ok (.taken place entry)) :
    ∃ place entry, d.followLinks .self links folder names = .ok (.taken place entry) := by
  induction links generalizing folder names place entry with
  | zero => exact follow_front (fun _ _ _ _ none => by cases none) followed
  | succ links ih => exact follow_front (fun _ _ _ _ onward => ih onward) followed

/-- A separator after the name of a folder changes nothing. -/
theorem follow_closed
    (jumps : ∀ folder names, jump folder names = .ok (.taken place .folder) →
      jump folder (names ++ [""]) = .ok (.taken place .folder))
    (followed : d.follow jump .target folder names = .ok (.taken place .folder)) :
    d.follow jump .target folder (names ++ [""]) = .ok (.taken place .folder) := by
  induction names generalizing folder with
  | nil => simpa [follow] using followed
  | cons name rest ih =>
    have longer : (rest ++ [""]).isEmpty = false := by simp
    simp only [List.cons_append, follow, reduceCtorEq, false_and, if_false, decide_false,
      Bool.and_false, Bool.false_eq_true, longer, Bool.false_and] at followed ⊢
    split at followed
    · rename_i same
      rw [if_pos same]
      exact ih followed
    rename_i named
    rw [if_neg named]
    split at followed
    · rename_i up
      rw [if_pos up]
      exact ih followed
    rename_i below
    rw [if_neg below]
    split at followed
    · cases followed
    rename_i short
    rw [if_neg short]
    split at followed
    · split at followed
      · cases followed
      · cases followed
    · exact ih followed
    · rw [← List.append_assoc]
      exact jumps _ _ followed
    · rename_i nonfolder _ _
      split at followed
      · cases followed
        exact absurd rfl nonfolder
      · cases followed

theorem followLinks_closed {links : Nat}
    (followed : d.followLinks .target links folder names = .ok (.taken place .folder)) :
    d.followLinks .target links folder (names ++ [""]) = .ok (.taken place .folder) := by
  induction links generalizing folder names with
  | zero => exact follow_closed (fun _ _ none => by cases none) followed
  | succ links ih => exact follow_closed (fun _ _ onward => ih onward) followed

/-- Nothing has to be made of a folder that is there. -/
theorem makeFolders_opened (opened : d.isFolder p = true) : d.makeFolders p = (.ok (), d) := by
  obtain ⟨ups, cut⟩ := Path.go_cons p.text.length p
  obtain ⟨place, stands⟩ := isFolder_iff.mp opened
  obtain ⟨checked, followed⟩ := findFrom_eq (stat_find stands)
  obtain ⟨back, steps⟩ : ∃ back, p.steps = p.names ++ back := by
    simp only [Path.steps]
    split
    · exact ⟨_, rfl⟩
    · exact ⟨[], by simp⟩
  rw [steps] at followed
  obtain ⟨place, entry, named⟩ := followLinks_front followed
  have found : d.findFrom .self p p.names = .ok (.taken place entry) :=
    findFrom_of_follow checked named
  have there : d.makeFolder p = .error .exists := by simp only [makeFolder, found]
  simp only [makeFolders, Path.ancestors, cut, makeFoldersOf, there, opened, if_true]
  split <;> rfl

theorem isFolder_of_makeFolder (sound : d.Sound) (made : d.makeFolder p = .ok d') :
    d'.isFolder p = true := by
  have change := changes_makeFolder sound made
  simp only [makeFolder] at made
  split at made
  · cases made
  · rename_i folder name found
    cases made
    have there : (d.addFolder (folder ++ [name])).entryAt (folder ++ [name]) = some .folder := by
      rw [entryAt, addFolder, entries_noteMode]
      exact entryAt_set_self d (by simp) .folder
    have kept : (d.addFolder (folder ++ [name])).findFrom .target p p.names =
        .ok (.taken (folder ++ [name]) .folder) :=
      findFrom_kept (by simp) (by simp) sound change.here change.folders
        (fun _ _ => change.lasting id (by simp)) found there (by simp)
        (fun _ _ _ taken => by cases taken)
    obtain ⟨checked, named⟩ := findFrom_eq kept
    refine isFolder_iff.mpr ⟨folder ++ [name], stat_of_find (findFrom_of_follow checked ?_)⟩
    simp only [Path.steps]
    split
    · exact followLinks_closed named
    · exact named
  · cases made

/-- An empty path stands for the folder one is in. -/
theorem isFolder_of_makeFoldersOf (sound : d.Sound) {ups : List Path}
    (made : d.makeFoldersOf (p :: ups) = (.ok (), d')) : p.text = "" ∨ d'.isFolder p = true := by
  simp only [makeFoldersOf] at made
  split at made
  · rename_i void
    exact .inl void
  right
  split at made
  · rename_i alone
    cases made
    exact isFolder_of_makeFolder sound alone
  · have above := changes_makeFoldersOf sound ups
    split at made
    · cases (Prod.mk.inj made).1
    · rename_i between up
      rw [up] at above
      split at made
      · rename_i last
        cases made
        exact isFolder_of_makeFolder above.sound last
      · split at made
        · rename_i opened
          cases made
          exact opened
        · cases (Prod.mk.inj made).1
  · split at made
    · rename_i opened
      cases made
      exact opened
    · cases (Prod.mk.inj made).1

/-- Folders that were made for a file need not be made for it again. -/
theorem makeFolders_again {q : Path} {between : Disk} {content : ByteArray} (sound : d.Sound)
    (made : d.makeFolders p = (.ok (), between)) (written : between.write q content = .ok d') :
    d'.makeFolders p = (.ok (), d') := by
  have above := changes_makeFolders sound p
  obtain ⟨ups, cut⟩ := Path.go_cons p.text.length p
  rw [makeFolders, Path.ancestors, cut] at made above
  rw [made] at above
  rcases isFolder_of_makeFoldersOf sound made with void | opened
  · rw [makeFolders, Path.ancestors, cut, makeFoldersOf, if_pos void]
  · exact makeFolders_opened (isFolder_of_write above.sound written opened)

/-- A path that ends in `..` leads to a folder, over whatever links. -/
theorem follow_up
    (jumps : ∀ folder names found, jump folder (names ++ [".."]) = .ok found →
      ∃ place, found = .taken place .folder)
    (followed : d.follow jump aim folder (names ++ [".."]) = .ok found) :
    ∃ place, found = .taken place .folder := by
  induction names generalizing folder with
  | nil =>
    simp only [List.nil_append, follow] at followed
    cases followed
    exact ⟨_, rfl⟩
  | cons name rest ih =>
    have longer : (rest ++ [".."]).isEmpty = false := by simp
    simp only [List.cons_append, follow, longer, Bool.false_and, Bool.false_eq_true, if_false]
      at followed
    split at followed
    · exact ih followed
    split at followed
    · exact ih followed
    split at followed
    · cases followed
    split at followed
    · cases followed
    split at followed
    · cases followed
    · exact ih followed
    · rw [← List.append_assoc] at followed
      exact jumps _ _ _ followed
    · cases followed

theorem followLinks_up (links : Nat)
    (followed : d.followLinks aim links folder (names ++ [".."]) = .ok found) :
    ∃ place, found = .taken place .folder := by
  induction links generalizing folder names found with
  | zero => exact follow_up (fun _ _ _ h => by cases h) followed
  | succ links ih => exact follow_up (fun _ _ _ h => ih h) followed

theorem write_up (d : Disk) (front : Path) (content : ByteArray) :
    d.write ⟨front.lead ++ ".."⟩ content ≠ .ok d' := by
  intro written
  obtain ⟨before, cuts⟩ := front.pieces_lead
  have cut := cuts ".." (by decide)
  have closed : Path.asksForFolder ⟨front.lead ++ ".."⟩ = false := by
    simp [Path.asksForFolder]
  have steps : Path.steps ⟨front.lead ++ ".."⟩ = before.filter (· ≠ "") ++ [".."] := by
    simp [Path.steps, closed, Path.names, cut]
  have leads : ∀ found, d.find .file ⟨front.lead ++ ".."⟩ = .ok found →
      ∃ place, found = .taken place .folder := by
    intro found ok
    have followed := (findFrom_eq ok).2
    rw [steps] at followed
    exact followLinks_up mostLinks followed
  rcases ok : d.find .file ⟨front.lead ++ ".."⟩ with fault | found
  · simp [write, ok] at written
  · obtain ⟨place, rfl⟩ := leads found ok
    simp [write, ok] at written

theorem changes_provide (sound : d.Sound) (p : Path) (content : ByteArray) :
    Changes (fun _ => True) d (d.provide p content) := by
  have above : Changes (fun _ => True) d
      (p.parent.elim d fun folder => (d.makeFolders folder).2) := by
    cases p.parent with
    | none => exact .refl sound
    | some folder => exact (changes_makeFolders sound folder).mono fun _ _ => trivial
  simp only [provide]
  generalize p.parent.elim d (fun folder => (d.makeFolders folder).2) = made at above ⊢
  rcases written : made.write p content with fault | d'
  · exact above
  · obtain ⟨_, _, change⟩ := write_changes above.sound written
    exact above.trans (change.changes.mono fun _ _ => trivial)

theorem sound_empty : empty.Sound := by
  refine ⟨List.Pairwise.nil, ?_, rfl⟩
  intro folder name there
  simp [entryAt, empty] at there

/-- Every entry of a disk is listed after the folder it is in. -/
theorem sound_of_listed (here : d.here = [])
    (sorted : (d.entries.pairs.map Prod.fst).Pairwise (· < ·))
    (listed : ∀ pair ∈ d.entries.pairs, ∃ folder name, pair.1 = folder ++ [name] ∧ IsName name ∧
      d.entryAt folder = some .folder) : d.Sound := by
  refine ⟨sorted, fun folder name there => ?_, by rw [here]; rfl⟩
  obtain ⟨entry, there⟩ := Option.ne_none_iff_exists'.mp there
  simp only [entryAt, List.isEmpty_iff, List.append_eq_nil_iff, List.cons_ne_nil, and_false,
    if_false] at there
  obtain ⟨_, _, same, proper, above⟩ := listed _ (Dict.mem_of_findIn there)
  obtain ⟨rfl, last⟩ := List.append_inj' same rfl
  obtain rfl := List.singleton_inj.mp last
  exact ⟨proper, above⟩

/-- A disk of some files and the folders above them. -/
def ofFiles (files : List (String × String)) : Disk :=
  files.foldl (fun d (path, text) => d.provide ⟨path⟩ text.toUTF8) empty

theorem changes_ofFiles (files : List (String × String)) :
    Changes (fun _ => True) empty (ofFiles files) := by
  rw [ofFiles]
  induction files using List.reverseRecOn with
  | nil => exact .refl sound_empty
  | append_singleton before file ih =>
    rw [List.foldl_append]
    exact ih.trans (changes_provide ih.sound _ _)

theorem plain_ofFiles (files : List (String × String)) (p : Path) : (ofFiles files).Plain p := by
  have linkless : ∀ place target, (ofFiles files).entryAt place ≠ some (.link target) := by
    intro place target there
    have first := (changes_ofFiles files).links place target there
    rcases place with _ | ⟨name, rest⟩
    · simp [entryAt] at first
    · simp [entryAt, empty] at first
  exact ⟨fun place _ target => linkless place target, fun _ target => linkless _ target⟩

/-- What is removed is gone, and no folder is removed. -/
theorem changes_remove (sound : d.Sound) (plain : d.Plain p) (removed : d.remove p = .ok d') :
    Changes (· = d.placeOf p) d d' ∧ d'.leafAt (d.placeOf p) = none := by
  simp only [remove] at removed
  split at removed
  · cases removed
  · rename_i place entry leaf found
    split at removed
    · cases removed
    cases removed
    have fits := findFrom_fits sound (fun _ member => (Path.mem_names member).2) found
    have there : d.entryAt place = some entry := fits
    obtain ⟨folder, name, rfl, _⟩ := fits.split sound leaf
    have filled : folder ++ [name] ≠ [] := by simp
    have here := findFrom_place plain found
    rw [← here]
    have others : ∀ other, other ≠ folder ++ [name] →
        (d.drop (folder ++ [name])).entryAt other = d.entryAt other :=
      fun other different => entryAt_drop_of_ne d different.symm
    have gone : (d.drop (folder ++ [name])).entryAt (folder ++ [name]) = none :=
      entryAt_drop_self d filled
    have folders : ∀ other, d.entryAt other = some .folder →
        (d.drop (folder ++ [name])).entryAt other = some .folder := by
      intro other above
      rw [others other, above]
      rintro rfl
      rw [there] at above
      cases above
      exact leaf rfl
    refine ⟨⟨⟨?_, ?_, folders _ sound.here⟩, rfl, folders, ?_, ?_⟩, ?_⟩
    · exact sound.sorted.sublist (List.filter_sublist.map _)
    · intro front n still
      have other : front ++ [n] ≠ folder ++ [name] := by
        intro same
        rw [same] at still
        exact still gone
      rw [others _ other] at still
      obtain ⟨proper, above⟩ := sound.inside front n still
      exact ⟨proper, folders _ above⟩
    · intro other target still
      rwa [others other] at still
      rintro rfl
      rw [gone] at still
      cases still
    · intro other
      by_cases same : other = folder ++ [name]
      · exact .inr same
      · left
        rw [leafAt, others other same, leafAt]
    · show (d.drop (folder ++ [name])).leafAt (folder ++ [name]) = none
      rw [leafAt, gone]
  · cases removed
  · cases removed

/-- A change that only removes: what differs is gone. -/
def Removals (d d' : Disk) : Prop := Changes (fun place => d'.leafAt place = none) d d'

theorem Removals.trans {d'' : Disk} (first : Removals d d') (second : Removals d' d'') :
    Removals d d'' := by
  refine ⟨second.sound, second.here.trans first.here,
    fun place there => second.folders place (first.folders place there),
    fun place target there => first.links place target (second.links place target there), ?_⟩
  intro place
  rcases second.leaves place with same | gone
  · rw [same]
    exact first.leaves place
  · exact .inr gone

theorem Removals.absent (removed : Removals d d') {place : Place} (absent : d.leafAt place = none) :
    d'.leafAt place = none := by
  rcases removed.leaves place with same | gone
  · rw [same, absent]
  · exact gone

theorem removals_remove (sound : d.Sound) (plain : d.Plain p) (removed : d.remove p = .ok d') :
    Removals d d' := by
  obtain ⟨change, gone⟩ := changes_remove sound plain removed
  exact change.mono fun place here => by rwa [here]

/-- Names that are missed below a folder lead to nothing. -/
theorem follow_absent (sound : d.Sound) (start : d.entryAt folder = some .folder)
    (plain : ∀ more target, d.entryAt (folder ++ more) ≠ some (.link target))
    (proper : ∀ name ∈ names, IsName name)
    (missed : d.follow jump aim folder names = .error .notFound) :
    d.entryAt (folder ++ names) = none := by
  induction names generalizing folder with
  | nil => cases missed
  | cons name rest ih =>
    obtain ⟨filled, inside, below, _⟩ := proper name (by simp)
    have later : ∀ n ∈ rest, IsName n := fun n member => proper n (by simp [member])
    have split : folder ++ name :: rest = folder ++ [name] ++ rest := by simp
    have deeper : ∀ more target, d.entryAt (folder ++ [name] ++ more) ≠ some (.link target) := by
      intro more target
      rw [List.append_assoc]
      exact plain _ target
    rw [split]
    simp only [follow, filled, inside, below, or_self, if_false] at missed
    split at missed
    · cases missed
    split at missed
    · cases missed
    split at missed
    · rename_i absent
      rcases rest with _ | ⟨next, more⟩
      · simpa using absent
      · exact Decidable.byContradiction fun there => by
          rw [sound.above there (by simp)] at absent
          cases absent
    · rename_i present
      exact ih present deeper later missed
    · rename_i target present
      exact absurd present (by simpa using deeper [] target)
    · split at missed
      · cases missed
      · cases missed

/-- A folder that can be opened is found by its names. -/
theorem follow_folder (sound : d.Sound) (plain : d.Plain p) (opened : d.isFolder p = true)
    (reads : aim ≠ .file) : checkText p = .ok () ∧
      d.follow jump aim (d.startOf p) p.names = .ok (.taken (d.placeOf p) .folder) := by
  obtain ⟨place, found⟩ := isFolder_iff.mp opened
  have here := stat_place plain found
  obtain ⟨checked, followed⟩ := findFrom_eq (stat_find found)
  obtain ⟨jump', follows⟩ := followLinks_jump d .target mostLinks
  rw [follows] at followed
  have walked : d.follow jump' .target (d.startOf p) p.names = .ok (.taken place .folder) := by
    simp only [Path.steps] at followed
    split at followed
    · obtain ⟨above, walked, ends⟩ := follow_append_ok (by decide) (by simp) plain.way followed
      simp only [follow, true_or, if_true, Except.ok.injEq, Found.taken.injEq, and_true] at ends
      rw [walked, ends]
    · exact followed
  rw [← here]
  exact ⟨checked, follow_kept (fun same => absurd same reads) sound (startOf_entry sound p)
    (fun place member target there => absurd there (plain.way place member target)) (fun _ h => h)
    walked (stat_entry sound found) (by simp) fun _ _ _ taken => by
      cases taken
      rfl⟩

theorem checkText_filled (filled : p.text ≠ "") : checkText p ≠ .error .notFound := by
  simp only [checkText, filled, if_false]
  split
  · simp
  · split
    · simp
    · simp

theorem filled_joinRelative (proper : ∀ name ∈ names, IsName name) (filled : names ≠ []) :
    (p.join (relativePath names)).text ≠ "" := by
  intro empty
  have none : (p.join (relativePath names)).names = [] := by
    simp [Path.names, Path.pieces, empty, Text.split, Chars.split]
  rw [Path.names_joinRelative proper] at none
  exact filled (List.append_eq_nil_iff.mp none).2

/-- What cannot be removed for want of it is not there. -/
theorem remove_absent (sound : d.Sound) (plain : d.Plain p) (opened : d.isFolder p = true)
    (proper : ∀ name ∈ names, IsName name) (filled : names ≠ [])
    (missed : d.remove (p.join (relativePath names)) = .error .notFound) :
    d.entryAt (d.placeOf p ++ names) = none := by
  obtain ⟨jump, follows⟩ := followLinks_jump d .self mostLinks
  have start : d.startOf (p.join (relativePath names)) = d.startOf p := by
    rw [startOf, startOf, Path.isAbsolute_join (Path.relative_of_names proper)]
  have walked : d.follow jump .self (d.startOf p) p.names = .ok (.taken (d.placeOf p) .folder) :=
    (follow_folder sound plain opened (by decide)).2
  have followed : d.follow jump .self (d.startOf p) (p.names ++ names) =
      d.follow jump .self (d.placeOf p) names := by
    rw [follow_append (by decide) filled plain.way, walked]
    rfl
  have above := stat_entry sound (isFolder_iff.mp opened).choose_spec
  rw [stat_place plain (isFolder_iff.mp opened).choose_spec] at above
  simp only [remove, findFrom] at missed
  split at missed
  · cases missed
  · split at missed
    · cases missed
    · cases missed
  · rename_i folder name found
    split at found
    · cases found
    · rename_i checked
      have here : d.findFrom .self (p.join (relativePath names))
          (p.join (relativePath names)).names = .ok (.free folder name) := by
        simp only [findFrom, checked]
        exact found
      have free := (findFrom_fits sound (fun _ member => (Path.mem_names member).2) here).2.2
      have place := findFrom_place (plain.join proper) here
      rw [placeOf_joinRelative proper] at place
      rwa [← place]
  · rename_i fault found
    cases missed
    split at found
    · rename_i fault checked
      cases found
      exact absurd checked (checkText_filled (filled_joinRelative proper filled))
    · have missed : d.follow jump .self (d.placeOf p) names = .error .notFound := by
        rw [← followed, ← Path.names_joinRelative proper, ← start, ← follows]
        exact found
      exact follow_absent sound above plain.below proper missed

end Disk
end LayerCache
