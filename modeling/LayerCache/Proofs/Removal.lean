import LayerCache.Proofs.Disk

/-! What can be removed. Under an open folder a file is removed under its name, and a removal that
fails leaves everything as it was. -/
namespace LayerCache

namespace Disk

variable {d d' : Disk} {p : Path} {name : String} {place : Place} {entry : Entry}

theorem asksForFolder_joinName (proper : IsName name) : (p.joinName name).asksForFolder = false := by
  by_contra asks
  have steps := steps_joinName (p := p) proper
  have filled : (p.joinName name).names ≠ [] := by simp [Path.names_joinName proper]
  simp [Path.steps, asks, Path.names_joinName proper] at steps

/-- What is found under a name, and is no folder, can be removed. -/
theorem remove_joinName (sound : d.Sound) (plain : d.Plain (p.joinName name)) (proper : IsName name)
    (found : d.stat (p.joinName name) = .ok (place, entry)) (leaf : entry ≠ .folder) :
    d.remove (p.joinName name) = .ok (d.drop place) := by
  have here := stat_place plain found
  have there := stat_entry sound found
  obtain ⟨checked, followed⟩ := findFrom_eq (stat_find found)
  obtain ⟨jump, follows⟩ := followLinks_jump d .target mostLinks
  obtain ⟨jump', follows'⟩ := followLinks_jump d .self mostLinks
  have steps : (p.joinName name).steps = (p.joinName name).names := by
    rw [steps_joinName proper, Path.names_joinName proper]
  rw [follows, steps] at followed
  have unlinked : ∀ target, entry ≠ .link target := by
    rintro target rfl
    rw [here] at there
    exact plain.below [] target (by simpa using there)
  have kept : d.follow jump' .self (d.startOf (p.joinName name)) (p.joinName name).names =
      .ok (.taken place entry) :=
    follow_kept (by decide) sound (startOf_entry sound _)
      (fun place member target there => absurd there (plain.way place member target))
      (fun _ above => above) followed there unlinked (fun same => absurd same leaf)
  have whole : d.findFrom .self (p.joinName name) (p.joinName name).names =
      .ok (.taken place entry) := by
    simp only [findFrom, checked, follows', ← kept]
    rfl
  simp only [remove, whole, asksForFolder_joinName proper]
  cases entry with
  | folder => exact absurd rfl leaf
  | file | link | program | device => rfl

/-- Names lead to the same on two disks that agree on the way, and with no link there it does not
matter what they are followed for. -/
theorem follow_agree {jump jump' : Place → List String → Except Fault Found} {aim aim' : Aim}
    {folder : Place} {names : List String} (reads : aim ≠ .file ∧ aim' ≠ .file ∨ "" ∉ names)
    (plain : ∀ place ∈ way folder names, ∀ target, d.entryAt place ≠ some (.link target))
    (same : ∀ place ∈ way folder names, d'.entryAt place = d.entryAt place) :
    d'.follow jump' aim' folder names = d.follow jump aim folder names := by
  induction names generalizing folder with
  | nil => rfl
  | cons name rest ih =>
    have next := fun place member => plain place (List.mem_cons_of_mem _ member)
    have alike := fun place member => same place (List.mem_cons_of_mem _ member)
    have later := fun folder => @ih folder (reads.imp_right fun whole member =>
      whole (List.mem_cons_of_mem _ member))
    have asked : ∀ aim'' : Aim, aim'' = aim ∨ aim'' = aim' → ¬ (aim'' = .file ∧ rest = [""]) := by
      rintro aim'' known ⟨file, ends⟩
      rcases reads with ⟨first, second⟩ | whole
      · rcases known with rfl | rfl
        · exact first file
        · exact second file
      · exact whole (by simp [ends])
    simp only [follow, asked aim (.inl rfl), asked aim' (.inr rfl), if_false]
    by_cases void : name = "" ∨ name = "."
    · rw [stepTo, if_pos void] at next alike
      simp only [if_pos void, later _ next alike]
    by_cases up : name = ".."
    · rw [stepTo, if_neg void, if_pos up] at next alike
      simp only [if_neg void, if_pos up, later _ next alike]
    have down : stepTo folder name = folder ++ [name] := by rw [stepTo, if_neg void, if_neg up]
    rw [down] at next alike
    have passed : folder ++ [name] ∈ way folder (name :: rest) := by simp [way, down]
    simp only [if_neg void, if_neg up, same _ passed]
    cases there : d.entryAt (folder ++ [name]) with
    | none => rfl
    | some entry => cases entry with
      | folder => simp only [later _ next alike]
      | link target => exact absurd there (plain _ passed target)
      | file | program | device => rfl

/-- With no link on the way it does not matter what names are followed for. -/
theorem follow_alike {jump jump' : Place → List String → Except Fault Found} {aim aim' : Aim}
    {folder : Place} {names : List String} (reads : aim ≠ .file ∧ aim' ≠ .file ∨ "" ∉ names)
    (plain : ∀ place ∈ way folder names, ∀ target, d.entryAt place ≠ some (.link target)) :
    d.follow jump aim folder names = d.follow jump' aim' folder names :=
  (follow_agree reads plain fun _ _ => rfl).symm

section

variable {jump : Place → List String → Except Fault Found} {place : Place} {fault : Fault}

/-- A path that may be asked for is found where its names lead, whether or not it asks for a folder;
only a file cannot be asked for as a folder. -/
theorem stat_follow
    (clear : ∀ place ∈ way (d.startOf p) p.names, ∀ target, d.entryAt place ≠ some (.link target))
    (checked : checkText p = .ok ()) (jump : Place → List String → Except Fault Found) :
    match d.follow jump .self (d.startOf p) p.names with
    | .ok (.taken place .folder) => d.stat p = .ok (place, .folder)
    | .ok (.taken place entry) => d.stat p = .ok (place, entry) ∨ d.stat p = .error .notFolder
    | .ok (.free _ _) => d.stat p = .error .notFound
    | .error fault => d.stat p = .error fault := by
  obtain ⟨jump', follows⟩ := followLinks_jump d .target mostLinks
  have alike : d.follow jump .self (d.startOf p) p.names =
      d.follow jump' .target (d.startOf p) p.names :=
    follow_alike (.inl (by decide)) clear
  have sought : d.find .target p = d.follow jump' .target (d.startOf p) p.steps := by
    simp only [find, findFrom, checked, follows]
    rfl
  have asked : p.steps = p.names ∨ p.steps = p.names ++ [""] := by
    rw [Path.steps]
    split
    · exact .inr rfl
    · exact .inl rfl
  rw [alike]
  rcases asked with same | ended
  · simp only [stat, sought, same]
    rcases d.follow jump' .target (d.startOf p) p.names with fault | ⟨place, entry⟩ | ⟨place, free⟩
    · rfl
    · cases entry with
      | folder => rfl
      | file | link | program | device => exact .inl rfl
    · rfl
  · have longer : d.find .target p = d.followOn jump' .target [""]
        (d.follow jump' .target (d.startOf p) p.names) := by
      rw [sought, ended, follow_append (by decide) (by simp) clear]
    simp only [stat, longer]
    rcases d.follow jump' .target (d.startOf p) p.names with fault | ⟨place, entry⟩ | ⟨place, free⟩
    · rfl
    · cases entry with
      | folder => simp [followOn, follow]
      | file | link | program | device => exact .inr rfl
    · rfl

theorem findFrom_joinName (plain : d.Plain p) (proper : IsName name)
    (checked : checkText (p.joinName name) = .ok ()) : ∃ jump,
      d.findFrom .self (p.joinName name) (p.joinName name).names =
        d.followOn jump .self [name] (d.follow jump .self (d.startOf p) p.names) := by
  obtain ⟨jump, follows⟩ := followLinks_jump d .self mostLinks
  have start : d.startOf (p.joinName name) = d.startOf p := by
    rw [startOf, startOf, Path.isAbsolute_joinName proper]
  refine ⟨jump, ?_⟩
  rw [← follow_append (by decide) (by simp) plain.way, ← Path.names_joinName proper, ← start]
  simp only [findFrom, checked, follows]
  rfl

/-- Nothing is removed from a folder that is not there. -/
theorem remove_missing (plain : d.Plain p) (proper : IsName name) (filled : p.text ≠ "")
    (missing : d.stat p = .error .notFound) (checked : checkText (p.joinName name) = .ok ()) :
    d.remove (p.joinName name) = .error .notFound := by
  obtain ⟨jump, walked⟩ := findFrom_joinName plain proper checked
  have found := stat_follow plain.way (checkText_of_joinName proper filled checked) jump
  rw [missing] at found
  simp only [remove, walked]
  split at found
  · cases found
  · rcases found with absurd | absurd
    · cases absurd
    · cases absurd
  · rename_i followed
    simp only [followed, followOn]
  · rename_i followed
    cases found
    simp only [followed, followOn]

/-- In an open folder only another folder withstands removal. -/
theorem remove_opened (sound : d.Sound) (plain : d.Plain p) (proper : IsName name)
    (short : name.utf8ByteSize ≤ longestName) (opened : d.isFolder p = true)
    (checked : checkText (p.joinName name) = .ok ())
    (flat : d.entryAt (d.placeOf p ++ [name]) ≠ some .folder) :
    d.remove (p.joinName name) = .error .notFound ∨ ∃ d', d.remove (p.joinName name) = .ok d' := by
  obtain ⟨jump, walked⟩ := findFrom_joinName plain proper checked
  have front : d.follow jump .self (d.startOf p) p.names = .ok (.taken (d.placeOf p) .folder) :=
    (follow_folder sound plain opened (by decide)).2
  simp only [remove, walked, front, followOn, follow, asksForFolder_joinName proper, proper.filled,
    proper.inside, proper.below, or_self, if_false, false_and, reduceCtorEq, Nat.not_lt.mpr short]
  cases there : d.entryAt (d.placeOf p ++ [name]) with
  | none =>
    by_cases fixed : isFixed (d.placeOf p) = true
    · simp [fixed]
    · simp [fixed]
  | some entry => cases entry with
    | folder => exact absurd there flat
    | file | link | program | device => simp

theorem filled_joinName (proper : IsName name) : (p.joinName name).text ≠ "" := by
  rw [joinName_eq_join]
  exact filled_joinRelative (by simpa using proper) (by simp)

/-- A path that no system call takes cannot be removed either. -/
theorem remove_unchecked {fault : Fault} (checked : checkText p = .error fault) :
    d.remove p = .error fault := by
  simp only [remove, findFrom, checked]

/-- What can be removed from a folder, or is missing there, shows that it is open or not there. -/
theorem stands_of_remove (plain : d.Plain p) (proper : IsName name) (filled : p.text ≠ "")
    (ended : d.remove (p.joinName name) = .error .notFound ∨
      ∃ d', d.remove (p.joinName name) = .ok d') :
    (d.isFolder p = true ∨ d.stat p = .error .notFound) ∧
      checkText (p.joinName name) = .ok () := by
  rcases checked : checkText (p.joinName name) with fault | _
  · rw [remove_unchecked checked] at ended
    rcases ended with same | ⟨_, ok⟩
    · cases same
      exact absurd checked (checkText_filled (filled_joinName proper))
    · cases ok
  refine ⟨?_, rfl⟩
  obtain ⟨jump, walked⟩ := findFrom_joinName plain proper checked
  have found := stat_follow plain.way (checkText_of_joinName proper filled checked) jump
  simp only [remove, walked] at ended
  split at found
  · exact .inl (isFolder_iff.mpr ⟨_, found⟩)
  · rename_i place entry nonfolder followed
    have closed : d.followOn jump .self [name] (.ok (.taken place entry)) = .error .notFolder := by
      cases entry with
      | folder => exact absurd rfl nonfolder
      | file | link | program | device => rfl
    rw [followed, closed] at ended
    simp at ended
  · exact .inr found
  · rename_i fault followed
    simp only [followed, followOn] at ended
    rcases ended with same | ⟨_, ok⟩
    · cases same
      exact .inr found
    · cases ok

end

/-- What was removed stood there and was no folder. -/
theorem leafAt_of_remove (sound : d.Sound) (plain : d.Plain p) (removed : d.remove p = .ok d') :
    d.leafAt (d.placeOf p) ≠ none := by
  simp only [remove] at removed
  split at removed
  · cases removed
  · rename_i place entry leaf found
    have there : d.entryAt place = some entry :=
      findFrom_fits sound (fun _ member => (Path.mem_names member).2) found
    have here : place = d.placeOf p := findFrom_place plain found
    rw [← here, (leafAt_eq_some leaf).mpr there]
    simp
  · cases removed
  · cases removed

/-- What was removed is not there any more, and everything else is as it was. -/
theorem entryAt_of_remove (sound : d.Sound) (plain : d.Plain p) (removed : d.remove p = .ok d')
    (place : Place) :
    d'.entryAt place = if place = d.placeOf p then none else d.entryAt place := by
  simp only [remove] at removed
  split at removed
  · cases removed
  · rename_i here entry leaf found
    have there : d.entryAt here = some entry :=
      findFrom_fits sound (fun _ member => (Path.mem_names member).2) found
    have same : here = d.placeOf p := findFrom_place plain found
    have filled : here ≠ [] := by
      rintro rfl
      exact leaf (Option.some.inj there).symm
    split at removed
    · cases removed
    · cases removed
      rw [← same]
      split
      · rename_i equal
        rw [equal, entryAt_drop_self d filled]
      · rename_i other
        rw [entryAt_drop_of_ne d (Ne.symm other)]
  · cases removed
  · cases removed

section

variable {jump : Place → List String → Except Fault Found} {aim : Aim} {folder : Place}
  {names : List String} {entry : Entry}

/-- Proper names are followed only if the system can take them. -/
theorem short_of_follow {found : Found} (proper : ∀ name ∈ names, IsName name)
    (plain : ∀ place ∈ way folder names, ∀ target, d.entryAt place ≠ some (.link target))
    (followed : d.follow jump aim folder names = .ok found) :
    ∀ name ∈ names, name.utf8ByteSize ≤ longestName := by
  induction names generalizing folder with
  | nil => simp
  | cons first rest ih =>
    have named := proper first (by simp)
    have down : stepTo folder first = folder ++ [first] := by
      simp [stepTo, named.filled, named.inside, named.below]
    have next := fun place member => plain place (List.mem_cons_of_mem _ member)
    rw [down] at next
    have more := @ih (folder ++ [first]) (fun name member => proper name (by simp [member])) next
    simp only [follow, named.filled, named.inside, named.below, or_self, if_false] at followed
    split at followed
    · cases followed
    split at followed
    · cases followed
    rename_i short
    have first' := Nat.not_lt.mp short
    split at followed
    · split at followed
      · rename_i ends
        have last := List.isEmpty_iff.mp (Bool.and_eq_true_iff.mp ends).1
        simpa [last] using first'
      · cases followed
    · exact List.forall_mem_cons.mpr ⟨first', more followed⟩
    · rename_i target present
      exact absurd present (plain _ (by simp [way, down]) target)
    · split at followed
      · rename_i last
        simpa [List.isEmpty_iff.mp last] using first'
      · cases followed

/-- Short names lead to whatever is there. -/
theorem follow_there (sound : d.Sound) (reads : aim ≠ .file) (proper : ∀ name ∈ names, IsName name)
    (short : ∀ name ∈ names, name.utf8ByteSize ≤ longestName) (filled : names ≠ [])
    (there : d.entryAt (folder ++ names) = some entry) (leaf : entry ≠ .folder)
    (unlinked : ∀ target, entry ≠ .link target) :
    d.follow jump aim folder names = .ok (.taken (folder ++ names) entry) := by
  induction names generalizing folder with
  | nil => exact absurd rfl filled
  | cons first rest ih =>
    have named := proper first (by simp)
    have open' := Nat.not_lt.mpr (short first (by simp))
    have whole : folder ++ first :: rest = folder ++ [first] ++ rest := by simp
    simp only [follow, named.filled, named.inside, named.below, or_self, if_false, reads, false_and,
      open']
    by_cases last : rest = []
    · subst last
      rw [there]
      cases entry with
      | folder => exact absurd rfl leaf
      | link target => exact absurd rfl (unlinked target)
      | file | program | device => rfl
    · rw [whole] at there ⊢
      rw [sound.above (there ▸ Option.some_ne_none entry) last]
      exact ih (fun name member => proper name (by simp [member]))
        (fun name member => short name (by simp [member])) last there

/-- A file that can be found can be removed. -/
theorem remove_of_isFile (sound : d.Sound) (plain : d.Plain p)
    (proper : ∀ name ∈ names, IsName name) (filled : names ≠ [])
    (file : d.isFile (p.join (relativePath names)) = true) :
    ∃ d', d.remove (p.join (relativePath names)) = .ok d' := by
  obtain ⟨front, name, rfl⟩ : ∃ front name, names = front ++ [name] := by
    rcases List.eq_nil_or_concat names with none | ⟨front, name, cut⟩
    · exact absurd none filled
    · exact ⟨front, name, by rw [cut, List.concat_eq_append]⟩
  have clear := plain.join proper
  rw [Path.joinRelative_concat proper] at file clear ⊢
  simp only [isFile] at file
  split at file
  · rename_i found
    exact ⟨_, remove_joinName sound clear (proper name (by simp)) found (by simp)⟩
  · rename_i found
    exact ⟨_, remove_joinName sound clear (proper name (by simp)) found (by simp)⟩
  · cases file

/-- The path of what was removed is one that the system can take. -/
theorem reach_of_remove (plain : d.Plain p) (proper : ∀ name ∈ names, IsName name)
    (filled : names ≠ []) (removed : d.remove (p.join (relativePath names)) = .ok d') :
    checkText (p.join (relativePath names)) = .ok () ∧
      (∀ name ∈ names, name.utf8ByteSize ≤ longestName) ∧
      (p.join (relativePath names)).asksForFolder = false := by
  simp only [remove] at removed
  split at removed
  · cases removed
  · rename_i place entry leaf found
    split at removed
    · cases removed
    rename_i closed
    obtain ⟨checked, followed⟩ := findFrom_eq found
    obtain ⟨jump, follows⟩ := followLinks_jump d .self mostLinks
    have start : d.startOf (p.join (relativePath names)) = d.startOf p := by
      rw [startOf, startOf, Path.isAbsolute_join (Path.relative_of_names proper)]
    rw [follows, Path.names_joinRelative proper, start] at followed
    obtain ⟨above, front, back⟩ := follow_append_ok (by decide) filled plain.way followed
    have here : above = d.placeOf p := follow_place plain.way front
    refine ⟨checked, short_of_follow proper ?_ back, by simpa using closed⟩
    intro passed member target
    obtain ⟨more, rfl⟩ := way_proper proper member
    rw [here]
    exact plain.below more target
  · cases removed
  · cases removed

/-- Under some names below a folder nothing can be removed, until something comes in its place. -/
def Cleared (d : Disk) (folder : Path) (names : List String) : Prop :=
  ∀ (within : Place → Prop) (later : Disk), Changes within d later →
    (later.leafAt (d.placeOf folder ++ names) ≠ none →
      d.leafAt (d.placeOf folder ++ names) ≠ none) →
    ∀ gone, later.remove (folder.join (relativePath names)) ≠ .ok gone

theorem Cleared.mono {within : Place → Prop} (cleared : d.Cleared p names)
    (change : Changes within d d') (faded : d'.leafAt (d.placeOf p ++ names) ≠ none →
      d.leafAt (d.placeOf p ++ names) ≠ none) : d'.Cleared p names := by
  intro within later more stands
  rw [change.placeOf] at stands
  exact cleared (fun _ => True) later
    ((change.mono fun _ _ => trivial).trans (more.mono fun _ _ => trivial))
    fun leaf => faded (stands leaf)

/-- Nothing more is removed from a folder that can be opened once removal was tried, whether it
succeeded or not. -/
theorem cleared_of_tried (sound : d.Sound) (plain : d.Plain p)
    (opens : d.entryAt (d.placeOf p) = some .folder → d.isFolder p = true)
    (proper : ∀ name ∈ names, IsName name) (filled : names ≠ [])
    (tried : d.remove (p.join (relativePath names)) = .ok d' ∨
      (∀ x, d.remove (p.join (relativePath names)) ≠ .ok x) ∧ d' = d) : d'.Cleared p names := by
  intro within later change faded gone again
  have clear := plain.join proper
  rcases tried with removed | ⟨blocked, rfl⟩
  · obtain ⟨first, none⟩ := changes_remove sound clear removed
    have stands := leafAt_of_remove change.sound (change.plain (first.plain clear)) again
    rw [change.placeOf, placeOf_joinRelative proper] at stands
    rw [placeOf_joinRelative proper, ← first.placeOf] at none
    exact faded stands none
  · have stands := leafAt_of_remove change.sound (change.plain clear) again
    rw [change.placeOf, placeOf_joinRelative proper] at stands
    obtain ⟨entry, leaf⟩ := Option.ne_none_iff_exists'.mp (faded stands)
    have nonfolder : entry ≠ .folder := by
      rintro rfl
      simp only [leafAt] at leaf
      split at leaf
      · cases leaf
      · rename_i other
        exact other leaf
    have there := (leafAt_eq_some nonfolder).mp leaf
    have unlinked : ∀ target, entry ≠ .link target := by
      rintro target rfl
      exact plain.below names target there
    have opened := opens (sound.above (there ▸ Option.some_ne_none entry) filled)
    obtain ⟨checked, short, closed⟩ := reach_of_remove (change.plain plain) proper filled again
    obtain ⟨jump, follows⟩ := followLinks_jump d' .self mostLinks
    have start : d'.startOf (p.join (relativePath names)) = d'.startOf p := by
      rw [startOf, startOf, Path.isAbsolute_join (Path.relative_of_names proper)]
    have whole : d'.findFrom .self (p.join (relativePath names)) (p.join (relativePath names)).names =
        .ok (.taken (d'.placeOf p ++ names) entry) := by
      have walked : d'.follow jump .self (d'.startOf p) (p.names ++ names) =
          .ok (.taken (d'.placeOf p ++ names) entry) := by
        rw [follow_append (by decide) filled plain.way,
          (follow_folder sound plain opened (by decide)).2]
        exact follow_there sound (by decide) proper short filled there nonfolder unlinked
      rw [← walked, ← start, ← Path.names_joinRelative proper]
      simp only [findFrom, checked, follows]
      rfl
    refine blocked (d'.drop (d'.placeOf p ++ names)) ?_
    simp only [remove, whole, closed]
    cases entry with
    | folder => exact absurd rfl nonfolder
    | file | link | program | device => rfl

end

/-- Some leaves were removed, each once, and nothing else was done. -/
structure Drops (places : List Place) (d d' : Disk) : Prop where
  sound : d'.Sound
  here : d'.here = d.here
  distinct : places.Nodup
  stood : ∀ place ∈ places, d.leafAt place ≠ none
  entries : ∀ place, d'.entryAt place = if place ∈ places then none else d.entryAt place

namespace Drops

variable {places others : List Place} {d'' : Disk} {place : Place}

theorem refl (sound : d.Sound) : Drops [] d d :=
  ⟨sound, rfl, List.nodup_nil, by simp, by simp⟩

theorem of_remove (sound : d.Sound) (plain : d.Plain p) (removed : d.remove p = .ok d') :
    Drops [d.placeOf p] d d' :=
  have change := (changes_remove sound plain removed).1
  ⟨change.sound, change.here, by simp,
    by simpa using leafAt_of_remove sound plain removed,
    by simpa using entryAt_of_remove sound plain removed⟩

theorem leafAt (drops : Drops places d d') (place : Place) :
    d'.leafAt place = if place ∈ places then none else d.leafAt place := by
  rw [Disk.leafAt, drops.entries]
  by_cases gone : place ∈ places
  · simp [gone]
  · simp only [gone, if_false]
    rfl

theorem folder_iff (drops : Drops places d d') :
    d'.entryAt place = some .folder ↔ d.entryAt place = some .folder := by
  rw [drops.entries]
  by_cases gone : place ∈ places
  · rw [if_pos gone]
    constructor
    · intro none
      cases none
    · intro folder
      refine absurd ?_ (drops.stood place gone)
      rw [Disk.leafAt, folder]
  · rw [if_neg gone]

theorem changes (drops : Drops places d d') : Changes (· ∈ places) d d' where
  sound := drops.sound
  here := drops.here
  folders _ folder := drops.folder_iff.mpr folder
  links place target linked := by
    rw [drops.entries] at linked
    split at linked
    · cases linked
    · exact linked
  leaves place := by
    rw [drops.leafAt]
    split
    · rename_i gone
      exact .inr gone
    · exact .inl rfl

theorem trans (first : Drops places d d') (second : Drops others d' d'') :
    Drops (places ++ others) d d'' where
  sound := second.sound
  here := second.here.trans first.here
  distinct := by
    refine List.nodup_append.mpr ⟨first.distinct, second.distinct, ?_⟩
    rintro place old other later rfl
    have stood := second.stood place later
    rw [first.leafAt, if_pos old] at stood
    exact stood rfl
  stood place member := by
    rcases List.mem_append.mp member with old | later
    · exact first.stood place old
    · have stood := second.stood place later
      rw [first.leafAt] at stood
      split at stood
      · exact absurd rfl stood
      · exact stood
  entries place := by
    rw [second.entries, first.entries]
    by_cases later : place ∈ others
    · simp [later]
    · simp [later]

/-- A leaf that is there after some removals was there before. -/
theorem faded (drops : Drops places d d') (stands : d'.leafAt place ≠ none) :
    d'.leafAt place = d.leafAt place := by
  rw [drops.leafAt] at stands ⊢
  split at stands
  · exact absurd rfl stands
  · rename_i kept
    rw [if_neg kept]

end Drops

end Disk

end LayerCache
