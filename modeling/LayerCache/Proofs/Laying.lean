import LayerCache.Cache.Artifacts
import LayerCache.Proofs.Folders
import LayerCache.Proofs.Removal

/-! What becomes of a file that is written below an open folder, with the folders it needs. It
depends on the files in the way alone: folders that are missing are made, so it is the same whether
or not somebody has made some of them before. -/
namespace LayerCache

namespace Path

variable {p : Path} {name last : String}

theorem pieces_joinName (proper : IsName name) (closed : IsName last) :
    ((p.joinName last).joinName name).pieces = (p.joinName last).pieces ++ [name] := by
  have text : (p.joinName last).joinName name = ⟨(p.joinName last).text ++ "/" ++ name⟩ := by
    rw [joinName_eq proper, lead_joinName closed, joinName_eq closed]
  rw [text]
  simp [pieces, Text.split, Chars.split_append, Chars.split_of_not_mem proper.bare]

/-- The parent of a name below another is that other. -/
theorem parent_joinName (proper : IsName name) (closed : IsName last) :
    ((p.joinName last).joinName name).parent = some (p.joinName last) := by
  have cut := pieces_joinName (p := p) proper closed
  obtain ⟨front, lead⟩ := pieces_lead p
  have above : (p.joinName last).pieces = front ++ [last] := by
    rw [joinName_eq closed, lead last closed.bare]
  have leads : ∀ absolute, isVoid absolute front.length last = false := fun absolute => by
    simp [isVoid, closed.filled, closed.inside]
  have back : ofPieces (front ++ [last]) = p.joinName last := by
    rw [← above]
    exact congrArg Path.mk (Text.join_split _)
  have whole : ((p.joinName last).joinName name).trimmed = (front ++ [last] ++ [name]).zipIdx := by
    rw [trimmed_of_pieces cut proper.filled proper.inside, cut, above]
  simp only [parent, whole]
  simp [List.zipIdx_append, leads, back]

end Path

namespace Disk

variable {d d' : Disk} {p : Path} {names front : List String} {name : String} {folder : Place}
  {jump : Place → List String → Except Fault Found} {within : Place → Prop}

theorem filled_of_isFolder (opened : d.isFolder p = true) : p.text ≠ "" := by
  intro empty
  obtain ⟨place, found⟩ := isFolder_iff.mp opened
  simp [stat, find, findFrom, checkText, empty] at found

theorem entryAt_of_isFolder (sound : d.Sound) (plain : d.Plain p) (opened : d.isFolder p = true) :
    d.entryAt (d.placeOf p) = some .folder := by
  obtain ⟨place, found⟩ := isFolder_iff.mp opened
  rw [← stat_place plain found]
  exact stat_entry sound found

/-- What becomes of making folders of some names, each in the one before. -/
def lay (d : Disk) (folder : Place) : List String → Except Fault Unit
  | [] => .ok ()
  | name :: rest =>
    if longestName < name.utf8ByteSize then .error .nameTooLong
    else if (d.leafAt (folder ++ [name])).isSome then
      .error (if rest.isEmpty then .exists else .notFolder)
    else d.lay (folder ++ [name]) rest

/-- Nothing but folders is in the way of the names. -/
def Vacant (d : Disk) (folder : Place) (names : List String) : Prop :=
  ∀ front, front ≠ [] → front <+: names → d.leafAt (folder ++ front) = none

/-- Files may be added below a folder. -/
def Unfixed (folder : Place) : Prop := ∀ names, isFixed (folder ++ names) = false

theorem Unfixed.below (free : Unfixed folder) (names : List String) : Unfixed (folder ++ names) := by
  intro more
  rw [List.append_assoc]
  exact free _

theorem vacant_cons (clear : d.leafAt (folder ++ [name]) = none)
    (rest : d.Vacant (folder ++ [name]) names) : d.Vacant folder (name :: names) := by
  intro front filled inside
  cases front with
  | nil => exact absurd rfl filled
  | cons first more =>
    obtain ⟨rfl, shorter⟩ := List.cons_prefix_cons.mp inside
    by_cases last : more = []
    · simpa [last] using clear
    · simpa using rest more last shorter

theorem Vacant.of_cons (vacant : d.Vacant folder (name :: names)) :
    d.leafAt (folder ++ [name]) = none ∧ d.Vacant (folder ++ [name]) names :=
  ⟨vacant [name] (by simp) (by simp),
    fun front _ inside => by simpa using vacant (name :: front) (by simp) (by simpa using inside)⟩

theorem Vacant.shorter (vacant : d.Vacant folder names) (inside : front <+: names) :
    d.Vacant folder front :=
  fun more filled within => vacant more filled (within.trans inside)

/-- Where nothing is in the way only a name that is too long can fail. -/
theorem lay_vacant (vacant : d.Vacant folder names) : d.lay folder names =
    if ∀ name ∈ names, name.utf8ByteSize ≤ longestName then .ok () else .error .nameTooLong := by
  induction names generalizing folder with
  | nil => simp [lay]
  | cons name rest ih =>
    obtain ⟨clear, more⟩ := vacant.of_cons
    rw [lay, clear, ih more]
    by_cases short : name.utf8ByteSize ≤ longestName
    · simp [short, Nat.not_lt.mpr short]
    · simp [short, Nat.lt_of_not_le short]

theorem lay_congr (same : ∀ front, front ≠ [] → front <+: names →
    d'.leafAt (folder ++ front) = d.leafAt (folder ++ front)) : d'.lay folder names = d.lay folder names := by
  induction names generalizing folder with
  | nil => rfl
  | cons name rest ih =>
    rw [lay, lay, same [name] (by simp) (by simp), ih]
    intro front _ inside
    simpa using same (name :: front) (by simp) (by simpa using inside)

theorem leafAt_folder (there : d.entryAt folder = some .folder) : d.leafAt folder = none := by
  simp [leafAt, there]

theorem leafAt_none (missing : d.entryAt folder = none) : d.leafAt folder = none := by
  simp [leafAt, missing]

theorem Sound.missing (sound : d.Sound) (missing : d.entryAt folder = none) (names : List String) :
    d.entryAt (folder ++ names) = none := by
  by_cases last : names = []
  · simpa [last] using missing
  · by_contra there
    rw [sound.above there last] at missing
    cases missing

/-- Where names lead tells what becomes of making them, unless one is missing on the way. -/
theorem follow_lay (sound : d.Sound) (free : Unfixed folder)
    (unlinked : ∀ more target, d.entryAt (folder ++ more) ≠ some (.link target))
    (proper : ∀ name ∈ names, IsName name) (filled : names ≠ []) :
    match d.follow jump .self folder names with
    | .ok (.taken _ .folder) => d.lay folder names = .ok ()
    | .ok (.taken _ _) => d.lay folder names = .error .exists
    | .ok (.free _ _) => d.lay folder names = .ok ()
    | .error .notFound => d.Vacant folder names ∧ d.entryAt (folder ++ names.dropLast) = none
    | .error fault => d.lay folder names = .error fault := by
  induction names generalizing folder with
  | nil => exact absurd rfl filled
  | cons name rest ih =>
    have named := proper name (by simp)
    have fixed : isFixed folder = false := by simpa using free []
    simp only [follow, named.filled, named.inside, named.below, or_self, if_false, reduceCtorEq,
      false_and]
    by_cases long : longestName < name.utf8ByteSize
    · simp [lay, long]
    simp only [if_neg long]
    cases there : d.entryAt (folder ++ [name]) with
    | none =>
      have clear := leafAt_none there
      by_cases last : rest = []
      · simp [last, fixed, lay, long, clear]
      · have vacant : d.Vacant folder (name :: rest) := by
          refine vacant_cons clear fun front _ _ => leafAt_none (sound.missing there front)
        have gone : d.entryAt (folder ++ (name :: rest).dropLast) = none := by
          rw [List.dropLast_cons_of_ne_nil last]
          simpa using sound.missing there rest.dropLast
        have open' : rest.isEmpty = false := by simpa using last
        simp only [open', Bool.false_and, Bool.false_eq_true, if_false]
        exact ⟨vacant, gone⟩
    | some entry => cases entry with
      | folder =>
        have clear := leafAt_folder there
        have down : d.lay folder (name :: rest) = d.lay (folder ++ [name]) rest := by
          simp [lay, long, clear]
        by_cases last : rest = []
        · simp [last, follow, lay, long, clear]
        · have next := ih (free.below [name]) (fun more target => by simpa using unlinked ([name] ++ more) target)
            (fun other member => proper other (by simp [member])) last
          have front : folder ++ (name :: rest).dropLast = folder ++ [name] ++ rest.dropLast := by
            simp [List.dropLast_cons_of_ne_nil last]
          rw [down, front]
          revert next
          rcases d.follow jump .self (folder ++ [name]) rest with fault | ⟨place, entry⟩ | _
          · cases fault with
            | notFound => exact fun next => ⟨vacant_cons clear next.1, next.2⟩
            | _ => exact id
          · cases entry with
            | _ => exact id
          · exact id
      | link target => exact absurd there (unlinked [name] target)
      | file | program | device =>
        by_cases last : rest = []
        · simp [last, lay, long, leafAt, there]
        · simp [last, lay, long, leafAt, there]

section

variable (sound : d.Sound) (plain : d.Plain p) (opened : d.isFolder p = true)
  (free : Unfixed (d.placeOf p)) (proper : ∀ name ∈ names, IsName name) (filled : names ≠ [])

include sound plain opened proper filled

/-- Names below an open folder are followed from there. -/
theorem follow_opened : d.follow jump .self (d.startOf (names.foldl Path.joinName p))
    (names.foldl Path.joinName p).names = d.follow jump .self (d.placeOf p) names := by
  have whole : names.foldl Path.joinName p = p.join (relativePath names) :=
    Path.foldl_joinName filled proper
  have start : d.startOf (names.foldl Path.joinName p) = d.startOf p := by
    rw [whole, startOf, startOf, Path.isAbsolute_join (Path.relative_of_names proper)]
  have front : d.follow jump .self (d.startOf p) p.names = .ok (.taken (d.placeOf p) .folder) :=
    (follow_folder sound plain opened (by decide)).2
  rw [start, whole, Path.names_joinRelative proper, follow_append (by decide) filled plain.way, front]
  rfl

theorem findFrom_opened (checked : checkText (names.foldl Path.joinName p) = .ok ()) :
    ∃ jump, d.findFrom .self (names.foldl Path.joinName p) (names.foldl Path.joinName p).names =
      d.follow jump .self (d.placeOf p) names := by
  obtain ⟨jump, follows⟩ := followLinks_jump d .self mostLinks
  refine ⟨jump, ?_⟩
  rw [← follow_opened sound plain opened proper filled]
  simp only [findFrom, checked, follows]
  rfl

include free

/-- One folder can be made, or it is there, or a file or the length of a name is in the way; or one
above it is missing. -/
theorem makeFolder_lay (checked : checkText (names.foldl Path.joinName p) = .ok ()) :
    (∃ made, d.makeFolder (names.foldl Path.joinName p) = .ok made ∧
      d.lay (d.placeOf p) names = .ok ()) ∨
    (∃ fault, fault ≠ .notFound ∧ d.makeFolder (names.foldl Path.joinName p) = .error fault ∧
      d.lay (d.placeOf p) names =
        if d.isFolder (names.foldl Path.joinName p) then .ok () else .error fault) ∨
    (d.makeFolder (names.foldl Path.joinName p) = .error .notFound ∧ d.Vacant (d.placeOf p) names ∧
      d.entryAt (d.placeOf p ++ names.dropLast) = none) := by
  obtain ⟨jump, walked⟩ := findFrom_opened sound plain opened proper filled checked
  have looked := stat_follow (plain.joinNames proper).way checked jump
  rw [follow_opened sound plain opened proper filled] at looked
  have laid := @follow_lay d _ _ jump sound free plain.below proper filled
  simp only [makeFolder, walked]
  revert laid looked
  rcases d.follow jump .self (d.placeOf p) names with fault | ⟨place, entry⟩ | _
  · intro looked laid
    have closed : d.isFolder (names.foldl Path.joinName p) = false := by
      simp [isFolder, looked]
    cases fault with
    | notFound => exact .inr (.inr ⟨rfl, laid⟩)
    | _ => exact .inr (.inl ⟨_, by simp, rfl, by simpa [closed] using laid⟩)
  · intro looked laid
    refine .inr (.inl ⟨.exists, by simp, rfl, ?_⟩)
    cases entry with
    | folder =>
      simp only [isFolder, looked, if_true]
      exact laid
    | _ =>
      have closed : d.isFolder (names.foldl Path.joinName p) = false := by
        rcases looked with same | same
        · simp [isFolder, same]
        · simp [isFolder, same]
      simpa [closed] using laid
  · exact fun _ laid => .inl ⟨_, rfl, laid⟩

end

/-- Where folders could be made there is one. -/
theorem folder_of_makeFoldersOf (sound : d.Sound) (plain : d.Plain p) (filled : p.text ≠ "")
    {ups : List Path} (made : d.makeFoldersOf (p :: ups) = (.ok (), d')) :
    d'.entryAt (d.placeOf p) = some .folder := by
  have change := changes_makeFoldersOf sound (p :: ups)
  rw [made] at change
  have opened := (isFolder_of_makeFoldersOf sound made).resolve_left filled
  rw [← change.placeOf]
  exact entryAt_of_isFolder change.sound (change.plain plain) opened

theorem folder_of_makeFolders (sound : d.Sound) (plain : d.Plain p) (filled : p.text ≠ "")
    (made : d.makeFolders p = (.ok (), d')) : d'.entryAt (d.placeOf p) = some .folder := by
  obtain ⟨ups, cut⟩ := Path.go_cons p.text.length p
  rw [makeFolders, Path.ancestors, cut] at made
  exact folder_of_makeFoldersOf sound plain filled made

section

variable (sound : d.Sound) (plain : d.Plain p) (opened : d.isFolder p = true)
  (free : Unfixed (d.placeOf p))

include sound plain opened free

/-- Making folders below an open one comes to what making their names comes to. -/
theorem makeFoldersOf_lay (proper : ∀ name ∈ names, IsName name) (filled : names ≠ [])
    (checked : checkText (names.foldl Path.joinName p) = .ok ()) {steps : Nat}
    (enough : names.length ≤ steps) :
    (d.makeFoldersOf (Path.ancestors.go steps (names.foldl Path.joinName p))).1 =
      d.lay (d.placeOf p) names := by
  have root := filled_of_isFolder opened
  induction names using List.reverseRecOn generalizing steps with
  | nil => exact absurd rfl filled
  | append_singleton front name ih =>
    have text := filled_joinNames proper root
    obtain ⟨steps, rfl⟩ : ∃ more, steps = more + 1 := ⟨steps - 1, by simp at enough; omega⟩
    simp only [Path.ancestors.go, makeFoldersOf, text, if_false]
    rcases makeFolder_lay sound plain opened free proper (by simp) checked with
      ⟨made, first, laid⟩ | ⟨fault, other, first, laid⟩ | ⟨first, vacant, gone⟩
    · rw [first, laid]
    · rw [first, laid]
      cases fault with
      | notFound => exact absurd rfl other
      | _ => rfl
    · simp only [List.dropLast_concat] at gone
      have there := entryAt_of_isFolder sound plain opened
      have inner : front ≠ [] := by
        rintro rfl
        simp [there] at gone
      have above : ∀ name ∈ front, IsName name := fun name member => proper name (by simp [member])
      have short : front.length ≤ steps := by simpa using enough
      obtain ⟨before, last, rfl⟩ : ∃ before last, front = before ++ [last] :=
        ⟨_, _, (List.dropLast_append_getLast inner).symm⟩
      have up : ((before ++ [last] ++ [name]).foldl Path.joinName p).parent =
          some ((before ++ [last]).foldl Path.joinName p) := by
        simp only [List.foldl_append, List.foldl_cons, List.foldl_nil]
        exact Path.parent_joinName (proper name (by simp)) (above last (by simp))
      have filledUp := filled_joinNames above root
      have checkedUp : checkText ((before ++ [last]).foldl Path.joinName p) = .ok () := by
        rw [List.foldl_append] at checked
        exact checkText_of_joinName (proper name (by simp)) filledUp checked
      have upward := ih above inner checkedUp short
      have vacantUp := vacant.shorter (List.prefix_append (before ++ [last]) [name])
      rw [first, up]
      simp only
      rcases made : d.makeFoldersOf (Path.ancestors.go steps ((before ++ [last]).foldl Path.joinName p))
        with ⟨fault | _, between⟩
      · rw [made, lay_vacant vacantUp] at upward
        rw [lay_vacant vacant]
        split at upward
        · cases upward
        · rename_i long
          rw [upward, if_neg fun all => long fun other member =>
            all other (List.mem_append_left _ member)]
      · have change := changes_makeFoldersOf sound
          (Path.ancestors.go steps ((before ++ [last]).foldl Path.joinName p))
        rw [made] at change
        have stands : between.entryAt (d.placeOf p ++ (before ++ [last])) = some .folder := by
          obtain ⟨ups, cut⟩ := Path.go_cons steps ((before ++ [last]).foldl Path.joinName p)
          rw [← placeOf_joinNames above]
          exact folder_of_makeFoldersOf sound (plain.joinNames above) filledUp (cut ▸ made)
        have same : between.lay (d.placeOf p) (before ++ [last] ++ [name]) =
            d.lay (d.placeOf p) (before ++ [last] ++ [name]) :=
          lay_congr fun front _ _ => (change.leaves _).resolve_right id
        have again := makeFolder_lay change.sound (change.plain plain)
          (change.isFolder sound plain opened) (by rwa [change.placeOf]) proper (by simp) checked
        rw [change.placeOf, same] at again
        rcases again with ⟨_, second, laid⟩ | ⟨fault, _, second, laid⟩ | ⟨_, _, missing⟩
        · simp only [second, laid]
        · simp only [second, laid]
        · rw [List.dropLast_concat, stands] at missing
          cases missing

end

theorem length_joinNames (p : Path) (proper : ∀ name ∈ names, IsName name) :
    names.length ≤ (names.foldl Path.joinName p).text.length := by
  induction names using List.reverseRecOn with
  | nil => simp
  | append_singleton front name ih =>
    have named := proper name (by simp)
    have above := ih fun other member => proper other (List.mem_append_left _ member)
    have filled : 0 < name.length := by
      rw [Nat.pos_iff_ne_zero, ne_eq, ← String.length_toList, List.length_eq_zero_iff,
        String.toList_eq_nil_iff]
      exact named.filled
    have longer : (front.foldl Path.joinName p).text.length ≤
        (front.foldl Path.joinName p).lead.length := by
      rw [Path.lead]
      split <;> simp
    rw [List.foldl_append, List.foldl_cons, List.foldl_nil, Path.joinName_eq named]
    simp only [List.length_append, List.length_cons, List.length_nil, String.length_append]
    omega

end Disk

namespace Path

variable {p q : Path} {name : String}

theorem relative_of_bare (bare : '/' ∉ name.toList) : Path.isAbsolute ⟨name⟩ = false := by
  rcases text : name.toList with _ | ⟨c, cs⟩
  · simp [isAbsolute, text]
  · have other : c ≠ '/' := fun same => bare (by simp [text, same])
    simpa [isAbsolute, text] using other

theorem names_of_bare (filled : name ≠ "") (bare : '/' ∉ name.toList) : Path.names ⟨name⟩ = [name] := by
  simp [Path.names, pieces, Text.split, Chars.split_of_not_mem bare, filled]

/-- The text of the parent stands in front of the name. -/
theorem text_parent (bare : '/' ∉ name.toList) (up : (p.joinName name).parent = some q) :
    q.text.toList <+: p.text.toList := by
  have relative := relative_of_bare bare
  have lead : p.lead.toList = p.text.toList ∨ p.lead.toList = p.text.toList ++ ['/'] := by
    rw [Path.lead]
    split
    · exact .inl rfl
    · exact .inr (by simp)
  rcases pieces_parent up with top | ⟨front, last, more, other, rest, cut, rfl, _, _⟩
  · rw [top, joinName, isAbsolute_join relative]
    split
    · rename_i absolute
      rw [Path.isAbsolute, beq_iff_eq, List.head?_eq_some_iff] at absolute
      obtain ⟨rest, text⟩ := absolute
      simp [text]
    · simp
  · have whole : (ofPieces (front ++ [last])).text.toList ++
        '/' :: (Text.join "/" (more ++ other :: rest)).toList = p.lead.toList ++ name.toList := by
      have text : (p.joinName name).text = Text.join "/" (p.joinName name).pieces :=
        (Text.join_split _).symm
      have parts : front ++ last :: more ++ other :: rest =
          (front ++ [last]) ++ (more ++ other :: rest) := by simp
      rw [cut, parts, Text.join_append (by simp) (by simp), joinName, join_eq relative] at text
      have chars := congrArg String.toList text
      simpa [ofPieces] using chars.symm
    rcases List.append_eq_append_iff.mp whole with ⟨between, leads, tail⟩ | ⟨between, _, tail⟩
    · cases between with
      | nil =>
        have inside : '/' ∈ [] ++ name.toList := tail ▸ List.mem_cons_self
        exact absurd inside bare
      | cons first back =>
        rcases lead with same | longer
        · exact ⟨first :: back, by rw [← same, leads]⟩
        · refine @List.prefix_of_prefix_length_le _ _ _ (p.text.toList ++ ['/']) ⟨_, leads.symm.trans longer⟩
            (List.prefix_append _ _) ?_
          have size := congrArg List.length (leads.symm.trans longer)
          simp only [List.length_append, List.length_cons, List.length_nil] at size
          omega
    · exact absurd (show '/' ∈ name.toList by simp [tail]) bare

end Path

namespace Disk

variable {d d' : Disk} {p q : Path} {names front : List String} {name : String} {folder : Place}
  {within : Place → Prop}

theorem checkText_shorter (filled : q.text ≠ "") (shorter : q.text.toList <+: p.text.toList)
    (checked : checkText p = .ok ()) : checkText q = .ok () := by
  simp only [checkText] at checked
  split at checked
  · cases checked
  split at checked
  · cases checked
  split at checked
  · cases checked
  rename_i zero _ long
  have size : q.text.utf8ByteSize ≤ p.text.utf8ByteSize := by
    obtain ⟨rest, text⟩ := shorter
    have whole : p.text = q.text ++ String.ofList rest := by
      rw [← String.toList_inj, String.toList_append, String.toList_ofList, text]
    rw [whole, String.utf8ByteSize_append]
    omega
  have inside : q.text.toList.contains (Char.ofNat 0) = false := by
    rw [Bool.eq_false_iff, ne_eq, List.contains_iff_mem]
    exact fun member => zero (List.contains_iff_mem.mpr (shorter.subset member))
  have short : ¬ longestPath < q.text.utf8ByteSize := fun longer => long (by omega)
  simp only [checkText, inside, filled, short, Bool.false_eq_true, if_false]

/-- Nothing has to be made above a name in an open folder. -/
theorem makeFolders_parent (sound : d.Sound) (plain : d.Plain p) (opened : d.isFolder p = true)
    (filled : name ≠ "") (bare : '/' ∉ name.toList) (up : (p.joinName name).parent = some q) :
    d.makeFolders q = (.ok (), d) := by
  have relative := Path.relative_of_bare bare
  obtain ⟨ups, cut⟩ := Path.go_cons q.text.length q
  rw [makeFolders, Path.ancestors, cut]
  by_cases top : q.text = ""
  · simp [makeFoldersOf, top]
  obtain ⟨shorter, absolute⟩ := Path.names_parent up
  rw [Path.joinName, Path.names_join relative, Path.names_of_bare filled bare, List.dropLast_concat]
    at shorter
  obtain ⟨more, parts⟩ := shorter
  have start : d.startOf q = d.startOf p := by
    rw [startOf, startOf, absolute.resolve_left top, Path.joinName, Path.isAbsolute_join relative]
  have clear : ∀ place ∈ way (d.startOf q) q.names, ∀ target, d.entryAt place ≠ some (.link target) := by
    intro place member
    rw [start] at member
    exact plain.way place ((way_front ⟨more, parts⟩ _).subset member)
  obtain ⟨jump, follows⟩ := followLinks_jump d .self mostLinks
  obtain ⟨checked, followed⟩ := @follow_folder d _ jump .self sound plain opened (by decide)
  obtain ⟨above, found⟩ : ∃ above, d.follow jump .self (d.startOf q) q.names = .ok (.taken above .folder) := by
    rw [start]
    by_cases last : more = []
    · exact ⟨_, by simpa [last, ← parts] using followed⟩
    · rw [← parts] at followed
      obtain ⟨above, found, _⟩ := follow_append_ok (by decide) last
        (fun place member => clear place (by rwa [start])) followed
      exact ⟨above, found⟩
  have checkedUp := checkText_shorter top (Path.text_parent bare up) checked
  have looked := stat_follow clear checkedUp jump
  rw [found] at looked
  have there : d.makeFolder q = .error .exists := by
    have sought : d.findFrom .self q q.names = .ok (.taken above .folder) := by
      simp only [findFrom, checkedUp, follows, ← found]
      rfl
    simp only [makeFolder, sought]
  have opens : d.isFolder q = true := isFolder_iff.mpr ⟨_, looked⟩
  simp only [makeFoldersOf, top, if_false, there, opens, if_true]

/-- It is the same to make folders later, as long as the files in the way are the same. -/
theorem makeFolders_same (change : Changes within d d') (sound : d.Sound) (plain : d.Plain p)
    (opened : d.isFolder p = true) (free : Unfixed (d.placeOf p))
    (proper : ∀ name ∈ names, IsName name) (filled : names ≠ [])
    (same : ∀ front, front ≠ [] → front <+: names →
      d'.leafAt (d.placeOf p ++ front) = d.leafAt (d.placeOf p ++ front)) :
    (d'.makeFolders (names.foldl Path.joinName p)).1 =
      (d.makeFolders (names.foldl Path.joinName p)).1 := by
  have enough := length_joinNames p proper
  rw [makeFolders, makeFolders, Path.ancestors]
  rcases checked : checkText (names.foldl Path.joinName p) with fault | _
  · obtain ⟨ups, cut⟩ := Path.go_cons (names.foldl Path.joinName p).text.length
      (names.foldl Path.joinName p)
    have text := filled_joinNames proper (filled_of_isFolder opened)
    have other : fault ≠ .notFound := by
      rintro rfl
      exact checkText_filled text checked
    have failed : ∀ e : Disk, (e.makeFoldersOf (names.foldl Path.joinName p :: ups)).1 = .error fault := by
      intro e
      have first : e.makeFolder (names.foldl Path.joinName p) = .error fault := by
        simp [makeFolder, findFrom, checked]
      have closed : e.isFolder (names.foldl Path.joinName p) = false := by
        simp [isFolder, stat, find, findFrom, checked]
      simp only [makeFoldersOf, text, if_false, first, closed]
      cases fault with
      | notFound => exact absurd rfl other
      | _ => rfl
    rw [cut, failed, failed]
  · rw [makeFoldersOf_lay sound plain opened free proper filled checked enough,
      makeFoldersOf_lay change.sound (change.plain plain) (change.isFolder sound plain opened)
        (by rwa [change.placeOf]) proper filled checked enough, change.placeOf, lay_congr same]

/-- What becomes of writing a file where an entry stands. -/
def overwrite : Option Entry → Except Fault Unit
  | some (.device device) => if device = .full then .error .noSpace else .ok ()
  | some (.program _) => .error .denied
  | some .folder => .error .isFolder
  | _ => .ok ()

theorem overwrite_congr {place : Place} (same : d'.leafAt place = d.leafAt place)
    (flat : d'.entryAt place = some .folder ↔ d.entryAt place = some .folder) :
    overwrite (d'.entryAt place) = overwrite (d.entryAt place) := by
  by_cases folder : d.entryAt place = some .folder
  · rw [folder, flat.mpr folder]
  · have leaf : ∀ {e : Disk}, e.entryAt place ≠ some .folder → e.leafAt place = e.entryAt place := by
      intro e other
      unfold leafAt
      split <;> simp_all
    rw [← leaf folder, ← leaf fun there => folder (flat.mp there), same]

section

variable {jump : Place → List String → Except Fault Found}

/-- Names below a folder that is there lead to the last of them. -/
theorem follow_down (sound : d.Sound) (free : Unfixed folder)
    (proper : ∀ n ∈ front ++ [name], IsName n)
    (there : d.entryAt (folder ++ front) = some .folder) :
    d.follow jump .self folder (front ++ [name]) =
      if ∀ n ∈ front ++ [name], n.utf8ByteSize ≤ longestName then
        match d.entryAt (folder ++ (front ++ [name])) with
        | none => .ok (.free (folder ++ front) name)
        | some entry => .ok (.taken (folder ++ (front ++ [name])) entry)
      else .error .nameTooLong := by
  induction front generalizing folder with
  | nil =>
    have named := proper name (by simp)
    have fixed : isFixed folder = false := by simpa using free []
    by_cases short : name.utf8ByteSize ≤ longestName
    · cases here : d.entryAt (folder ++ [name]) with
      | none => simp [follow, named.filled, named.inside, named.below, short, fixed, here]
      | some entry => cases entry with
        | _ => simp [follow, named.filled, named.inside, named.below, short, here]
    · simp [follow, named.filled, named.inside, named.below, short]
  | cons first rest ih =>
    have named := proper first (by simp)
    have whole : folder ++ first :: rest = folder ++ [first] ++ rest := by simp
    have stands : d.entryAt (folder ++ [first]) = some .folder := by
      by_cases last : rest = []
      · simpa [last] using there
      · exact sound.above (whole ▸ there ▸ Option.some_ne_none _) last
    have next := ih (free.below [first]) (fun other member => proper other (List.mem_cons_of_mem _ member))
      (whole ▸ there)
    by_cases short : first.utf8ByteSize ≤ longestName
    · simp only [List.cons_append, follow, named.filled, named.inside, named.below, or_self, if_false,
        reduceCtorEq, false_and, Nat.not_lt.mpr short, stands, next, List.forall_mem_cons, short, true_and,
        List.append_assoc, List.nil_append]
    · simp [follow, named.filled, named.inside, named.below, short]

end

theorem mem_way {place start : Place} (member : place ∈ way start names) :
    ∃ front back, names = front ++ back ∧ place = front.foldl stepTo start := by
  induction names generalizing start with
  | nil => cases member
  | cons name rest ih =>
    rcases List.mem_cons.mp member with rfl | later
    · exact ⟨[name], rest, rfl, rfl⟩
    · obtain ⟨front, back, rfl, rfl⟩ := ih later
      exact ⟨name :: front, back, rfl, rfl⟩

/-- An open folder is reached through folders. -/
theorem entryAt_way (sound : d.Sound) (plain : d.Plain p) (opened : d.isFolder p = true) {place : Place}
    (member : place ∈ way (d.startOf p) p.names) : d.entryAt place = some .folder := by
  obtain ⟨front, back, parts, rfl⟩ := mem_way member
  have shorter : front <+: p.names := ⟨back, parts.symm⟩
  have clear : ∀ place ∈ way (d.startOf p) front, ∀ target, d.entryAt place ≠ some (.link target) :=
    fun place member => plain.way place ((way_front shorter _).subset member)
  have bare : ∀ name ∈ front, '/' ∉ name.toList :=
    fun name member => (Path.mem_names (shorter.subset member)).2
  have walked : d.follow (fun _ _ => .error .tooManyLinks) .self (d.startOf p) p.names =
      .ok (.taken (d.placeOf p) .folder) := (follow_folder sound plain opened (by decide)).2
  obtain ⟨above, found⟩ : ∃ above,
      d.follow (fun _ _ => .error .tooManyLinks) .self (d.startOf p) front = .ok (.taken above .folder) := by
    by_cases last : back = []
    · exact ⟨_, by simpa [last, parts] using walked⟩
    · rw [parts] at walked
      obtain ⟨above, found, _⟩ := follow_append_ok (by decide) last clear walked
      exact ⟨above, found⟩
  have here : above = front.foldl stepTo (d.startOf p) := follow_place clear found
  rw [← here]
  exact follow_fits sound (fun _ _ _ _ _ jumped => by cases jumped) (startOf_entry sound p) bare found

section

variable (sound : d.Sound) (plain : d.Plain p) (opened : d.isFolder p = true)
  (free : Unfixed (d.placeOf p)) (proper : ∀ n ∈ front ++ [name], IsName n)

include sound plain opened proper

theorem find_opened (aim : Aim) (checked : checkText ((front ++ [name]).foldl Path.joinName p) = .ok ()) :
    ∃ jump, d.find aim ((front ++ [name]).foldl Path.joinName p) =
      d.follow jump .self (d.placeOf p) (front ++ [name]) := by
  have named := proper name (by simp)
  have steps : ((front ++ [name]).foldl Path.joinName p).steps =
      ((front ++ [name]).foldl Path.joinName p).names := by
    rw [List.foldl_append, List.foldl_cons, List.foldl_nil, steps_joinName named,
      Path.names_joinName named]
  obtain ⟨jump, follows⟩ := followLinks_jump d aim mostLinks
  have alike : d.follow jump aim (d.startOf ((front ++ [name]).foldl Path.joinName p))
      ((front ++ [name]).foldl Path.joinName p).names =
      d.follow jump .self (d.startOf ((front ++ [name]).foldl Path.joinName p))
      ((front ++ [name]).foldl Path.joinName p).names :=
    follow_alike (.inr fun void => (Path.mem_names void).1 rfl) (plain.joinNames proper).way
  refine ⟨jump, ?_⟩
  rw [← follow_opened sound plain opened proper (by simp), ← alike]
  simp only [find, findFrom, checked, follows, steps]
  rfl

/-- A file needs no folder in its own place. -/
theorem folder_iff_makeFolders : (d.makeFolders (front.foldl Path.joinName p)).2.entryAt
      (d.placeOf p ++ (front ++ [name])) = some .folder ↔
    d.entryAt (d.placeOf p ++ (front ++ [name])) = some .folder := by
  have above : ∀ name ∈ front, IsName name := fun other member => proper other (by simp [member])
  have clear := plain.joinNames above
  refine ⟨fun folder => ?_, (changes_makeFolders sound _).folders _⟩
  have either : _ ∨ d.placeOf p ++ (front ++ [name]) ∈ _ := entryAt_makeFolders sound clear.way
  rcases either with same | passed
  · rwa [same] at folder
  · by_cases last : front = []
    · subst last
      exact entryAt_way sound plain opened passed
    have whole : front.foldl Path.joinName p = p.join (relativePath front) := Path.foldl_joinName last above
    have start : d.startOf (front.foldl Path.joinName p) = d.startOf p := by
      rw [whole, startOf, startOf, Path.isAbsolute_join (Path.relative_of_names above)]
    rw [start, whole, Path.names_joinRelative above, way_append] at passed
    rcases List.mem_append.mp passed with outside | inside
    · exact entryAt_way sound plain opened outside
    · obtain ⟨more, _, shorter, same⟩ := mem_way_proper above inside
      have size := congrArg List.length (List.append_cancel_left same)
      have fewer := shorter.length_le
      simp only [List.length_append, List.length_cons, List.length_nil] at size
      omega

include free

/-- Writing below an open folder comes to writing where the names lead. -/
theorem write_opened (content : ByteArray) (there : d.entryAt (d.placeOf p ++ front) = some .folder)
    (checked : checkText ((front ++ [name]).foldl Path.joinName p) = .ok ()) :
    (d.write ((front ++ [name]).foldl Path.joinName p) content).map (fun _ => ()) =
      if ∀ n ∈ front ++ [name], n.utf8ByteSize ≤ longestName then
        overwrite (d.entryAt (d.placeOf p ++ (front ++ [name])))
      else .error .nameTooLong := by
  obtain ⟨jump, found⟩ := find_opened sound plain opened proper .file checked
  simp only [write, found, follow_down sound free proper there]
  by_cases short : ∀ n ∈ front ++ [name], n.utf8ByteSize ≤ longestName
  · simp only [if_pos short]
    cases here : d.entryAt (d.placeOf p ++ (front ++ [name])) with
    | none => rfl
    | some entry => cases entry with
      | device device => by_cases full : device = .full <;> simp [overwrite, full, Except.map]
      | link target => exact absurd here (plain.below _ target)
      | file | folder | program => rfl
  · simp only [if_neg short]
    rfl

end

/-- What a path leads to later it led to before, if it was there. -/
theorem Changes.stat_before {place : Place} {entry : Entry} (change : Changes within d d')
    (sound : d.Sound) (plain : d.Plain p) (opened : d.isFolder p = true)
    (proper : ∀ n ∈ front ++ [name], IsName n)
    (found : d'.stat ((front ++ [name]).foldl Path.joinName p) = .ok (place, entry))
    (leaf : entry ≠ .folder) (same : d'.leafAt (d.placeOf p ++ (front ++ [name])) =
      d.leafAt (d.placeOf p ++ (front ++ [name]))) :
    d.stat ((front ++ [name]).foldl Path.joinName p) = .ok (place, entry) := by
  have plain' := change.plain plain
  have opened' := change.isFolder sound plain opened
  have here : place = d.placeOf p ++ (front ++ [name]) := by
    rw [stat_place (plain'.joinNames proper) found, placeOf_joinNames proper, change.placeOf]
  have checked := (findFrom_eq (stat_find found)).1
  have there : d.entryAt (d.placeOf p ++ (front ++ [name])) = some entry := by
    rw [← leafAt_eq_some leaf, ← same, leafAt_eq_some leaf, ← here]
    exact stat_entry change.sound found
  have unlinked : ∀ target, entry ≠ .link target := by
    rintro target rfl
    exact plain.below _ target there
  obtain ⟨jump, walked⟩ := find_opened sound plain opened proper .target checked
  obtain ⟨jump', walked'⟩ := find_opened change.sound plain' opened' proper .target checked
  have short := short_of_follow proper (fun passed member => by
    obtain ⟨more, rfl⟩ := way_proper proper member
    exact plain'.below more) (walked' ▸ stat_find found)
  have followed := @follow_there d jump .self _ _ _ sound (by decide) proper short (by simp)
    there leaf unlinked
  rw [here]
  exact stat_of_find (walked.trans followed)

end Disk

namespace ArtifactCache

open Disk

variable {d d' : Disk} {p q : Path} {names front : List String} {name : String}
  {within : Place → Prop} {content : ByteArray}

theorem writeFile_fst (d : Disk) (p : Path) (content : ByteArray) : (writeFile d p content).1 =
    ((d.write p content).map fun _ => ()).mapError (CacheError.disk p) := by
  rw [writeFile]
  split
  · rename_i written
    rw [written]
    rfl
  · rename_i failed
    rw [failed]
    rfl

/-- A disk with a folder ready for a file. -/
structure Ready (d : Disk) (p : Path) (front : List String) : Prop where
  sound : d.Sound
  plain : d.Plain p
  opened : d.isFolder p = true
  free : Unfixed (d.placeOf p)
  there : d.entryAt (d.placeOf p ++ front) = some .folder

theorem Ready.writeFile (ready : Ready d p front) (ready' : Ready d' p front)
    (proper : ∀ n ∈ front ++ [name], IsName n) (place : d'.placeOf p = d.placeOf p)
    (same : d'.leafAt (d.placeOf p ++ (front ++ [name])) = d.leafAt (d.placeOf p ++ (front ++ [name])))
    (flat : d'.entryAt (d.placeOf p ++ (front ++ [name])) = some .folder ↔
      d.entryAt (d.placeOf p ++ (front ++ [name])) = some .folder) :
    (ArtifactCache.writeFile d' ((front ++ [name]).foldl Path.joinName p) content).1 =
      (ArtifactCache.writeFile d ((front ++ [name]).foldl Path.joinName p) content).1 := by
  rw [writeFile_fst, writeFile_fst]
  rcases checked : checkText ((front ++ [name]).foldl Path.joinName p) with fault | _
  · have failed : ∀ e : Disk, e.write ((front ++ [name]).foldl Path.joinName p) content = .error fault := by
      intro e
      simp only [write, find, findFrom, checked]
    rw [failed, failed]
  · rw [write_opened ready.sound ready.plain ready.opened ready.free proper content ready.there checked,
      write_opened ready'.sound ready'.plain ready'.opened ready'.free proper content ready'.there checked,
      place, overwrite_congr same flat]

/-- It is the same to write a file later, as long as the files in the way are the same. -/
theorem writeArtifact_same (change : Changes within d d') (sound : d.Sound) (plain : d.Plain p)
    (opened : d.isFolder p = true) (free : Unfixed (d.placeOf p))
    (proper : ∀ n ∈ front ++ [name], IsName n)
    (same : ∀ more, more ≠ [] → more <+: front ++ [name] →
      d'.leafAt (d.placeOf p ++ more) = d.leafAt (d.placeOf p ++ more))
    (flat : d'.entryAt (d.placeOf p ++ (front ++ [name])) = some .folder →
      d.entryAt (d.placeOf p ++ (front ++ [name])) = some .folder) (content : ByteArray) :
    (writeArtifact d' ((front ++ [name]).foldl Path.joinName p) content).1 =
      (writeArtifact d ((front ++ [name]).foldl Path.joinName p) content).1 := by
  have named := proper name (by simp)
  have plain' := change.plain plain
  have opened' := change.isFolder sound plain opened
  have free' : Unfixed (d'.placeOf p) := by rwa [change.placeOf]
  have leaf := same (front ++ [name]) (by simp) List.prefix_rfl
  have flat' : d'.entryAt (d.placeOf p ++ (front ++ [name])) = some .folder ↔
      d.entryAt (d.placeOf p ++ (front ++ [name])) = some .folder := ⟨flat, change.folders _⟩
  rcases List.eq_nil_or_concat' front with rfl | ⟨before, last, rfl⟩
  · have ready : Ready d p [] :=
      ⟨sound, plain, opened, free, by simpa using entryAt_of_isFolder sound plain opened⟩
    have ready' : Ready d' p [] := ⟨change.sound, plain', opened', free', by
      simpa using entryAt_of_isFolder change.sound plain' opened'⟩
    have direct : ∀ {e : Disk}, e.Sound → e.Plain p → e.isFolder p = true →
        (writeArtifact e (p.joinName name) content).1 = (writeFile e (p.joinName name) content).1 := by
      intro e sound plain opened
      simp only [writeArtifact]
      split
      · rfl
      · rename_i up
        simp only [makeFolder, makeFolders_parent sound plain opened named.filled named.bare up]
    exact (direct change.sound plain' opened').trans
      ((ready.writeFile ready' proper (change.placeOf p) leaf flat').trans (direct sound plain opened).symm)
  · have above : ∀ n ∈ before ++ [last], IsName n := fun n member =>
      proper n (List.mem_append_left _ member)
    have up : ((before ++ [last] ++ [name]).foldl Path.joinName p).parent =
        some ((before ++ [last]).foldl Path.joinName p) := by
      simp only [List.foldl_append, List.foldl_cons, List.foldl_nil]
      exact Path.parent_joinName named (above last (by simp))
    have alike := makeFolders_same change sound plain opened free above (by simp)
      fun more filled shorter => same more filled (shorter.trans (List.prefix_append _ _))
    have filled := filled_joinNames above (filled_of_isFolder opened)
    have stands : ∀ {e made : Disk}, e.Sound → e.Plain p →
        e.makeFolders ((before ++ [last]).foldl Path.joinName p) = (.ok (), made) →
        made.entryAt (e.placeOf p ++ (before ++ [last])) = some .folder := by
      intro e made sound plain done
      rw [← placeOf_joinNames above]
      exact folder_of_makeFolders sound (plain.joinNames above) filled done
    have first := changes_makeFolders sound ((before ++ [last]).foldl Path.joinName p)
    have second := changes_makeFolders change.sound ((before ++ [last]).foldl Path.joinName p)
    have flatten := folder_iff_makeFolders sound plain opened proper
    have flatten' := folder_iff_makeFolders change.sound plain' opened' proper
    simp only [writeArtifact, up, makeFolder]
    rcases done : d.makeFolders ((before ++ [last]).foldl Path.joinName p) with ⟨fault | _, made⟩
    · rcases done' : d'.makeFolders ((before ++ [last]).foldl Path.joinName p) with ⟨fault' | _, made'⟩
      · rw [done, done'] at alike
        cases alike
        rfl
      · rw [done, done'] at alike
        cases alike
    · rcases done' : d'.makeFolders ((before ++ [last]).foldl Path.joinName p) with ⟨fault' | _, made'⟩
      · rw [done, done'] at alike
        cases alike
      · rw [done] at first flatten
        rw [done', change.placeOf] at flatten'
        rw [done'] at second
        have place : made.placeOf p = d.placeOf p := first.placeOf p
        have place' : made'.placeOf p = d.placeOf p := (second.placeOf p).trans (change.placeOf p)
        have ready : Ready made p (before ++ [last]) := ⟨first.sound, first.plain plain,
          first.isFolder sound plain opened, by rwa [place], place ▸ stands sound plain done⟩
        have ready' : Ready made' p (before ++ [last]) := ⟨second.sound, second.plain plain',
          second.isFolder change.sound plain' opened', by rwa [place'],
          by
            rw [place', ← change.placeOf]
            exact stands change.sound plain' done'⟩
        refine ready.writeFile ready' proper (place'.trans place.symm) ?_ ?_
        · rw [place, (second.leaves _).resolve_right id, leaf, (first.leaves _).resolve_right id]
        · rw [place, flatten', flat', flatten]

/-- What is to be written in the place of the folder above an open one fails, however often. -/
theorem writeArtifact_up (sound : d.Sound) (plain : d.Plain p) (opened : d.isFolder p = true)
    (content : ByteArray) : (writeArtifact d (p.joinName "..") content).1 =
      .error (.disk (p.joinName "..") (match checkText (p.joinName "..") with
        | .error fault => fault
        | .ok () => .isFolder)) := by
  have relative : Path.isAbsolute ⟨".."⟩ = false := Path.relative_of_bare (by decide)
  have written : (writeFile d (p.joinName "..") content).1 =
      .error (.disk (p.joinName "..") (match checkText (p.joinName "..") with
        | .error fault => fault
        | .ok () => .isFolder)) := by
    rcases checked : checkText (p.joinName "..") with fault | _
    · simp [writeFile, write, find, findFrom, checked]
    have names : (p.joinName "..").names = p.names ++ [".."] := by
      rw [Path.joinName, Path.names_join relative, show Path.names ⟨".."⟩ = [".."] by decide]
    have start : d.startOf (p.joinName "..") = d.startOf p := by
      rw [startOf, startOf, Path.joinName, Path.isAbsolute_join relative]
    have closed : (p.joinName "..").asksForFolder = false := by
      simp [Path.asksForFolder, Path.joinName, Path.join_eq relative]
    have clear : ∀ place ∈ way (d.startOf p) (p.names ++ [".."]), ∀ target,
        d.entryAt place ≠ some (.link target) := by
      intro place member target linked
      rw [way_append, List.mem_append] at member
      rcases member with inside | last
      · exact plain.way place inside target linked
      · rw [List.mem_singleton.mp last] at linked
        have up := sound.up (entryAt_of_isFolder sound plain opened)
        have here : stepTo (p.names.foldl stepTo (d.startOf p)) ".." = (d.placeOf p).dropLast := rfl
        rw [here, up] at linked
        cases linked
    obtain ⟨jump, follows⟩ := followLinks_jump d .file mostLinks
    have walked := (@follow_folder d _ jump .self sound plain opened (by decide)).2
    have filled : "" ∉ p.names ++ [".."] := by simp [Path.names]
    have alike : d.follow jump .file (d.startOf p) (p.names ++ [".."]) =
        d.follow jump .self (d.startOf p) (p.names ++ [".."]) := follow_alike (.inr filled) clear
    have followed : d.follow jump .file (d.startOf p) (p.names ++ [".."]) =
        .ok (.taken (d.placeOf p).dropLast .folder) := by
      rw [alike, follow_append (by decide) (by simp) plain.way, walked]
      simp [followOn, follow]
    have sought : d.find .file (p.joinName "..") = .ok (.taken (d.placeOf p).dropLast .folder) := by
      refine findFrom_of_follow checked ?_
      rw [follows, start, Path.steps, closed, names]
      exact followed
    simp [writeFile, write, sought]
  unfold writeArtifact
  split
  · exact written
  · rename_i q up
    rw [makeFolder, makeFolders_parent sound plain opened (by decide) (by decide) up]
    exact written

end ArtifactCache
end LayerCache
