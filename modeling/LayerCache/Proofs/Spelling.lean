import LayerCache.Proofs.Manifest
import LayerCache.Proofs.Sources

/-! How units are spelled. A text of names between slashes of either kind stands for these names in
order, and the logical name is the names joined again. All spellings of a unit give one identity, and
a logical name is a spelling of itself, unless the extension was all that made its last name one. -/
namespace LayerCache

/-- A name that no spelling cuts. -/
structure IsSegment (name : String) : Prop extends IsName name where
  straight : '\\' ∉ name.toList

instance (name : String) : Decidable (IsSegment name) :=
  decidable_of_iff (name ≠ "" ∧ name ≠ "." ∧ name ≠ ".." ∧ '/' ∉ name.toList ∧ '\\' ∉ name.toList)
    ⟨fun ⟨filled, inside, below, bare, straight⟩ => ⟨⟨filled, inside, below, bare⟩, straight⟩,
      fun proper => ⟨proper.filled, proper.inside, proper.below, proper.bare, proper.straight⟩⟩

def IsSlash (s : String) : Prop := s = "/" ∨ s = "\\"

/-- Texts that spell some names in order. What is empty or a single dot between slashes names
nothing. -/
inductive Spells : List String → String → Prop where
  | name (n : String) : Spells [n] n
  | empty : Spells [] ""
  | dot : Spells [] "."
  | join {front back : List String} {a slash b : String} (first : Spells front a)
      (between : IsSlash slash) (second : Spells back b) : Spells (front ++ back) (a ++ slash ++ b)

/-- The unit of a text: of a symbol, or of a path or an entry with the extension. -/
inductive UnitId.Reads (raw : String) : Option String → UnitId → Prop where
  | symbol : Reads raw none (.ofSymbol raw)
  | relative (ending : String) : Reads raw (some ending) (.ofRelative ⟨raw⟩ ending)
  | entry (ending : String) : Reads raw (some ending) (.ofEntry raw ending)

/-- The names a unit was written from: those of a symbol, or those of a file with the extension, in
any case, behind the last. -/
inductive UnitId.WrittenFrom (ending : String) : List String → UnitId → Prop where
  | symbol {names : List String} {raw : String} (spelled : Spells names raw) :
      WrittenFrom ending names (.ofSymbol raw)
  | relative {front : List String} {last old raw : String}
      (spelled : Spells (front ++ [last ++ "." ++ old]) raw)
      (same : Text.sameIgnoringCase old ending = true) :
      WrittenFrom ending (front ++ [last]) (.ofRelative ⟨raw⟩ ending)
  | entry {front : List String} {last old raw : String}
      (spelled : Spells (front ++ [last ++ "." ++ old]) raw)
      (same : Text.sameIgnoringCase old ending = true) :
      WrittenFrom ending (front ++ [last]) (.ofEntry raw ending)

section

variable {raw name other head old ending : String} {names front : List String} {u v : UnitId}

/-! The segments of a spelling. -/

theorem segmentsOf_append {slash : String} (cuts : IsSlash slash) (a b : String) :
    segmentsOf (a ++ slash ++ b) = segmentsOf a ++ segmentsOf b := by
  have whole : Text.slashes (a ++ slash ++ b) = Text.slashes a ++ "/" ++ Text.slashes b := by
    apply String.toList_inj.mp
    rcases cuts with rfl | rfl
    all_goals simp [Text.slashes]
  rw [segmentsOf, whole, Text.split_append, List.filter_append]
  rfl

theorem segmentsOf_of_isSegment (proper : IsSegment name) : segmentsOf name = [name] := by
  have single : segmentsOf (Disk.relativePath [name]).text = [name] :=
    UnitId.segmentsOf_relativePath (by simp) (by simpa using proper.toIsName)
      (by simpa using proper.straight)
  exact single

theorem Spells.segments (spelled : Spells names raw) (proper : ∀ n ∈ names, IsSegment n) :
    segmentsOf raw = names := by
  induction spelled with
  | name n => exact segmentsOf_of_isSegment (proper n (by simp))
  | empty => decide
  | dot => decide
  | join first between second ihFirst ihSecond =>
    rw [segmentsOf_append between, ihFirst fun n member => proper n (by simp [member]),
      ihSecond fun n member => proper n (by simp [member])]

theorem spells_of_uncut (bare : '/' ∉ raw.toList) (straight : '\\' ∉ raw.toList) :
    Spells (segmentsOf raw) raw := by
  have whole : segmentsOf raw = [raw].filter fun n => n ≠ "" ∧ n ≠ "." := by
    rw [segmentsOf, Text.slashes_of_straight straight, Text.split, Chars.split_of_not_mem bare]
    simp
  rw [whole]
  by_cases void : raw = "" ∨ raw = "."
  · rcases void with rfl | rfl
    · exact .empty
    · exact .dot
  · rw [not_or] at void
    simpa [void] using Spells.name raw

/-- Every text is a spelling of its segments. -/
theorem spells_segmentsOf (raw : String) : Spells (segmentsOf raw) raw := by
  have parts : ∀ (cs : List Char) (front : String), '/' ∉ front.toList → '\\' ∉ front.toList →
      Spells (segmentsOf (front ++ String.ofList cs)) (front ++ String.ofList cs) := by
    intro cs
    induction cs with
    | nil => exact fun front bare straight => by simpa using spells_of_uncut bare straight
    | cons c rest ih =>
      intro front bare straight
      have cut : front ++ String.ofList (c :: rest) =
          front ++ String.ofList [c] ++ String.ofList rest :=
        String.toList_inj.mp (by simp)
      rw [cut]
      by_cases slash : IsSlash (String.ofList [c])
      · rw [segmentsOf_append slash]
        exact .join (spells_of_uncut bare straight) slash (by simpa using ih "" (by simp) (by simp))
      · have other : c ≠ '/' ∧ c ≠ '\\' := by
          constructor
          · rintro rfl
            exact slash (.inl (by decide))
          · rintro rfl
            exact slash (.inr (by decide))
        exact ih _ (by simp [bare, Ne.symm other.1]) (by simp [straight, Ne.symm other.2])
  simpa using parts raw.toList "" (by simp) (by simp)

theorem isSegment_of_mem_segmentsOf (below : ".." ∉ segmentsOf raw) (member : name ∈ segmentsOf raw) :
    IsSegment name := by
  obtain ⟨filled, inside, bare⟩ := mem_segmentsOf member
  have cut := (List.mem_filter.mp member).1
  exact ⟨⟨filled, inside, fun same => below (same ▸ member), bare⟩,
    fun there => Text.straight_slashes raw (Text.mem_of_mem_split cut there)⟩

theorem segmentsOf_join (proper : ∀ n ∈ names, IsSegment n) :
    segmentsOf (Text.join "/" names) = names := by
  rcases names with _ | ⟨first, rest⟩
  · decide
  · exact UnitId.segmentsOf_relativePath (by simp) (fun n member => (proper n member).toIsName)
      fun n member => (proper n member).straight

theorem not_climbing (proper : ∀ n ∈ names, IsSegment n) : ".." ∉ names :=
  fun member => (proper _ member).below rfl

/-! Normal forms. -/

/-- Nothing, or proper names with single slashes between them. -/
def IsNormal (logical : String) : Prop :=
  ∃ names : List String, (∀ n ∈ names, IsSegment n) ∧ logical = Text.join "/" names

/-- Without the extension nothing is left of the last name but one or two dots, or nothing at all
behind other names. -/
def LosesName (ending raw : String) : Prop :=
  ".." ∉ segmentsOf raw ∧ ∃ front head old, segmentsOf raw = front ++ [head ++ "." ++ old] ∧
    Text.sameIgnoringCase old ending = true ∧ (head = "" ∧ front ≠ [] ∨ head = "." ∨ head = "..")

theorem isNormal_none (raw : String) : IsNormal (logicalName raw none) := by
  by_cases climbs : ".." ∈ segmentsOf raw
  · exact ⟨[], by simp, logicalName_of_climbing climbs none⟩
  · exact ⟨_, fun _ => isSegment_of_mem_segmentsOf climbs, logicalName_none climbs⟩

/-- The normal forms are the names that are read as they are. -/
theorem isNormal_iff {logical : String} : IsNormal logical ↔ logicalName logical none = logical := by
  constructor
  · rintro ⟨names, proper, rfl⟩
    have segments := segmentsOf_join proper
    rw [logicalName_none (segments.symm ▸ not_climbing proper), segments]
  · intro same
    rw [← same]
    exact isNormal_none logical

theorem isSegment_of_head (proper : IsSegment (head ++ "." ++ old)) (filled : head ≠ "")
    (inside : head ≠ ".") (below : head ≠ "..") : IsSegment head :=
  ⟨⟨filled, inside, below, fun slash => proper.bare (by simp [slash])⟩,
    fun there => proper.straight (by simp [there])⟩

theorem not_isNormal_of_last (bare : ∀ n ∈ front ++ [head], '/' ∉ n.toList)
    (more : front ≠ [] ∨ head ≠ "") (lost : ¬ IsSegment head) :
    ¬ IsNormal (Text.join "/" (front ++ [head])) := by
  rintro ⟨names, proper, same⟩
  rcases names with _ | ⟨first, rest⟩
  · have single : Text.split '/' "" = front ++ [head] := by
      rw [← Text.split_join (by simp) bare, same]
      rfl
    have empty : [] ++ [""] = front ++ [head] := single
    obtain ⟨rfl, last⟩ := List.append_inj' empty rfl
    exact more.elim (absurd rfl) (absurd (List.singleton_inj.mp last).symm)
  · have pieces := Text.split_join (by simp) bare
    rw [same, Text.split_join (by simp) fun n member => (proper n member).bare] at pieces
    exact lost (proper head (pieces.symm ▸ by simp))

theorem LosesName.not_isNormal (lost : LosesName ending raw) :
    ¬ IsNormal (logicalName raw (some ending)) := by
  obtain ⟨below, front, head, old, segments, same, left⟩ := lost
  have more : front ≠ [] ∨ head ≠ "" := by
    rcases left with ⟨_, filled⟩ | rfl | rfl
    · exact .inl filled
    · exact .inr (by decide)
    · exact .inr (by decide)
  have noSlash : ∀ n ∈ front ++ [head], '/' ∉ n.toList := by
    have inside : ∀ n ∈ segmentsOf raw, '/' ∉ n.toList := fun _ member => (mem_segmentsOf member).2.2
    rw [segments] at inside
    intro n member
    rcases List.mem_append.mp member with before | last
    · exact inside n (by simp [before])
    · rw [List.mem_singleton.mp last]
      exact fun there => inside _ (List.mem_append_right _ (List.mem_singleton_self _)) (by simp [there])
  rw [logicalName_of_extended segments below same more]
  refine not_isNormal_of_last noSlash more fun proper => ?_
  rcases left with ⟨rfl, _⟩ | rfl | rfl
  · exact proper.filled rfl
  · exact proper.inside rfl
  · exact proper.below rfl

theorem isNormal_of_kept (bare : IsBare ending) (kept : ¬ LosesName ending raw) :
    IsNormal (logicalName raw (some ending)) := by
  by_cases climbs : ".." ∈ segmentsOf raw
  · exact ⟨[], by simp, logicalName_of_climbing climbs _⟩
  have proper : ∀ n ∈ segmentsOf raw, IsSegment n := fun _ => isSegment_of_mem_segmentsOf climbs
  by_cases cut : ∃ front head old, segmentsOf raw = front ++ [head ++ "." ++ old] ∧
      Text.sameIgnoringCase old ending = true ∧ (front ≠ [] ∨ head ≠ "")
  · obtain ⟨front, head, old, segments, same, more⟩ := cut
    rw [segments] at proper
    have other : ∀ left, (left = "" ∧ front ≠ [] ∨ left = "." ∨ left = "..") → head ≠ left := by
      rintro _ left rfl
      exact kept ⟨climbs, front, head, old, segments, same, left⟩
    have filled : head ≠ "" := by
      rcases more with some | filled
      · exact other "" (.inl ⟨rfl, some⟩)
      · exact filled
    have last := isSegment_of_head (proper (head ++ "." ++ old) (by simp)) filled
      (other "." (by simp)) (other ".." (by simp))
    refine ⟨front ++ [head], ?_, logicalName_of_extended segments climbs same more⟩
    intro n member
    rcases List.mem_append.mp member with before | here
    · exact proper n (by simp [before])
    · rwa [List.mem_singleton.mp here]
  · refine ⟨_, proper, logicalName_of_whole bare climbs fun front head old segments same => ?_⟩
    by_contra more
    exact cut ⟨front, head, old, segments, same, by simpa [or_iff_not_and_not] using more⟩

namespace UnitId

theorem ofLogical_inj {a b : String} : ofLogical a = ofLogical b ↔ a = b :=
  ⟨congrArg logical, congrArg ofLogical⟩

theorem Reads.eq {ending : Option String} (reads : Reads raw ending u) :
    u = ofLogical (logicalName raw ending) := by
  cases reads with
  | symbol => rfl
  | relative => rfl
  | entry => rfl

end UnitId

/-- A text, read with or without an extension, gives a normal form just where the cut leaves a name;
then what is read off the logical name is the unit again. -/
theorem logicalName_normal_iff {ending : Option String} (bare : ∀ e ∈ ending, IsBare e) (raw : String) :
    (IsNormal (logicalName raw ending) ↔ ∀ e ∈ ending, ¬ LosesName e raw) ∧
    (logicalName (logicalName raw ending) none = logicalName raw ending ↔
      ∀ e ∈ ending, ¬ LosesName e raw) ∧
    ∀ u, UnitId.Reads raw ending u →
      (UnitId.ofSymbol u.logical = u ↔ ∀ e ∈ ending, ¬ LosesName e raw) := by
  have normal : IsNormal (logicalName raw ending) ↔ ∀ e ∈ ending, ¬ LosesName e raw := by
    cases ending with
    | none => simpa using isNormal_none raw
    | some e =>
      simp only [Option.mem_def, Option.some.injEq, forall_eq']
      exact ⟨fun normal lost => lost.not_isNormal normal, isNormal_of_kept (bare e rfl)⟩
  refine ⟨normal, isNormal_iff.symm.trans normal, fun u reads => ?_⟩
  rw [← normal, isNormal_iff, reads.eq, UnitId.logical_ofLogical, UnitId.ofSymbol,
    UnitId.ofLogical_inj]

/-- What loses its name was nothing but dots before the extension. -/
theorem LosesName.dots (lost : LosesName ending raw) :
    ∃ last, (segmentsOf raw).getLast? = some last ∧ UnitId.IsDots ending last := by
  obtain ⟨_, front, head, old, segments, same, left⟩ := lost
  refine ⟨head ++ "." ++ old, by simp [segments], head, old, rfl, ?_, same⟩
  rcases left with ⟨rfl, _⟩ | rfl | rfl
  all_goals simp

/-- An inner dot, a capital extension and slashes of both kinds. -/
theorem logicalName_normal_iff_mixed :
    (∀ e ∈ some "php", IsBare e) ∧ IsNormal (logicalName ".\\a//.b/C.x.PHP" (some "php")) ∧
    UnitId.ofSymbol (UnitId.ofEntry ".\\a//.b/C.x.PHP" "php").logical =
      .ofEntry ".\\a//.b/C.x.PHP" "php" := by
  have bare : ∀ e ∈ some "php", IsBare e := by
    rintro e ⟨⟩
    constructor <;> decide
  have kept : ∀ e ∈ some "php", ¬ LosesName e ".\\a//.b/C.x.PHP" := by
    intro e _ lost
    obtain ⟨last, ends, dots⟩ := lost.dots
    have segments : (segmentsOf ".\\a//.b/C.x.PHP").getLast? = some "C.x.PHP" := by decide
    rw [segments, Option.some.injEq] at ends
    exact absurd dots.hidden (ends ▸ by decide)
  have whole := logicalName_normal_iff bare ".\\a//.b/C.x.PHP"
  exact ⟨bare, whole.1.mpr kept, (whole.2.2 _ (.entry "php")).mpr kept⟩

/-- Three names that end in the extension alone, or in one or two dots before it. -/
theorem logicalName_loses :
    logicalName "a/.php" (some "php") = "a/" ∧ logicalName "..php" (some "php") = "." ∧
    logicalName "...PHP" (some "php") = ".." ∧ ¬ IsNormal "a/" ∧ ¬ IsNormal "." ∧ ¬ IsNormal ".." ∧
    (UnitId.ofSymbol (UnitId.ofRelative ⟨"a/.php"⟩ "php").logical ==
      .ofRelative ⟨"a/.php"⟩ "php") = false ∧
    (UnitId.ofSymbol (UnitId.ofEntry "...PHP" "php").logical == .ofEntry "...PHP" "php") = false := by
  refine ⟨by decide, by decide, by decide, ?_, ?_, ?_, by decide +kernel, by decide +kernel⟩
  all_goals
    rw [isNormal_iff]
    decide

/-! One unit in many spellings. -/

theorem Text.eq_of_lower {a b : String} (fixed : ∀ c ∈ b.toList, c.toNat < 97 ∧ c.toLower = c)
    (same : Text.lower a = Text.lower b) : a = b := by
  have chars := congrArg String.toList same
  rw [Text.toList_lower, Text.toList_lower] at chars
  apply String.toList_inj.mp
  generalize a.toList = cs, b.toList = ds at chars fixed
  induction ds generalizing cs with
  | nil => exact List.map_eq_nil_iff.mp chars
  | cons d ds ih =>
    obtain ⟨c, rest, rfl, first, others⟩ := List.map_eq_cons_iff.mp chars
    obtain ⟨low, kept⟩ := fixed d (by simp)
    rw [kept] at first
    rw [(Chars.toLower_eq_iff low kept).mp first,
      ih rest others fun c member => fixed c (by simp [member])]

/-- A name in other letters is a name. -/
theorem IsSegment.of_lower (proper : IsSegment name) (same : Text.lower other = Text.lower name) :
    IsSegment other := by
  have letter : ∀ c : Char, c.toNat < 97 → c.toLower = c → c ∉ name.toList → c ∉ other.toList := by
    intro c low kept absent there
    rw [← Text.mem_lower low kept, same, Text.mem_lower low kept] at there
    exact absent there
  have apart : ∀ fixed : String, (∀ c ∈ fixed.toList, c.toNat < 97 ∧ c.toLower = c) → name ≠ fixed →
      other ≠ fixed := by
    rintro _ low different rfl
    exact different (Text.eq_of_lower low same.symm)
  exact ⟨⟨apart "" (by simp) proper.filled, apart "." (by simp) proper.inside,
    apart ".." (by simp) proper.below, letter '/' (by decide) (by decide) proper.bare⟩,
    letter '\\' (by decide) (by decide) proper.straight⟩

namespace UnitId

theorem isSegment_withEnding (bare : IsBare ending) (proper : IsSegment name) :
    IsSegment (name ++ "." ++ ending) :=
  ⟨isName_withEnding bare proper.bare, by simp [proper.straight, bare.straight]⟩

theorem logicalName_of_spelled (bare : IsBare ending) {last : String}
    (spelled : Spells (front ++ [last ++ "." ++ old]) raw)
    (same : Text.sameIgnoringCase old ending = true) (proper : ∀ n ∈ front ++ [last], IsSegment n) :
    logicalName raw (some ending) = Text.join "/" (front ++ [last]) := by
  have lower : Text.lower (last ++ "." ++ old) = Text.lower (last ++ "." ++ ending) := by
    rw [Text.lower_append, Text.lower_append _ ending, Text.sameIgnoringCase_iff.mp same]
  have extended := (isSegment_withEnding bare (proper last (by simp))).of_lower lower
  have all : ∀ n ∈ front ++ [last ++ "." ++ old], IsSegment n := by
    intro n member
    rcases List.mem_append.mp member with before | here
    · exact proper n (by simp [before])
    · rwa [List.mem_singleton.mp here]
  have segments := spelled.segments all
  exact logicalName_of_extended segments (segments.symm ▸ not_climbing all) same
    (.inr (proper last (by simp)).filled)

theorem logical_ofRelative (relative : Path) (ending : String) :
    (ofRelative relative ending).logical = logicalName relative.text (some ending) := by
  rw [ofRelative, logical_ofLogical]

theorem logical_ofEntry (entry ending : String) :
    (ofEntry entry ending).logical = logicalName entry (some ending) := by
  rw [ofEntry, logical_ofLogical]

/-- The logical name is made of the names that were written, in the case they were written in. -/
theorem WrittenFrom.logical (written : WrittenFrom ending names u) (bare : IsBare ending)
    (proper : ∀ n ∈ names, IsSegment n) : u.logical = Text.join "/" names := by
  cases written with
  | symbol spelled =>
    have segments := spelled.segments proper
    rw [ofSymbol, logical_ofLogical, logicalName_none (segments.symm ▸ not_climbing proper), segments]
  | relative spelled same =>
    rw [logical_ofRelative, logicalName_of_spelled bare spelled same proper]
  | entry spelled same =>
    rw [logical_ofEntry, logicalName_of_spelled bare spelled same proper]

/-- Whatever is written from the same names, up to case, is the same unit. Units of any texts are the
same only if their names are, up to case, where the digest tells the two apart. -/
theorem writtenFrom_collapse (bare : IsBare ending) (proper : ∀ n ∈ names, IsSegment n) :
    (∀ own u, own.map Text.lower = names.map Text.lower → WrittenFrom ending own u →
      u.logical = Text.join "/" own ∧
      ∀ other v, other.map Text.lower = names.map Text.lower → WrittenFrom ending other v →
        (u == v) = true) ∧
    ∀ raw raw' e e' u v, Reads raw e u → Reads raw' e' v →
      (Digest.ofContent (Text.lower u.logical).toUTF8 = Digest.ofContent (Text.lower v.logical).toUTF8 →
        (Text.lower u.logical).toUTF8 = (Text.lower v.logical).toUTF8) →
      ((u == v) = true ↔ Text.lower u.logical = Text.lower v.logical) := by
  have logical : ∀ own u, own.map Text.lower = names.map Text.lower → WrittenFrom ending own u →
      u.logical = Text.join "/" own := by
    intro own u same written
    refine written.logical bare fun n member => ?_
    have lower : Text.lower n ∈ names.map Text.lower := same ▸ List.mem_map_of_mem member
    obtain ⟨original, known, equal⟩ := List.mem_map.mp lower
    exact (proper original known).of_lower equal.symm
  constructor
  · intro own u same written
    refine ⟨logical own u same written, fun other v alike rewritten => ?_⟩
    apply beq_of_lower_eq
    rw [logical own u same written, logical other v alike rewritten, Text.lower_join,
      Text.lower_join, same, alike]
  · intro raw raw' e e' u v _ _ apart
    refine ⟨fun same => ?_, beq_of_lower_eq⟩
    rw [beq_iff, u.digest_eq, v.digest_eq] at same
    have texts := congrArg String.fromUTF8? (apart same)
    simpa only [Text.fromUTF8?_toUTF8, Option.some.injEq] using texts

/-- A symbol and a path for the same names, one of them beyond ASCII and ending like the file; and two
units that differ in a letter. -/
theorem writtenFrom_collapse_mixed :
    IsBare "php" ∧ (∀ n ∈ ["App", "Ünit.php", "X"], IsSegment n) ∧
    (ofRelative ⟨"./APP//Ünit.PHP/./x.Php/"⟩ "php").logical = "APP/Ünit.PHP/x" ∧
    (ofRelative ⟨"./APP//Ünit.PHP/./x.Php/"⟩ "php" == ofSymbol "\\app\\.\\Ünit.php//X") = true ∧
    ((ofSymbol "a\\b" == ofEntry "A/c.php" "php") = true ↔
      Text.lower (ofSymbol "a\\b").logical = Text.lower (ofEntry "A/c.php" "php").logical) := by
  have bare : IsBare "php" := by constructor <;> decide
  have proper : ∀ n ∈ ["App", "Ünit.php", "X"], IsSegment n := by decide
  have pathNames : segmentsOf "./APP//Ünit.PHP/./x.Php/" =
      ["APP", "Ünit.PHP"] ++ ["x" ++ "." ++ "Php"] := by decide
  have path : WrittenFrom "php" ["APP", "Ünit.PHP", "x"]
      (ofRelative ⟨"./APP//Ünit.PHP/./x.Php/"⟩ "php") :=
    .relative (pathNames ▸ spells_segmentsOf _) (by decide)
  have symbolNames : segmentsOf "\\app\\.\\Ünit.php//X" = ["app", "Ünit.php", "X"] := by decide
  have symbol : WrittenFrom "php" ["app", "Ünit.php", "X"] (ofSymbol "\\app\\.\\Ünit.php//X") :=
    .symbol (symbolNames ▸ spells_segmentsOf _)
  have whole := writtenFrom_collapse bare proper
  have pathIs := whole.1 _ _ (by decide) path
  refine ⟨bare, proper, ?_, pathIs.2 _ _ (by decide) symbol, ?_⟩
  · rw [pathIs.1]
    decide
  · exact whole.2 _ _ _ _ _ _ .symbol (.entry "php") fun same => absurd same (by decide +kernel)

end UnitId

end
end LayerCache
