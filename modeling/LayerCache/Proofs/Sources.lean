import LayerCache.Project.Config
import LayerCache.Proofs.Disk
import LayerCache.Sources.Roots

/-! Units and the names of their files. A unit leads to names below a folder, and the names of a
file that carries the extension lead back to its unit, in any case. -/
namespace LayerCache

theorem findSome?_congr {α β : Type} {f g : α → Option β} {all : List α}
    (same : ∀ x ∈ all, f x = g x) : all.findSome? f = all.findSome? g := by
  induction all with
  | nil => rfl
  | cons x rest ih =>
    rw [List.findSome?_cons, List.findSome?_cons, same x List.mem_cons_self,
      ih fun y later => same y (List.mem_cons_of_mem _ later)]

/-- An extension as a configuration may state it. -/
structure IsBare (ending : String) : Prop where
  filled : ending ≠ ""
  dotless : '.' ∉ ending.toList
  bare : '/' ∉ ending.toList
  straight : '\\' ∉ ending.toList

theorem isBare_of_check {field ending : String}
    (ok : Config.checkExtension field ending = .ok ()) : IsBare ending := by
  simp only [Config.checkExtension] at ok
  split at ok
  · cases ok
  rename_i filled
  split at ok
  · cases ok
  rename_i clean
  simp only [List.any_eq_true, Bool.or_eq_true, beq_iff_eq, not_exists, not_and, not_or] at clean
  exact ⟨filled, fun member => (clean _ member).1.1 rfl, fun member => (clean _ member).1.2 rfl,
    fun member => (clean _ member).2 rfl⟩

theorem Config.extensions_of_check {c : Config} (accepted : c.check = .ok ()) :
    IsBare c.naming.sourceExt ∧ IsBare c.naming.artifactExt ∧
      Text.sameIgnoringCase c.naming.sourceExt c.naming.artifactExt = false := by
  unfold check at accepted
  by_cases named : c.name = ""
  · simp [named, throw, throwThe, MonadExceptOf.throw, bind, Except.bind] at accepted
  rcases source : checkExtension "compile.source_ext" c.naming.sourceExt with e | _
  · simp [named, source, bind, Except.bind] at accepted
  rcases artifact : checkExtension "compile.artifact_ext" c.naming.artifactExt with e | _
  · simp [named, source, artifact, bind, Except.bind] at accepted
  refine ⟨isBare_of_check source, isBare_of_check artifact, ?_⟩
  by_cases same : Text.sameIgnoringCase c.naming.sourceExt c.naming.artifactExt = true
  · simp [named, source, artifact, same, throw, throwThe, MonadExceptOf.throw, bind,
      Except.bind] at accepted
  · simpa using same

/-! Letter case. -/

namespace Chars

/-- Only a capital letter has another lower case, and that is a letter. -/
theorem toLower_eq_iff {c x : Char} (low : x.toNat < 97) (lower : x.toLower = x) :
    c.toLower = x ↔ c = x := by
  constructor
  · intro same
    by_cases capital : c.val ≥ 'A'.val ∧ c.val ≤ 'Z'.val
    · have moved : c.toLower.val = c.val + ('a'.val - 'A'.val) := congrArg Char.val (dif_pos capital)
      have first : 65 ≤ c.val.toNat := capital.1
      have last : c.val.toNat ≤ 90 := capital.2
      have sum : (c.val + ('a'.val - 'A'.val)).toNat = c.val.toNat + 32 := by
        rw [UInt32.toNat_add]
        show (c.val.toNat + 32) % 4294967296 = _
        omega
      have bound : x.val.toNat < 97 := low
      rw [← moved, same] at sum
      omega
    · exact (dif_neg capital).symm.trans same
  · rintro rfl
    exact lower

theorem dropExtension_append {ending front old : List Char} (filled : front ≠ [])
    (same : old.map Char.toLower = ending.map Char.toLower) :
    dropExtension ending (front ++ '.' :: old) = front := by
  have length : old.length = ending.length := by simpa using congrArg List.length same
  have kept : (front ++ '.' :: old).length - (ending.length + 1) = front.length := by
    rw [List.length_append, List.length_cons]
    omega
  have ends : ((front ++ '.' :: old).drop front.length).map Char.toLower =
      ('.' :: ending).map Char.toLower := by
    rw [List.drop_left, List.map_cons, List.map_cons, same]
  rw [dropExtension, kept, if_pos ⟨List.length_pos_iff.mpr filled, ends⟩, List.take_left]

end Chars

namespace Text

variable {a b : String} {front back pieces : List String}

theorem mem_lower {c : Char} (low : c.toNat < 97) (same : c.toLower = c) :
    c ∈ (lower a).toList ↔ c ∈ a.toList := by
  rw [toList_lower, List.mem_map]
  constructor
  · rintro ⟨x, member, equal⟩
    rwa [(Chars.toLower_eq_iff low same).mp equal] at member
  · exact fun member => ⟨c, member, same⟩

theorem lower_append (a b : String) : lower (a ++ b) = lower a ++ lower b := by
  apply String.toList_inj.mp
  simp

theorem lower_join (pieces : List String) :
    lower (join "/" pieces) = join "/" (pieces.map lower) := by
  induction pieces with
  | nil => rfl
  | cons piece rest ih =>
    rcases rest with _ | ⟨next, more⟩
    · rfl
    · simp only [List.map_cons, join, lower_append] at ih ⊢
      rw [ih]
      rfl

theorem lower_join_inj (some : front ≠ []) (more : back ≠ [])
    (bare : ∀ piece ∈ front, '/' ∉ piece.toList) (clean : ∀ piece ∈ back, '/' ∉ piece.toList) :
    lower (join "/" front) = lower (join "/" back) ↔ front.map lower = back.map lower := by
  have split : ∀ pieces : List String, pieces ≠ [] → (∀ piece ∈ pieces, '/' ∉ piece.toList) →
      Text.split '/' (lower (join "/" pieces)) = pieces.map lower := by
    intro pieces filled bare
    rw [lower_join, split_join (by simpa using filled)]
    intro piece member
    obtain ⟨original, inside, rfl⟩ := List.mem_map.mp member
    rw [mem_lower (by decide) (by decide)]
    exact bare original inside
  constructor
  · intro same
    rw [← split front some bare, same, split back more clean]
  · intro same
    rw [lower_join, lower_join, same]

theorem mem_join {c : Char} (member : c ∈ (join "/" pieces).toList) :
    c = '/' ∨ ∃ piece ∈ pieces, c ∈ piece.toList := by
  induction pieces with
  | nil => simp [join] at member
  | cons piece rest ih =>
    rcases rest with _ | ⟨next, more⟩
    · exact .inr ⟨piece, by simp, member⟩
    · simp only [join, String.toList_append, List.mem_append] at member
      rcases member with (here | slash) | later
      · exact .inr ⟨piece, by simp, here⟩
      · exact .inl (by simpa using slash)
      · rcases ih later with same | ⟨other, inside, there⟩
        · exact .inl same
        · exact .inr ⟨other, List.mem_cons_of_mem _ inside, there⟩

/-- What holds no separator only makes the last piece longer. -/
theorem split_append_bare {rest : String} (bare : '/' ∉ rest.toList)
    (s : String) :
    ∃ front last, split '/' s = front ++ [last] ∧ split '/' (s ++ rest) = front ++ [last ++ rest] := by
  rcases List.eq_nil_or_concat (split '/' s) with none | ⟨front, last, parts⟩
  · simp [split, Chars.split_ne_nil] at none
  rw [List.concat_eq_append] at parts
  refine ⟨front, last, parts, ?_⟩
  have whole : s ++ rest = join "/" (front ++ [last ++ rest]) := by
    rw [join_concat, ← parts, join_split]
  have pieces : ∀ piece ∈ front ++ [last ++ rest], '/' ∉ piece.toList := by
    have own : ∀ piece ∈ front ++ [last], '/' ∉ piece.toList := by
      rw [← parts]
      exact fun _ => not_mem_of_mem_split
    intro piece member
    rcases List.mem_append.mp member with before | here
    · exact own piece (by simp [before])
    · rw [List.mem_singleton.mp here, String.toList_append, List.mem_append]
      exact not_or.mpr ⟨own last (by simp), bare⟩
  rw [whole, split_join (by simp) pieces]

theorem straight_slashes (a : String) : '\\' ∉ (slashes a).toList := by
  intro member
  simp only [slashes, String.toList_ofList, List.mem_map] at member
  obtain ⟨c, _, same⟩ := member
  split at same
  · exact absurd same (by decide)
  · rename_i kept
    exact kept same

theorem slashes_of_straight (straight : '\\' ∉ a.toList) : slashes a = a := by
  apply String.toList_inj.mp
  have kept : ∀ c ∈ a.toList, (if c = '\\' then '/' else c) = c := by
    intro c member
    rw [if_neg]
    rintro rfl
    exact straight member
  rw [slashes, String.toList_ofList, List.map_congr_left kept, List.map_id']

end Text

theorem Path.extends_of_lower {name head ending : String} (filled : head ≠ "")
    (dotless : '.' ∉ ending.toList) (same : Text.lower name = Text.lower (head ++ "." ++ ending)) :
    ∃ first old, Extends name first old ∧ Text.lower first = Text.lower head ∧
      Text.sameIgnoringCase old ending = true := by
  have chars := congrArg String.toList same
  simp only [Text.toList_lower, String.toList_append, List.map_append, List.append_assoc] at chars
  obtain ⟨front, rest, cut, heads, others⟩ := List.map_eq_append_iff.mp chars
  obtain ⟨c, tail, rfl, dot, last⟩ := List.map_eq_cons_iff.mp others
  have dot : c = '.' := (Chars.toLower_eq_iff (by decide) (by decide)).mp dot
  have equal : Text.lower (String.ofList tail) = Text.lower ending :=
    String.toList_inj.mp (by simpa using last)
  refine ⟨String.ofList front, String.ofList tail, ⟨?_, ?_, ?_⟩, ?_, ?_⟩
  · exact String.toList_inj.mp (by simp [cut, dot])
  · intro empty
    rw [String.ofList_eq_empty_iff.mp empty] at heads
    exact filled (String.toList_eq_nil_iff.mp (List.map_eq_nil_iff.mp heads.symm))
  · intro member
    apply dotless
    rw [← Text.mem_lower (by decide) (by decide), ← equal, Text.mem_lower (by decide) (by decide)]
    exact member
  · exact String.toList_inj.mp (by simpa using heads)
  · exact Text.sameIgnoringCase_iff.mpr equal

/-- Names that lead from a folder to a file with an extension, in any case. -/
structure Carries (ending : String) (names : List String) : Prop where
  proper : ∀ name ∈ names, IsName name
  extended : ∃ front name head old, names = front ++ [name] ∧ Path.Extends name head old ∧
    Text.sameIgnoringCase old ending = true

namespace Carries

variable {ending : String} {names : List String}

theorem filled (carries : Carries ending names) : names ≠ [] := by
  obtain ⟨front, name, _, _, rfl, _⟩ := carries.extended
  simp

theorem append (carries : Carries ending names) {front : List String}
    (proper : ∀ name ∈ front ++ names, IsName name) : Carries ending (front ++ names) := by
  obtain ⟨before, name, head, old, rfl, rest⟩ := carries.extended
  exact ⟨proper, front ++ before, name, head, old, by rw [List.append_assoc], rest⟩

end Carries

section

open Disk

variable {ending : String} {names : List String}

theorem pieces_relativePath (proper : ∀ name ∈ names, IsName name) (filled : names ≠ []) :
    (relativePath names).pieces = names :=
  Text.split_join filled fun name member => (proper name member).bare

theorem hasExtension_relativePath (proper : ∀ name ∈ names, IsName name) :
    (relativePath names).hasExtension ending = true ↔ Carries ending names := by
  rcases List.eq_nil_or_concat names with rfl | ⟨front, name, rfl⟩
  · have none : (relativePath []).extension = none := by decide
    simp only [Path.hasExtension, none, Bool.false_eq_true, false_iff]
    exact fun carries => carries.filled rfl
  rw [List.concat_eq_append] at proper ⊢
  rw [Path.hasExtension_iff (pieces_relativePath proper (by simp)) (proper name (by simp))]
  constructor
  · rintro ⟨head, old, parts, same⟩
    exact ⟨proper, front, name, head, old, rfl, parts, same⟩
  · rintro ⟨_, front', name', head, old, equal, parts, same⟩
    obtain ⟨_, last⟩ := List.append_inj' equal rfl
    cases last
    exact ⟨head, old, parts, same⟩

end

/-! The segments of a unit. -/

namespace Chars

theorem split_take (sep : Char) (first rest : List Char) :
    ∃ more, split sep (first ++ rest) = (split sep first).dropLast ++ more := by
  induction first with
  | nil => exact ⟨_, rfl⟩
  | cons c cs ih =>
    obtain ⟨more, cut⟩ := ih
    by_cases same : c = sep
    · refine ⟨more, ?_⟩
      simp [split, same, cut, List.dropLast_cons_of_ne_nil (split_ne_nil sep cs)]
    · rcases pieces : split sep cs with _ | ⟨piece, others⟩
      · exact absurd pieces (split_ne_nil sep cs)
      · rcases others with _ | ⟨next, later⟩
        · exact ⟨split sep (c :: (cs ++ rest)), by simp [split, same, pieces]⟩
        · rw [pieces] at cut
          refine ⟨more, ?_⟩
          simp only [List.dropLast_cons_cons, List.cons_append] at cut
          simp [split, same, pieces, cut]

end Chars

theorem mem_segmentsOf {raw segment : String} (member : segment ∈ segmentsOf raw) :
    segment ≠ "" ∧ segment ≠ "." ∧ '/' ∉ segment.toList := by
  simp only [segmentsOf, List.mem_filter, decide_eq_true_eq] at member
  exact ⟨member.2.1, member.2.2, Text.not_mem_of_mem_split member.1⟩

theorem Chars.dropExtension_prefix (ending text : List Char) :
    ∃ rest, text = dropExtension ending text ++ rest := by
  simp only [dropExtension]
  split
  · exact ⟨_, (List.take_append_drop _ _).symm⟩
  · exact ⟨[], by simp⟩

section

variable {raw head old ending : String} {front : List String}

/-! Logical names by their segments. -/

theorem logicalName_of_climbing (climbs : ".." ∈ segmentsOf raw) (ending : Option String) :
    logicalName raw ending = "" := by
  rw [logicalName, if_pos (by simpa using climbs)]

theorem logicalName_none (below : ".." ∉ segmentsOf raw) :
    logicalName raw none = Text.join "/" (segmentsOf raw) := by
  rw [logicalName, if_neg (by simpa using below)]

theorem logicalName_some (below : ".." ∉ segmentsOf raw) : logicalName raw (some ending) =
    String.ofList (Chars.dropExtension ending.toList (Text.join "/" (segmentsOf raw)).toList) := by
  rw [logicalName, if_neg (by simpa using below)]

/-- The extension is cut off the last segment, unless nothing else was spelled. -/
theorem logicalName_of_extended (segments : segmentsOf raw = front ++ [head ++ "." ++ old])
    (below : ".." ∉ segmentsOf raw) (same : Text.sameIgnoringCase old ending = true)
    (more : front ≠ [] ∨ head ≠ "") :
    logicalName raw (some ending) = Text.join "/" (front ++ [head]) := by
  have joined : (Text.join "/" (segmentsOf raw)).toList =
      (Text.join "/" (front ++ [head])).toList ++ '.' :: old.toList := by
    rw [segments, String.append_assoc, Text.join_concat]
    simp
  have stem : (Text.join "/" (front ++ [head])).toList ≠ [] := by
    intro empty
    rcases front.eq_nil_or_concat with rfl | ⟨before, first, rfl⟩
    · exact more.elim (absurd rfl) fun filled => filled (String.toList_eq_nil_iff.mp empty)
    · rw [Text.join_append (by simp) (by simp)] at empty
      simp at empty
  have lowered := congrArg String.toList (Text.sameIgnoringCase_iff.mp same)
  rw [Text.toList_lower, Text.toList_lower] at lowered
  rw [logicalName_some below, joined, Chars.dropExtension_append stem lowered, String.ofList_toList]

theorem Chars.dropExtension_cases (ending text : List Char) :
    Chars.dropExtension ending text = text ∨ ∃ front old, front ≠ [] ∧ text = front ++ '.' :: old ∧
      old.map Char.toLower = ending.map Char.toLower := by
  simp only [Chars.dropExtension]
  split
  · rename_i cut
    right
    obtain ⟨c, tail, suffix, dot, rest⟩ := List.map_eq_cons_iff.mp cut.2
    obtain rfl : c = '.' := (Chars.toLower_eq_iff (by decide) (by decide)).mp dot
    refine ⟨text.take (text.length - (ending.length + 1)), tail, ?_, ?_, rest⟩
    · rw [ne_eq, List.take_eq_nil_iff]
      rintro (none | rfl)
      · omega
      · simp at suffix
    · rw [← suffix, List.take_append_drop]
  · exact .inl rfl

/-- Nothing is cut off where the last segment does not carry the extension. -/
theorem logicalName_of_whole (bare : IsBare ending) (below : ".." ∉ segmentsOf raw)
    (whole : ∀ front head old, segmentsOf raw = front ++ [head ++ "." ++ old] →
      Text.sameIgnoringCase old ending = true → front = [] ∧ head = "") :
    logicalName raw (some ending) = Text.join "/" (segmentsOf raw) := by
  rw [logicalName_some below]
  rcases Chars.dropExtension_cases ending.toList (Text.join "/" (segmentsOf raw)).toList with
    same | ⟨stem, old, filled, text, lowered⟩
  · rw [same, String.ofList_toList]
  · exfalso
    have equal : Text.sameIgnoringCase (String.ofList old) ending = true :=
      Text.sameIgnoringCase_iff.mpr (String.toList_inj.mp (by simpa using lowered))
    have noSlash : '/' ∉ old := by
      intro inside
      have lower : '/' ∈ (Text.lower ending).toList := by
        rw [Text.toList_lower, ← lowered]
        exact List.mem_map.mpr ⟨'/', inside, rfl⟩
      exact bare.bare ((Text.mem_lower (by decide) (by decide)).mp lower)
    obtain ⟨front, last, pieces, longer⟩ := @Text.split_append_bare ("." ++ String.ofList old)
      (by simpa using noSlash) (String.ofList stem)
    have joined : Text.join "/" (segmentsOf raw) =
        String.ofList stem ++ ("." ++ String.ofList old) :=
      String.toList_inj.mp (by simp [text])
    have some : segmentsOf raw ≠ [] := by
      intro none
      rw [none] at text
      simp [Text.join] at text
    rw [← joined, Text.split_join some fun segment member => (mem_segmentsOf member).2.2,
      ← String.append_assoc] at longer
    obtain ⟨rfl, rfl⟩ := whole front last _ longer equal
    have empty := Text.join_split (String.ofList stem)
    rw [pieces] at empty
    exact filled (by simpa [Text.join] using empty.symm)

end

namespace UnitId

variable {u : UnitId} {ending : String}

theorem segments_ne_nil (u : UnitId) : u.segments ≠ [] := by
  simp [segments, Text.split, Chars.split_ne_nil]

theorem bare_of_mem_segments {segment : String} (member : segment ∈ u.segments) :
    '/' ∉ segment.toList := Text.not_mem_of_mem_split member

theorem join_segments (u : UnitId) : Text.join "/" u.segments = u.logical := Text.join_split _

/-- All segments but the last are proper names. -/
def Tidy (u : UnitId) : Prop := ∀ segment ∈ u.segments.dropLast, IsName segment

theorem isName_of_mem_segmentsOf {raw segment : String} (below : (segmentsOf raw).contains ".." = false)
    (member : segment ∈ segmentsOf raw) : IsName segment := by
  obtain ⟨filled, inside, bare⟩ := mem_segmentsOf member
  refine ⟨filled, inside, ?_, bare⟩
  rintro rfl
  simp [member] at below

theorem logicalName_prefix {raw : String} (ending : Option String)
    (below : (segmentsOf raw).contains ".." = false) :
    ∃ rest, (Text.join "/" (segmentsOf raw)).toList = (logicalName raw ending).toList ++ rest := by
  simp only [logicalName, below, Bool.false_eq_true, if_false]
  cases ending with
  | none => exact ⟨[], by simp⟩
  | some ending => simpa using Chars.dropExtension_prefix ending.toList _

theorem tidy_ofLogical (raw : String) (ending : Option String) :
    (ofLogical (logicalName raw ending)).Tidy := by
  intro segment member
  simp only [segments, logical_ofLogical] at member
  by_cases below : (segmentsOf raw).contains ".." = true
  · rw [logicalName, if_pos below] at member
    simp [Text.split, Chars.split] at member
  rw [Bool.not_eq_true] at below
  obtain ⟨rest, joined⟩ := logicalName_prefix ending below
  by_cases filled : segmentsOf raw = []
  · have empty : (logicalName raw ending).toList = [] := by
      rw [filled] at joined
      exact (List.append_eq_nil_iff.mp joined.symm).1
    simp [Text.split, empty, Chars.split] at member
  · have whole := Text.split_join filled fun s inside => (mem_segmentsOf inside).2.2
    obtain ⟨more, cut⟩ := Chars.split_take '/' (logicalName raw ending).toList rest
    apply isName_of_mem_segmentsOf below
    rw [← whole, Text.split, joined, cut, List.map_append]
    rw [Text.split, ← List.map_dropLast] at member
    exact List.mem_append_left _ member

theorem tidy_ofSymbol (symbol : String) : (ofSymbol symbol).Tidy := tidy_ofLogical _ _

theorem tidy_ofRelative (relative : Path) (ending : String) : (ofRelative relative ending).Tidy :=
  tidy_ofLogical _ _

theorem tidy_ofEntry (entry ending : String) : (ofEntry entry ending).Tidy := tidy_ofLogical _ _

theorem ofLogical_logical (u : UnitId) : ofLogical u.logical = u := by
  obtain ⟨logical, digest, same⟩ := u
  simp only [ofLogical, same]

/-- A unit whose name holds no backslash. -/
def Straight (u : UnitId) : Prop := '\\' ∉ u.logical.toList

/-- Backslashes are read as slashes. -/
theorem straight_ofLogical (raw : String) (ending : Option String) :
    (ofLogical (logicalName raw ending)).Straight := by
  intro member
  rw [logical_ofLogical] at member
  by_cases below : (segmentsOf raw).contains ".." = true
  · rw [logicalName, if_pos below] at member
    cases member
  obtain ⟨rest, joined⟩ := logicalName_prefix ending (by simpa using below)
  have inside : '\\' ∈ (Text.join "/" (segmentsOf raw)).toList := by simp [joined, member]
  rcases Text.mem_join inside with slash | ⟨segment, known, there⟩
  · exact absurd slash (by decide)
  · have piece := (List.mem_filter.mp known).1
    exact Text.straight_slashes raw (Text.mem_of_mem_split piece there)

theorem straight_ofRelative (relative : Path) (ending : String) :
    (ofRelative relative ending).Straight := straight_ofLogical _ _

theorem straight_ofEntry (entry ending : String) : (ofEntry entry ending).Straight :=
  straight_ofLogical _ _

theorem isName_of_ofSymbol {symbol segment : String} (named : (ofSymbol symbol).isEmpty = false)
    (member : segment ∈ (ofSymbol symbol).segments) : IsName segment := by
  simp only [isEmpty, ofSymbol, logical_ofLogical, logicalName] at named
  simp only [segments, ofSymbol, logical_ofLogical, logicalName] at member
  split at named
  · simp at named
  rename_i below
  rw [if_neg below] at member
  have filled : segmentsOf symbol ≠ [] := by
    intro empty
    simp [empty, Text.join] at named
  rw [Text.split_join filled fun s inside => (mem_segmentsOf inside).2.2] at member
  exact isName_of_mem_segmentsOf (by simpa using below) member

theorem fileNames_concat (ending : String) (front : List String) (last : String) :
    fileNames ending (front ++ [last]) = front ++ [last ++ "." ++ ending] := by
  induction front with
  | nil => rfl
  | cons name rest ih =>
    rcases rest with _ | ⟨next, more⟩
    · rfl
    · rw [List.cons_append, List.cons_append, fileNames, ← List.cons_append, ih]
      · rfl
      · simp

theorem isName_withEnding (bare : IsBare ending) {last : String} (noSlash : '/' ∉ last.toList) :
    IsName (last ++ "." ++ ending) := by
  rcases List.eq_nil_or_concat ending.toList with empty | ⟨before, c, text⟩
  · exact absurd (String.toList_eq_nil_iff.mp empty) bare.filled
  have other : c ≠ '.' := fun same => bare.dotless (by simp [text, same])
  have ends : (last ++ "." ++ ending).toList.getLast? = some c := by
    rw [String.toList_append, text, List.concat_eq_append, ← List.append_assoc, List.getLast?_concat]
  refine ⟨?_, ?_, ?_, by simp [noSlash, bare.bare]⟩
  · intro same
    simp [same] at ends
  · intro same
    rw [same] at ends
    exact other (Option.some.inj ends).symm
  · intro same
    rw [same] at ends
    exact other (Option.some.inj ends).symm

/-- The file of a unit, taken apart. -/
theorem fileNames_eq (u : UnitId) (ending : String) : ∃ front last, u.segments = front ++ [last] ∧
    fileNames ending u.segments = front ++ [last ++ "." ++ ending] := by
  rcases List.eq_nil_or_concat u.segments with empty | ⟨front, last, cut⟩
  · exact absurd empty u.segments_ne_nil
  · rw [List.concat_eq_append] at cut
    exact ⟨front, last, cut, by rw [cut, fileNames_concat]⟩

theorem Tidy.proper (tidy : u.Tidy) (bare : IsBare ending) :
    ∀ name ∈ fileNames ending u.segments, IsName name := by
  obtain ⟨front, last, cut, names⟩ := u.fileNames_eq ending
  have fronts : ∀ name ∈ front, IsName name := by simpa [Tidy, cut] using tidy
  have noSlash : '/' ∉ last.toList := bare_of_mem_segments (u := u) (by simp [cut])
  intro name member
  rw [names] at member
  rcases List.mem_append.mp member with inside | here
  · exact fronts name inside
  · rw [List.mem_singleton.mp here]
    exact isName_withEnding bare noSlash

theorem fileNames_ne_nil (u : UnitId) (ending : String) : fileNames ending u.segments ≠ [] := by
  obtain ⟨front, last, _, names⟩ := u.fileNames_eq ending
  simp [names]

theorem Tidy.pathIn_eq (tidy : u.Tidy) (bare : IsBare ending) (folder : Path) :
    u.pathIn folder ending = folder.join (Disk.relativePath (fileNames ending u.segments)) :=
  Path.foldl_joinName (u.fileNames_ne_nil ending) (tidy.proper bare)

/-! The same unit in other letters. -/

theorem lower_eq_iff (u v : UnitId) (ending : String) :
    Text.lower u.logical = Text.lower v.logical ↔ (fileNames ending u.segments).map Text.lower =
      (fileNames ending v.segments).map Text.lower := by
  rw [← u.join_segments, ← v.join_segments, Text.lower_join_inj u.segments_ne_nil v.segments_ne_nil
    (fun _ => bare_of_mem_segments) (fun _ => bare_of_mem_segments)]
  obtain ⟨front, last, cut, names⟩ := u.fileNames_eq ending
  obtain ⟨before, final, parts, others⟩ := v.fileNames_eq ending
  rw [names, cut, others, parts]
  simp only [List.map_append, List.map_cons, List.map_nil]
  constructor
  · intro same
    obtain ⟨fronts, lasts⟩ := List.append_inj' same rfl
    rw [fronts, Text.lower_append, Text.lower_append, List.singleton_inj.mp lasts,
      ← Text.lower_append, ← Text.lower_append]
  · intro same
    obtain ⟨fronts, lasts⟩ := List.append_inj' same rfl
    have chars := congrArg String.toList (List.singleton_inj.mp lasts)
    rw [Text.lower_append, Text.lower_append _ ending, String.toList_append, String.toList_append]
      at chars
    have stems := String.toList_inj.mp (List.append_cancel_right chars)
    rw [Text.lower_append, Text.lower_append final] at stems
    have heads := congrArg String.toList stems
    rw [String.toList_append, String.toList_append] at heads
    rw [fronts, String.toList_inj.mp (List.append_cancel_right heads)]

variable {names : List String}

theorem segmentsOf_relativePath (filled : names ≠ []) (proper : ∀ name ∈ names, IsName name)
    (straight : ∀ name ∈ names, '\\' ∉ name.toList) :
    segmentsOf (Disk.relativePath names).text = names := by
  have joined : '\\' ∉ (Text.join "/" names).toList := by
    intro member
    rcases Text.mem_join member with slash | ⟨name, inside, there⟩
    · exact absurd slash (by decide)
    · exact straight name inside there
  rw [segmentsOf, Disk.relativePath, Text.slashes_of_straight joined,
    Text.split_join filled fun name member => (proper name member).bare]
  refine List.filter_eq_self.mpr fun name member => ?_
  simpa using ⟨(proper name member).filled, (proper name member).inside⟩

/-- The segments of a name are those of its spelling, with the extension of the last one gone. -/
theorem segments_of_extended {raw head old : String} {front : List String}
    (segments : segmentsOf raw = front ++ [head ++ "." ++ old]) (below : ".." ∉ segmentsOf raw)
    (same : Text.sameIgnoringCase old ending = true) (filled : head ≠ "") :
    (ofLogical (logicalName raw (some ending))).segments = front ++ [head] := by
  have noSlash : ∀ n ∈ front ++ [head], '/' ∉ n.toList := by
    have inside : ∀ n ∈ segmentsOf raw, '/' ∉ n.toList := fun _ member => (mem_segmentsOf member).2.2
    rw [segments] at inside
    intro n member
    rcases List.mem_append.mp member with before | last
    · exact inside n (by simp [before])
    · rw [List.mem_singleton.mp last]
      exact fun there => inside (head ++ "." ++ old) (by simp) (by simp [there])
  rw [UnitId.segments, logical_ofLogical, logicalName_of_extended segments below same (.inr filled),
    Text.split_join (by simp) noSlash]

/-- The unit of a file is its path without the extension. -/
theorem segments_ofRelative {front : List String} {name head old : String}
    (proper : ∀ n ∈ front ++ [name], IsName n)
    (straight : ∀ n ∈ front ++ [name], '\\' ∉ n.toList) (parts : Path.Extends name head old)
    (same : Text.sameIgnoringCase old ending = true) :
    (ofRelative (Disk.relativePath (front ++ [name])) ending).segments = front ++ [head] := by
  obtain ⟨rfl, filled, _⟩ := parts
  have inner := segmentsOf_relativePath (by simp) proper straight
  have below : ".." ∉ segmentsOf (Disk.relativePath (front ++ [head ++ "." ++ old])).text := by
    rw [inner]
    exact fun member => (proper _ member).below rfl
  exact segments_of_extended inner below same filled

theorem lower_fileNames_ofRelative (carries : Carries ending names)
    (straight : ∀ name ∈ names, '\\' ∉ name.toList) :
    (fileNames ending (ofRelative (Disk.relativePath names) ending).segments).map Text.lower =
      names.map Text.lower := by
  obtain ⟨front, name, head, old, rfl, parts, same⟩ := carries.extended
  rw [segments_ofRelative carries.proper straight parts same, fileNames_concat, parts.1]
  simp only [List.map_append, List.map_cons, List.map_nil, Text.lower_append,
    Text.sameIgnoringCase_iff.mp same]

theorem filled_ofRelative (carries : Carries ending names)
    (straight : ∀ name ∈ names, '\\' ∉ name.toList) :
    ∀ segment ∈ (ofRelative (Disk.relativePath names) ending).segments, segment ≠ "" := by
  obtain ⟨front, name, head, old, rfl, parts, same⟩ := carries.extended
  rw [segments_ofRelative carries.proper straight parts same]
  intro segment member
  rcases List.mem_append.mp member with before | last
  · exact (carries.proper segment (by simp [before])).filled
  · rw [List.mem_singleton.mp last]
    exact parts.2.1

/-- Names that spell the file of a unit, in any case, lead back to the unit. -/
theorem lower_ofRelative_of_spelled (carries : Carries ending names)
    (straight : ∀ name ∈ names, '\\' ∉ name.toList)
    (same : names.map Text.lower = (fileNames ending u.segments).map Text.lower) :
    Text.lower (ofRelative (Disk.relativePath names) ending).logical = Text.lower u.logical := by
  rw [lower_eq_iff _ _ ending, lower_fileNames_ofRelative carries straight, same]

/-- Names that spell the file of a unit, in any case, are those of a source file. -/
theorem carries_of_lower (proper : ∀ name ∈ names, IsName name) (bare : IsBare ending)
    (filled : ∀ segment ∈ u.segments, segment ≠ "")
    (same : names.map Text.lower = (fileNames ending u.segments).map Text.lower) :
    Carries ending names := by
  obtain ⟨front, last, cut, file⟩ := u.fileNames_eq ending
  rw [file, List.map_append, List.map_cons, List.map_nil] at same
  obtain ⟨before, tail, rfl, _, lasts⟩ := List.map_eq_append_iff.mp same
  obtain ⟨name, rest, rfl, lower, none⟩ := List.map_eq_cons_iff.mp lasts
  rw [List.map_eq_nil_iff.mp none] at proper ⊢
  have headed : last ≠ "" := filled last (by simp [cut])
  obtain ⟨head, old, parts, _, equal⟩ := Path.extends_of_lower headed bare.dotless lower
  exact ⟨proper, before, name, head, old, rfl, parts, equal⟩

/-! Units that can be told by their files. -/

/-- A base name of nothing but dots before the extension. -/
def IsDots (ending name : String) : Prop :=
  ∃ dots old, name = dots ++ "." ++ old ∧ (∀ c ∈ dots.toList, c = '.') ∧
    Text.sameIgnoringCase old ending = true

theorem IsDots.hidden {name : String} (dots : IsDots ending name) :
    name.toList.head? = some '.' := by
  obtain ⟨front, old, rfl, all, _⟩ := dots
  rcases chars : front.toList with _ | ⟨c, rest⟩
  · simp [chars]
  · have first := all c (by simp [chars])
    simp [chars, first]

/-- A unit whose name is put together of proper names. -/
structure Clean (u : UnitId) : Prop where
  named : ∀ segment ∈ u.segments, IsName segment
  straight : u.Straight

namespace Clean

theorem tidy (clean : u.Clean) : u.Tidy :=
  fun segment member => clean.named segment (List.dropLast_subset _ member)

/-- Its name is read as it is. -/
theorem ofSymbol_logical (clean : u.Clean) : ofSymbol u.logical = u := by
  have segments : segmentsOf u.logical = u.segments := by
    rw [segmentsOf, Text.slashes_of_straight clean.straight]
    refine List.filter_eq_self.mpr fun segment member => ?_
    simpa using ⟨(clean.named segment member).filled, (clean.named segment member).inside⟩
  have below : u.segments.contains ".." = false := by
    rw [List.contains_eq_mem, decide_eq_false]
    exact fun member => (clean.named _ member).below rfl
  rw [ofSymbol, logicalName, segments]
  simp only [below, Bool.false_eq_true, if_false, join_segments, ofLogical_logical]

theorem isEmpty (clean : u.Clean) : u.isEmpty = false := by
  rw [UnitId.isEmpty, beq_eq_false_iff_ne]
  intro empty
  have single : "" ∈ u.segments := by simp [segments, empty, Text.split, Chars.split]
  exact (clean.named "" single).filled rfl

/-- Its file lies under its name. -/
theorem pathIn_eq (clean : u.Clean) (bare : IsBare ending) (folder : Path) :
    u.pathIn folder ending = folder.join ⟨u.logical ++ "." ++ ending⟩ := by
  obtain ⟨front, last, cut, names⟩ := u.fileNames_eq ending
  rw [clean.tidy.pathIn_eq bare, names, Disk.relativePath, String.append_assoc, Text.join_concat,
    ← cut, join_segments, String.append_assoc]

theorem carries (clean : u.Clean) (bare : IsBare ending) :
    Carries ending (fileNames ending u.segments) := by
  obtain ⟨front, last, cut, names⟩ := u.fileNames_eq ending
  have headed := clean.named last (by simp [cut])
  exact ⟨clean.tidy.proper bare, front, last ++ "." ++ ending, last, ending, names,
    ⟨rfl, headed.filled, bare.dotless⟩, Text.sameIgnoringCase_self _⟩

end Clean

/-- The name of a unit is that of its file without the extension. -/
theorem Clean.file_name (clean : u.Clean) (bare : IsBare ending) :
    Text.slashes ((Disk.relativePath (fileNames ending u.segments)).withExtension "").text = u.logical := by
  obtain ⟨front, last, cut, names⟩ := u.fileNames_eq ending
  have headed := clean.named last (by simp [cut])
  have proper : ∀ n ∈ front ++ [last ++ "." ++ ending], IsName n := by
    rw [← names]
    exact clean.tidy.proper bare
  rw [names, Path.withExtension_relativePath proper headed ⟨rfl, headed.filled, bare.dotless⟩, ← cut,
    Disk.relativePath, join_segments, Text.slashes_of_straight clean.straight]

/-- What stands before the extension of a name is a name, if it is more than dots. -/
theorem isName_of_more {name head old : String} (proper : IsName name)
    (text : name = head ++ "." ++ old) (same : Text.sameIgnoringCase old ending = true)
    (more : ¬ IsDots ending name) : IsName head := by
  have other : ∀ dots : String, (∀ c ∈ dots.toList, c = '.') → head ≠ dots := by
    rintro dots all rfl
    exact more ⟨head, old, text, all, same⟩
  refine ⟨other "" (by simp), other "." (by simp), other ".." (by simp), fun inside => ?_⟩
  exact proper.bare (by simp [text, inside])

theorem clean_ofRelative {front : List String} {name head old : String}
    (proper : ∀ n ∈ front ++ [name], IsName n)
    (straight : ∀ n ∈ front ++ [name], '\\' ∉ n.toList) (parts : Path.Extends name head old)
    (same : Text.sameIgnoringCase old ending = true) (more : ¬ IsDots ending name) :
    (ofRelative (Disk.relativePath (front ++ [name])) ending).Clean := by
  refine ⟨?_, straight_ofRelative _ _⟩
  rw [segments_ofRelative proper straight parts same]
  intro segment member
  rcases List.mem_append.mp member with before | last
  · exact proper segment (by simp [before])
  · rw [List.mem_singleton.mp last]
    exact isName_of_more (proper name (by simp)) parts.1 same more

/-- An entry whose base name is more than dots has a clean unit. -/
theorem clean_ofEntry {entry : String} (filled : (ofEntry entry ending).isEmpty = false)
    (bare : IsBare ending)
    (more : ∀ last, (segmentsOf entry).getLast? = some last → ¬ IsDots ending last) :
    (ofEntry entry ending).Clean := by
  refine ⟨?_, straight_ofEntry _ _⟩
  have below : ".." ∉ segmentsOf entry := by
    intro climbs
    rw [ofEntry, logicalName_of_climbing climbs] at filled
    exact absurd filled (by simp [UnitId.isEmpty])
  have proper : ∀ segment ∈ segmentsOf entry, IsName segment :=
    fun _ => isName_of_mem_segmentsOf (by simpa using below)
  by_cases cut : ∃ front head old, segmentsOf entry = front ++ [head ++ "." ++ old] ∧
      Text.sameIgnoringCase old ending = true
  · obtain ⟨front, head, old, segments, same⟩ := cut
    have headed : IsName head := isName_of_more (proper (head ++ "." ++ old) (by simp [segments])) rfl same
      (more _ (by simp [segments]))
    rw [ofEntry, segments_of_extended segments below same headed.filled]
    intro segment member
    rcases List.mem_append.mp member with inside | here
    · exact proper segment (by simp [segments, inside])
    · rwa [List.mem_singleton.mp here]
  · have whole : logicalName entry (some ending) = Text.join "/" (segmentsOf entry) :=
      logicalName_of_whole bare below fun front head old segments same =>
        absurd ⟨front, head, old, segments, same⟩ cut
    have some : segmentsOf entry ≠ [] := by
      intro none
      rw [ofEntry, whole, none] at filled
      exact absurd filled (by decide)
    rwa [ofEntry, UnitId.segments, logical_ofLogical, whole,
      Text.split_join some fun segment member => (proper segment member).bare]

end UnitId

/-! Files in roots. -/

namespace Disk

variable {d : Disk} {p : Path} {names : List String}

theorem mem_list (sound : d.Sound) {name : String} (listed : d.list p = .ok names)
    (member : name ∈ names) : ∃ place entry, d.stat p = .ok (place, .folder) ∧
      d.entryAt (place ++ [name]) = some entry ∧ IsName name := by
  simp only [list] at listed
  split at listed
  · rename_i place found
    cases listed
    obtain ⟨⟨k, entry⟩, below, same⟩ := List.mem_filterMap.mp member
    rcases k with _ | ⟨first, _ | ⟨second, more⟩⟩
    all_goals simp only [Option.some.injEq, reduceCtorEq] at same
    subst same
    have there := (sound.mem_pairs (by simp)).mp (mem_below.mp below).2
    exact ⟨place, entry, found, there, (sound.inside place first (by simp [there])).1⟩
  · cases listed
  · cases listed

theorem list_of_entry (sound : d.Sound) {place : Place} (opened : d.stat p = .ok (place, .folder))
    {name : String} (there : d.entryAt (place ++ [name]) ≠ none) :
    ∃ names, d.list p = .ok names ∧ name ∈ names := by
  obtain ⟨entry, here⟩ := Option.ne_none_iff_exists'.mp there
  simp only [list, opened]
  refine ⟨_, rfl, List.mem_filterMap.mpr ⟨([name], entry), ?_, rfl⟩⟩
  exact mem_below.mpr ⟨by simp, (sound.mem_pairs (by simp)).mpr here⟩

/-- What a walk takes for a file. -/
def IsFileAt (d : Disk) (place : Place) : Prop :=
  (∃ serial content, d.entryAt place = some (.file serial content)) ∨
    ∃ name, d.entryAt place = some (.program name)

theorem IsFileAt.proper (sound : d.Sound) {place : Place} (file : d.IsFileAt place) :
    ∀ name ∈ place, IsName name := by
  rcases file with ⟨_, _, there⟩ | ⟨_, there⟩
  · exact sound.names (by simp [there])
  · exact sound.names (by simp [there])

theorem IsFileAt.congr {d' : Disk} {place : Place} (same : d'.leafAt place = d.leafAt place)
    (file : d.IsFileAt place) : d'.IsFileAt place := by
  have leaf : ∀ {entry : Entry}, entry ≠ .folder → d.entryAt place = some entry →
      d'.entryAt place = some entry := by
    intro entry other there
    have here : d.leafAt place = some entry := by
      cases entry with
      | folder => exact absurd rfl other
      | _ => simp [leafAt, there]
    rw [← same] at here
    simp only [leafAt] at here
    split at here
    · cases here
    · exact here
  rcases file with ⟨serial, content, there⟩ | ⟨name, there⟩
  · exact .inl ⟨serial, content, leaf (by simp) there⟩
  · exact .inr ⟨name, leaf (by simp) there⟩

theorem IsFileAt.leaf {place : Place} (file : d.IsFileAt place) : d.leafAt place ≠ none := by
  rcases file with ⟨serial, content, there⟩ | ⟨name, there⟩
  · simp [leafAt, there]
  · simp [leafAt, there]

theorem stat_of_isFile (file : d.isFile p = true) : ∃ place entry, d.stat p = .ok (place, entry) := by
  simp only [isFile] at file
  split at file
  · exact ⟨_, _, ‹_›⟩
  · exact ⟨_, _, ‹_›⟩
  · cases file

theorem isFile_spec (sound : d.Sound) (plain : d.Plain p) (file : d.isFile p = true) :
    d.IsFileAt (d.placeOf p) := by
  simp only [isFile] at file
  split at file
  · rename_i place serial content found
    rw [← stat_place plain found]
    exact .inl ⟨serial, content, stat_entry sound found⟩
  · rename_i place name found
    rw [← stat_place plain found]
    exact .inr ⟨name, stat_entry sound found⟩
  · cases file

theorem mem_filesUnder (sound : d.Sound) : names ∈ d.filesUnder p ↔
    ∃ place, d.stat p = .ok (place, .folder) ∧ names ≠ [] ∧ d.IsFileAt (place ++ names) := by
  simp only [filesUnder]
  split
  · rename_i place opened
    rw [List.mem_filterMap, opened]
    constructor
    · rintro ⟨⟨k, entry⟩, below, same⟩
      obtain ⟨filled, member⟩ := mem_below.mp below
      have there := (sound.mem_pairs (by simp [filled])).mp member
      cases entry with
      | file serial content =>
        cases same
        exact ⟨place, rfl, filled, .inl ⟨serial, content, there⟩⟩
      | program name =>
        cases same
        exact ⟨place, rfl, filled, .inr ⟨name, there⟩⟩
      | folder | link _ | device _ => cases same
    · rintro ⟨_, equal, filled, file⟩
      cases equal
      rcases file with ⟨serial, content, there⟩ | ⟨name, there⟩
      · have member := (sound.mem_pairs (by simp [filled])).mpr there
        exact ⟨(names, _), mem_below.mpr ⟨filled, member⟩, rfl⟩
      · have member := (sound.mem_pairs (by simp [filled])).mpr there
        exact ⟨(names, _), mem_below.mpr ⟨filled, member⟩, rfl⟩
  · rename_i closed
    simp only [List.not_mem_nil, false_iff, not_exists, not_and]
    exact fun place opened => absurd opened (closed place)

/-- What lies below a place is listed in the order of the places. -/
theorem sorted_below (sound : d.Sound) (place : Place) :
    (d.below place).Pairwise fun a b => place ++ a.1 < place ++ b.1 := by
  refine (List.pairwise_map.mp sound.sorted).filterMap _ fun a b less x first y second => ?_
  simp only [Option.ite_none_right_eq_some, Bool.and_eq_true, List.isPrefixOf_iff_prefix,
    Option.some.injEq] at first second
  obtain ⟨⟨⟨front, one⟩, _⟩, rfl⟩ := first
  obtain ⟨⟨⟨back, two⟩, _⟩, rfl⟩ := second
  simpa only [← one, ← two, List.drop_left] using less

/-- The files under a folder are listed in the order of their places. -/
theorem sorted_filesUnder (sound : d.Sound) {place : Place} (opened : d.stat p = .ok (place, .folder)) :
    (d.filesUnder p).Pairwise fun a b => place ++ a < place ++ b := by
  simp only [filesUnder, opened]
  refine (sorted_below sound place).filterMap _ ?_
  rintro ⟨a, one⟩ ⟨b, other⟩ less x first y second
  have same : a = x := by cases one <;> first | exact Option.some.inj first | cases first
  have same' : b = y := by cases other <;> first | exact Option.some.inj second | cases second
  rwa [← same, ← same']

theorem nodup_filesUnder (sound : d.Sound) : (d.filesUnder p).Nodup := by
  by_cases opened : ∃ place, d.stat p = .ok (place, .folder)
  · obtain ⟨place, opened⟩ := opened
    refine (sorted_filesUnder sound opened).imp fun {a b} less same => ?_
    rw [same] at less
    exact List.lt_irrefl _ less
  · have none : d.filesUnder p = [] := by
      simp only [filesUnder]
      split
      · rename_i place found
        exact absurd ⟨place, found⟩ opened
      · rfl
    rw [none]
    exact List.nodup_nil

theorem mem_filesWithExtension (sound : d.Sound) {ending : String} {file : Listed} :
    file ∈ d.filesWithExtension p ending ↔ ∃ place names, d.stat p = .ok (place, .folder) ∧
      Carries ending names ∧ d.IsFileAt (place ++ names) ∧ file = listed p names := by
  simp only [filesWithExtension, List.mem_map, List.mem_filter]
  constructor
  · rintro ⟨⟨names, member, rfl⟩, carries⟩
    obtain ⟨place, opened, filled, file⟩ := (mem_filesUnder sound).mp member
    have proper : ∀ name ∈ names, IsName name :=
      fun name inside => file.proper sound name (by simp [inside])
    exact ⟨place, names, opened, (hasExtension_relativePath proper).mp carries, file, rfl⟩
  · rintro ⟨place, names, opened, carries, file, rfl⟩
    refine ⟨⟨names, ?_, rfl⟩, ?_⟩
    · exact (mem_filesUnder sound).mpr ⟨place, opened, carries.filled, file⟩
    · exact (hasExtension_relativePath carries.proper).mpr carries

end Disk

namespace Roots

variable {d : Disk} {u : UnitId} {names : List String}

theorem descend_spec (sound : d.Sound) {folder : Path} {wanted : List String}
    (found : descend d folder wanted = some names) :
    names.map Text.lower = wanted.map Text.lower ∧ (∀ name ∈ names, IsName name) ∧
      d.isFile (names.foldl Path.joinName folder) = true := by
  induction wanted generalizing folder names with
  | nil =>
    simp only [descend] at found
    split at found
    · rename_i file
      cases found
      exact ⟨rfl, by simp, file⟩
    · cases found
  | cons first rest ih =>
    simp only [descend] at found
    split at found
    · cases found
    rename_i inside listed
    split at found
    · cases found
    rename_i name matched
    obtain ⟨more, deeper, rfl⟩ := Option.map_eq_some_iff.mp found
    obtain ⟨same, proper, file⟩ := ih deeper
    have equal := List.find?_some matched
    have lower := Text.sameIgnoringCase_iff.mp equal
    have member := List.mem_of_find?_eq_some matched
    obtain ⟨_, _, _, _, named⟩ := Disk.mem_list sound listed member
    refine ⟨by simp [same, lower], ?_, file⟩
    intro n member
    rcases List.mem_cons.mp member with rfl | later
    · exact named
    · exact proper n later

/-- The names that are found spell the file of the unit. -/
theorem namesIn_spec {r : Roots} (sound : d.Sound) (tidy : u.Tidy) (bare : IsBare r.ending)
    {root : SourceRoot} (found : r.namesIn d u root = some names) :
    names.map Text.lower = (UnitId.fileNames r.ending u.segments).map Text.lower ∧
      (∀ name ∈ names, IsName name) ∧ d.isFile (names.foldl Path.joinName root.path) = true := by
  simp only [namesIn] at found
  split at found
  · rename_i file
    cases found
    exact ⟨rfl, tidy.proper bare, file⟩
  · exact descend_spec sound found

/-- Below a place no folder holds two names that differ in case alone. -/
def UnmixedAt (d : Disk) (place : Place) : Prop :=
  ∀ front a b, d.entryAt (place ++ front ++ [a]) ≠ none → d.entryAt (place ++ front ++ [b]) ≠ none →
    Text.lower a = Text.lower b → a = b

theorem descend_cons {folder : Path} {first name : String} {rest listing : List String}
    (listed : d.list folder = .ok listing)
    (found : listing.find? (fun name => Text.sameIgnoringCase name first) = some name) :
    descend d folder (first :: rest) =
      (descend d (folder.joinName name) rest).map (name :: ·) := by
  rw [descend, listed]
  dsimp only
  rw [found]

/-- No other name on the way along some names differs from the one there in case alone. -/
def Unrivalled (d : Disk) (place : Place) (names : List String) : Prop :=
  ∀ front name back, names = front ++ name :: back → ∀ other,
    d.entryAt (place ++ front ++ [other]) ≠ none → Text.lower other = Text.lower name → other = name

theorem Unrivalled.tail {place : Place} {name : String} {rest : List String}
    (clear : Unrivalled d place (name :: rest)) : Unrivalled d (place ++ [name]) rest := by
  intro front next back parts other there
  have deeper := clear (name :: front) next back (by simp [parts]) other
  rw [← List.singleton_append, ← List.append_assoc] at deeper
  exact deeper there

theorem UnmixedAt.unrivalled (sound : d.Sound) {place : Place} (unmixed : UnmixedAt d place)
    (there : d.entryAt (place ++ names) ≠ none) : Unrivalled d place names := by
  rintro front name back rfl other found lower
  have here : d.entryAt (place ++ front ++ [name]) ≠ none := by
    rw [List.append_cons, ← List.append_assoc, ← List.append_assoc] at there
    rcases back with _ | ⟨next, rest⟩
    · simpa using there
    · rw [sound.above there (by simp)]
      exact Option.some_ne_none _
  exact unmixed front other name found here lower

/-- Names that are spelled alike, up to case, are the same where they have no rivals. -/
theorem Unrivalled.unique (sound : d.Sound) {place : Place} {others : List String}
    (clear : Unrivalled d place names) (there : d.entryAt (place ++ others) ≠ none)
    (alike : others.map Text.lower = names.map Text.lower) : others = names := by
  induction names generalizing place others with
  | nil => exact List.map_eq_nil_iff.mp alike
  | cons name rest ih =>
    obtain ⟨other, more, rfl, lower, same⟩ := List.map_eq_cons_iff.mp alike
    rw [← List.singleton_append, ← List.append_assoc] at there
    have here : d.entryAt (place ++ [other]) ≠ none := by
      rcases more with _ | ⟨next, later⟩
      · simpa using there
      · rw [sound.above there (by simp)]
        exact Option.some_ne_none _
    obtain rfl := clear [] name rest rfl other (by simpa using here) lower
    rw [ih clear.tail there same]

/-- A name without rivals is the one that is found. -/
theorem find_of_unrivalled (sound : d.Sound) {place : Place} {folder : Path}
    (opened : d.stat folder = .ok (place, .folder)) {name first : String} {rest : List String}
    (clear : Unrivalled d place (name :: rest)) (there : d.entryAt (place ++ [name]) ≠ none)
    (lower : Text.lower name = Text.lower first) :
    ∃ listing, d.list folder = .ok listing ∧
      listing.find? (fun name => Text.sameIgnoringCase name first) = some name := by
  obtain ⟨listing, listed, member⟩ := Disk.list_of_entry sound opened there
  refine ⟨listing, listed, ?_⟩
  have some : (listing.find? fun name => Text.sameIgnoringCase name first).isSome = true :=
    List.find?_isSome.mpr ⟨name, member, Text.sameIgnoringCase_iff.mpr lower⟩
  obtain ⟨least, found⟩ := Option.isSome_iff_exists.mp some
  have equal := List.find?_some found
  have matched := Text.sameIgnoringCase_iff.mp equal
  obtain ⟨other, entry, opens, here, _⟩ :=
    Disk.mem_list sound listed (List.mem_of_find?_eq_some found)
  rw [opened] at opens
  have same : place = other := (Prod.mk.inj (Except.ok.inj opens)).1
  have only : least = name := clear [] name rest rfl least (by simp [same, here])
    (matched.trans lower.symm)
  rw [found, only]

/-- Going down in any case misses no file whose way has no rivals. -/
theorem descend_complete (sound : d.Sound) {place : Place} (clear : Unrivalled d place names)
    {folder : Path} {wanted : List String}
    (opened : ∀ front back, names = front ++ back → back ≠ [] →
      d.stat (front.foldl Path.joinName folder) = .ok (place ++ front, .folder))
    (there : d.entryAt (place ++ names) ≠ none)
    (file : d.isFile (names.foldl Path.joinName folder) = true)
    (spelled : names.map Text.lower = wanted.map Text.lower) :
    descend d folder wanted = some names := by
  induction names generalizing place folder wanted with
  | nil =>
    simp only [List.foldl_nil] at file
    simp [List.map_eq_nil_iff.mp spelled.symm, descend, file]
  | cons name rest ih =>
    obtain ⟨first, more, rfl, lower, others⟩ := List.map_eq_cons_iff.mp spelled.symm
    have start := opened [] (name :: rest) rfl (by simp)
    rw [List.foldl_nil, List.append_nil] at start
    rw [← List.singleton_append, ← List.append_assoc] at there
    have here : d.entryAt (place ++ [name]) ≠ none := by
      rcases rest with _ | ⟨next, later⟩
      · simpa using there
      · rw [sound.above there (by simp)]
        exact Option.some_ne_none _
    obtain ⟨listing, listed, found⟩ := find_of_unrivalled sound start clear here lower.symm
    rw [descend_cons listed found, ih clear.tail ?_ there file others.symm, Option.map_some]
    intro front back parts filled
    have deeper := opened (name :: front) back (by simp [parts]) filled
    rwa [List.foldl_cons, ← List.singleton_append, ← List.append_assoc] at deeper

/-- The source at the end of some names below a root. -/
def below (r : Roots) (root : SourceRoot) (names : List String) : SourceFile :=
  r.fileAt root (Disk.listed root.path names)

theorem unit_below (r : Roots) (root : SourceRoot) (names : List String) :
    (r.below root names).unit = .ofRelative (Disk.relativePath names) r.ending := rfl

theorem path_below (r : Roots) (root : SourceRoot) (names : List String) :
    (r.below root names).path = root.path.join (Disk.relativePath names) := rfl

theorem rank_below (r : Roots) (root : SourceRoot) (names : List String) :
    (r.below root names).rank = root.rank := rfl

theorem resolve_spec {r : Roots} (sound : d.Sound) (tidy : u.Tidy) (bare : IsBare r.ending)
    (filled : ∀ segment ∈ u.segments, segment ≠ "") {f : SourceFile}
    (found : r.resolve d u = some f) : ∃ root ∈ r.roots, ∃ names, r.namesIn d u root = some names ∧
      Carries r.ending names ∧ f = r.below root names := by
  simp only [resolve] at found
  split at found
  · cases found
  obtain ⟨root, member, file⟩ := List.exists_of_findSome?_eq_some found
  obtain ⟨names, inside, rfl⟩ := Option.map_eq_some_iff.mp file
  obtain ⟨same, proper, _⟩ := namesIn_spec sound tidy bare inside
  have carries := UnitId.carries_of_lower proper bare filled same
  refine ⟨root, member, names, inside, carries, ?_⟩
  rw [below, Disk.listed, Path.foldl_joinName carries.filled proper]

/-- What a sweep lists are the source files below the root. -/
theorem mem_sweep {r : Roots} (sound : d.Sound) {root : SourceRoot} {f : SourceFile} :
    f ∈ r.sweep d root ↔ ∃ place names, d.stat root.path = .ok (place, .folder) ∧
      Carries r.ending names ∧ d.IsFileAt (place ++ names) ∧ f = r.below root names := by
  simp only [sweep, List.mem_map, Disk.mem_filesWithExtension sound]
  constructor
  · rintro ⟨file, ⟨place, names, opened, carries, inside, rfl⟩, rfl⟩
    exact ⟨place, names, opened, carries, inside, rfl⟩
  · rintro ⟨place, names, opened, carries, inside, rfl⟩
    exact ⟨_, ⟨place, names, opened, carries, inside, rfl⟩, rfl⟩

/-- Names from a root that lead to a source file. -/
def Holds (r : Roots) (d : Disk) (root : SourceRoot) (names : List String) : Prop :=
  Carries r.ending names ∧ d.IsFileAt (d.placeOf root.path ++ names)

theorem mem_sweep_of_holds {r : Roots} (sound : d.Sound) {root : SourceRoot}
    (plain : d.Plain root.path) (opened : d.isFolder root.path = true)
    (holds : r.Holds d root names) : r.below root names ∈ r.sweep d root := by
  obtain ⟨place, found⟩ := Disk.isFolder_iff.mp opened
  have file := holds.2
  rw [← Disk.stat_place plain found] at file
  exact (mem_sweep sound).mpr ⟨place, names, found, holds.1, file, rfl⟩

theorem holds_of_mem_sweep {r : Roots} (sound : d.Sound) {root : SourceRoot}
    (plain : d.Plain root.path) {f : SourceFile} (listed : f ∈ r.sweep d root) :
    ∃ names, r.Holds d root names ∧ f = r.below root names := by
  obtain ⟨place, names, found, carries, file, same⟩ := (mem_sweep sound).mp listed
  rw [Disk.stat_place plain found] at file
  exact ⟨names, ⟨carries, file⟩, same⟩

/-- A unit that is found is that of a source below a root. -/
theorem holds_of_resolve {r : Roots} (sound : d.Sound) (plain : ∀ root ∈ r.roots, d.Plain root.path)
    (tidy : u.Tidy) (bare : IsBare r.ending) (filled : ∀ segment ∈ u.segments, segment ≠ "")
    {f : SourceFile} (found : r.resolve d u = some f) :
    ∃ root ∈ r.roots, ∃ names, r.Holds d root names ∧ f = r.below root names ∧
      names.map Text.lower = (UnitId.fileNames r.ending u.segments).map Text.lower := by
  obtain ⟨root, member, names, inside, carries, same⟩ := resolve_spec sound tidy bare filled found
  obtain ⟨spelled, proper, file⟩ := namesIn_spec sound tidy bare inside
  rw [Path.foldl_joinName carries.filled proper] at file
  have there := Disk.isFile_spec sound ((plain root member).join proper) file
  rw [Disk.placeOf_joinRelative proper] at there
  exact ⟨root, member, names, ⟨carries, there⟩, same, spelled⟩

/-! The roots of a list of paths. -/

theorem mem_ofPaths {generated : Option Path} {others : List Path} {ending : String}
    {root : SourceRoot} (member : root ∈ (ofPaths generated others ending).roots) :
    if root.generated then generated = some root.path else root.path ∈ others := by
  obtain ⟨⟨⟨path, first⟩, rank⟩, inside, rfl⟩ := List.mem_map.mp member
  have known := List.fst_mem_of_mem_zipIdx inside
  rcases List.mem_append.mp known with before | after
  · obtain ⟨p, given, same⟩ := Option.map_eq_some_iff.mp (Option.mem_toList.mp before)
    cases same
    simpa using given
  · obtain ⟨p, given, same⟩ := List.mem_map.mp after
    cases same
    simpa using given

theorem eq_of_rank {generated : Option Path} {others : List Path} {ending : String}
    {a b : SourceRoot} (first : a ∈ (ofPaths generated others ending).roots)
    (second : b ∈ (ofPaths generated others ending).roots) (same : a.rank = b.rank) : a = b := by
  obtain ⟨⟨⟨p, x⟩, i⟩, inside, rfl⟩ := List.mem_map.mp first
  obtain ⟨⟨⟨q, y⟩, j⟩, other, rfl⟩ := List.mem_map.mp second
  have here := List.mem_zipIdx_iff_getElem?.mp inside
  have there := List.mem_zipIdx_iff_getElem?.mp other
  have equal : i = j := same
  subst equal
  rw [here] at there
  cases there
  rfl

end Roots
end LayerCache
