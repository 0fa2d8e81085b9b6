import LayerCache.Disk.Walk
import Mathlib.Data.List.TakeWhile

/-! Texts cut into pieces and put together again, and paths put together from names. -/
namespace LayerCache

namespace Chars

variable {sep : Char} {cs head tail piece : List Char} {pieces : List (List Char)}

theorem split_of_not_mem (absent : sep ∉ cs) : split sep cs = [cs] := by
  induction cs with
  | nil => rfl
  | cons c cs ih =>
    simp only [List.mem_cons, not_or] at absent
    simp [split, ih absent.2, Ne.symm absent.1]

theorem split_append (sep : Char) (first rest : List Char) :
    split sep (first ++ sep :: rest) = split sep first ++ split sep rest := by
  induction first with
  | nil => simp [split]
  | cons c cs ih =>
    by_cases same : c = sep
    · simp [split, same, ih]
    · simp only [List.cons_append, split, same, if_false, ih]
      rcases pieces : split sep cs with _ | ⟨piece, more⟩
      · exact absurd pieces (split_ne_nil sep cs)
      · rfl

theorem not_mem_of_mem_split (member : piece ∈ split sep cs) : sep ∉ piece := by
  induction cs generalizing piece with
  | nil => simp_all [split]
  | cons c cs ih =>
    simp only [split] at member
    split at member
    · rcases List.mem_cons.mp member with rfl | later
      · simp
      · exact ih later
    · rename_i other
      rcases pieces : split sep cs with _ | ⟨first, more⟩
      · exact absurd pieces (split_ne_nil sep cs)
      · rw [pieces] at member ih
        rcases List.mem_cons.mp member with rfl | later
        · simp only [List.mem_cons, not_or]
          exact ⟨Ne.symm other, ih List.mem_cons_self⟩
        · exact ih (List.mem_cons_of_mem _ later)

theorem mem_of_mem_split {sep c : Char} {cs piece : List Char} (member : piece ∈ split sep cs)
    (inside : c ∈ piece) : c ∈ cs := by
  have joined : ∀ pieces : List (List Char), piece ∈ pieces → c ∈ join sep pieces := by
    intro pieces member
    induction pieces with
    | nil => cases member
    | cons first rest ih =>
      rcases rest with _ | ⟨next, more⟩
      · rwa [← List.mem_singleton.mp member]
      · rw [join_cons sep first (by simp)]
        rcases List.mem_cons.mp member with rfl | later
        · exact List.mem_append_left _ inside
        · exact List.mem_append_right _ (List.mem_cons_of_mem _ (ih later))
  rw [← join_split sep cs]
  exact joined _ member

/-- Pieces without the separator come back as they were. -/
theorem split_join (filled : pieces ≠ []) (absent : ∀ piece ∈ pieces, sep ∉ piece) :
    split sep (join sep pieces) = pieces := by
  induction pieces with
  | nil => exact absurd rfl filled
  | cons piece rest ih =>
    have clean : sep ∉ piece := absent piece (by simp)
    rcases rest with _ | ⟨next, more⟩
    · exact split_of_not_mem clean
    · rw [join_cons sep piece (by simp), split_append, split_of_not_mem clean,
        ih (by simp) fun other member => absent other (by simp [member])]
      rfl

theorem cutLast_eq_some :
    cutLast sep cs = some (head, tail) ↔ cs = head ++ sep :: tail ∧ sep ∉ tail := by
  constructor
  · intro cut
    have whole := List.takeWhile_append_dropWhile (p := fun c => decide (c ≠ sep)) (l := cs.reverse)
    have clean : sep ∉ cs.reverse.takeWhile fun c => decide (c ≠ sep) := by
      intro member
      simpa using List.mem_takeWhile_imp member
    rw [cutLast] at cut
    rcases dropped : cs.reverse.dropWhile fun c => decide (c ≠ sep) with _ | ⟨c, before⟩
    · simp only [dropped] at cut
      cases cut
    · have stop : c = sep := by
        have first := List.head?_dropWhile_not (fun c => decide (c ≠ sep)) cs.reverse
        rw [dropped] at first
        simpa using first
      simp only [dropped, Option.some.injEq, Prod.mk.injEq] at cut
      obtain ⟨rfl, rfl⟩ := cut
      refine ⟨?_, by simpa using clean⟩
      rw [dropped, stop] at whole
      rw [← List.reverse_inj, List.reverse_append, List.reverse_cons, List.reverse_reverse,
        List.reverse_reverse, List.append_assoc]
      exact whole.symm
  · rintro ⟨rfl, absent⟩
    have clean : ∀ c ∈ tail.reverse, decide (c ≠ sep) = true := by
      intro c member
      have : c ≠ sep := fun same => absent (by simpa [same] using member)
      simpa using this
    rw [cutLast, List.reverse_append, List.reverse_cons, List.append_assoc,
      List.dropWhile_append_of_pos clean, List.takeWhile_append_of_pos clean]
    simp

end Chars

namespace Text

theorem toList_join (pieces : List String) :
    (join "/" pieces).toList = Chars.join '/' (pieces.map String.toList) := by
  induction pieces with
  | nil => rfl
  | cons piece rest ih =>
    rcases rest with _ | ⟨next, more⟩
    · rfl
    · rw [List.map_cons, Chars.join_cons '/' _ (by simp), ← ih]
      simp [join]

theorem not_mem_of_mem_split {sep : Char} {piece s : String} (member : piece ∈ split sep s) :
    sep ∉ piece.toList := by
  obtain ⟨cs, inside, rfl⟩ := List.mem_map.mp member
  simpa using Chars.not_mem_of_mem_split inside

theorem mem_of_mem_split {sep c : Char} {s piece : String} (member : piece ∈ split sep s)
    (inside : c ∈ piece.toList) : c ∈ s.toList := by
  obtain ⟨cs, cut, rfl⟩ := List.mem_map.mp member
  exact Chars.mem_of_mem_split cut (by simpa using inside)

theorem split_join {pieces : List String} (filled : pieces ≠ [])
    (absent : ∀ piece ∈ pieces, '/' ∉ piece.toList) : split '/' (join "/" pieces) = pieces := by
  have clean : ∀ piece ∈ pieces.map String.toList, '/' ∉ piece := by simpa using absent
  rw [split, toList_join, Chars.split_join (by simpa using filled) clean]
  simp

theorem split_append (first rest : String) :
    split '/' (first ++ "/" ++ rest) = split '/' first ++ split '/' rest := by
  simp [split, Chars.split_append]

theorem join_split (s : String) : join "/" (split '/' s) = s := by
  apply String.toList_inj.mp
  rw [toList_join, split, List.map_map]
  simpa [Function.comp_def] using Chars.join_split '/' s.toList

theorem join_append {front back : List String} (filled : front ≠ []) (more : back ≠ []) :
    join "/" (front ++ back) = join "/" front ++ "/" ++ join "/" back := by
  induction front with
  | nil => exact absurd rfl filled
  | cons piece rest ih =>
    rcases rest with _ | ⟨next, others⟩
    · obtain ⟨b, bs, rfl⟩ := List.exists_cons_of_ne_nil more
      rfl
    · have shorter := ih (by simp)
      simp only [List.cons_append, join] at shorter ⊢
      rw [shorter]
      simp only [String.append_assoc]

theorem join_concat (front : List String) (a b : String) :
    join "/" (front ++ [a ++ b]) = join "/" (front ++ [a]) ++ b := by
  by_cases empty : front = []
  · simp [empty, join]
  · rw [join_append empty (by simp), join_append empty (by simp)]
    simp [join, String.append_assoc]

/-- Pieces that follow others, each behind its separator. -/
def after (pieces : List String) : List Char := pieces.flatMap fun piece => '/' :: piece.toList

@[simp] theorem after_nil : after [] = [] := rfl

@[simp] theorem after_cons (piece : String) (rest : List String) :
    after (piece :: rest) = '/' :: (piece.toList ++ after rest) := rfl

theorem toList_join_append {front : List String} (filled : front ≠ []) (back : List String) :
    (join "/" (front ++ back)).toList = (join "/" front).toList ++ after back := by
  induction back generalizing front with
  | nil => simp
  | cons piece rest ih =>
    rw [List.append_cons, ih (by simp), join_append filled (by simp)]
    simp [join]

/-- Pieces that lead nowhere, behind others. -/
def AreVoid (pieces : List String) : Prop := ∀ piece ∈ pieces, piece = "" ∨ piece = "."

/-- What leads nowhere does so wherever it is cut. -/
theorem AreVoid.take_after {pieces : List String} (void : AreVoid pieces) (n : Nat) :
    ∃ fewer, AreVoid fewer ∧ (after pieces).take n = after fewer := by
  induction pieces generalizing n with
  | nil => exact ⟨[], void, by simp⟩
  | cons piece rest ih =>
    have first := void piece (by simp)
    have later := ih fun other member => void other (by simp [member])
    have more : ∀ k, ∃ fewer, AreVoid fewer ∧
        '/' :: (piece.toList ++ (after rest).take k) = after fewer := by
      intro k
      obtain ⟨fewer, kept, cut⟩ := later k
      refine ⟨piece :: fewer, fun other member => ?_, by rw [cut, after_cons]⟩
      rcases List.mem_cons.mp member with rfl | inside
      · exact first
      · exact kept other inside
    rcases n with _ | n
    · exact ⟨[], by simp [AreVoid], rfl⟩
    rcases first with rfl | rfl
    · simpa using more n
    · rcases n with _ | n
      · exact ⟨[""], by simp [AreVoid], rfl⟩
      · simpa using more n

theorem cutLast_eq_some {sep : Char} {s head tail : String} :
    cutLast sep s = some (head, tail) ↔
      s.toList = head.toList ++ sep :: tail.toList ∧ sep ∉ tail.toList := by
  rw [← Chars.cutLast_eq_some, cutLast]
  rcases cut : Chars.cutLast sep s.toList with _ | ⟨a, b⟩
  · simp
  · simp only [Option.map_some, Option.some.injEq, Prod.mk.injEq]
    constructor
    · rintro ⟨rfl, rfl⟩
      simp
    · rintro ⟨rfl, rfl⟩
      simp

theorem sorted_mergeSort (all : List String) :
    (all.mergeSort fun a b => a ≤ b).Pairwise (· ≤ ·) := by
  let le : String → String → Bool := fun a b => decide (a ≤ b)
  have transitive : ∀ a b c, le a b → le b c → le a c := by
    intro a b c h h'
    simp only [le, decide_eq_true_eq] at h h' ⊢
    exact String.le_trans h h'
  have total : ∀ a b, le a b || le b a := fun a b => by simpa [le] using String.le_total a b
  simpa [le] using List.pairwise_mergeSort transitive total all

end Text

/-- A name that leads from a folder to something in it. -/
structure IsName (name : String) : Prop where
  filled : name ≠ ""
  inside : name ≠ "."
  below : name ≠ ".."
  bare : '/' ∉ name.toList

namespace Path

variable {p next : Path} {name ending : String} {names : List String}

theorem mem_names (member : name ∈ p.names) : name ≠ "" ∧ '/' ∉ name.toList := by
  simp only [Path.names, List.mem_filter, decide_eq_true_eq] at member
  exact ⟨member.2, Text.not_mem_of_mem_split member.1⟩

theorem names_of_toList {front back : String}
    (text : p.text.toList = front.toList ++ '/' :: back.toList) :
    p.names = Path.names ⟨front⟩ ++ Path.names ⟨back⟩ := by
  simp [Path.names, pieces, Text.split, text, Chars.split_append]

theorem names_join (relative : next.isAbsolute = false) :
    (p.join next).names = p.names ++ next.names := by
  simp only [join, relative, Bool.false_eq_true, if_false, Bool.or_eq_true, beq_iff_eq]
  split
  · rename_i closed
    rcases closed with empty | slash
    · simp [Path.names, pieces, empty, Text.split, Chars.split]
    · obtain ⟨front, cut⟩ := List.getLast?_eq_some_iff.mp slash
      have whole : (p.text ++ next.text).toList =
          (String.ofList front).toList ++ '/' :: next.text.toList := by simp [cut]
      have before : p.text.toList = (String.ofList front).toList ++ '/' :: "".toList := by
        simp [cut]
      rw [names_of_toList whole, names_of_toList before]
      simp [Path.names, pieces, Text.split, Chars.split]
  · have cut : (p.text ++ "/" ++ next.text).toList = p.text.toList ++ '/' :: next.text.toList := by
      simp
    exact names_of_toList cut

theorem isAbsolute_join (relative : next.isAbsolute = false) :
    (p.join next).isAbsolute = p.isAbsolute := by
  simp only [join, relative, Bool.false_eq_true, if_false, Bool.or_eq_true, beq_iff_eq]
  rcases text : p.text.toList with _ | ⟨c, cs⟩
  · have empty : p.text = "" := String.toList_eq_nil_iff.mp text
    simp only [isAbsolute] at relative
    simp [isAbsolute, empty, relative]
  · split
    all_goals simp [isAbsolute, text]

theorem filled_join (filled : p.text ≠ "") : (p.join next).text ≠ "" := by
  simp only [join]
  split
  · rename_i absolute
    intro empty
    simp [isAbsolute, empty] at absolute
  · split
    · simp [filled]
    · simp [filled]

/-- What is put before a name that follows a path. -/
def lead (p : Path) : String :=
  if p.text == "" || p.text.toList.getLast? == some '/' then p.text else p.text ++ "/"

theorem join_eq (relative : next.isAbsolute = false) : p.join next = ⟨p.lead ++ next.text⟩ := by
  simp only [join, lead, relative, Bool.false_eq_true, if_false]
  split
  · rfl
  · simp only [String.append_assoc]

theorem lead_cases (p : Path) : p.lead = "" ∨ ∃ front : String, p.lead = front ++ "/" := by
  simp only [lead, Bool.or_eq_true, beq_iff_eq]
  split
  · rename_i closed
    rcases closed with empty | slash
    · exact .inl empty
    · obtain ⟨front, cut⟩ := List.getLast?_eq_some_iff.mp slash
      exact .inr ⟨String.ofList front, String.toList_inj.mp (by simp [cut])⟩
  · exact .inr ⟨p.text, rfl⟩

theorem relative_of_isName (proper : IsName name) : Path.isAbsolute ⟨name⟩ = false := by
  rcases text : name.toList with _ | ⟨c, cs⟩
  · simp [isAbsolute, text]
  · have other : c ≠ '/' := fun same => proper.bare (by simp [text, same])
    simpa [isAbsolute, text] using other

theorem names_of_isName (proper : IsName name) : Path.names ⟨name⟩ = [name] := by
  simp [Path.names, pieces, Text.split, Chars.split_of_not_mem proper.bare, proper.filled]

theorem joinName_eq (proper : IsName name) : p.joinName name = ⟨p.lead ++ name⟩ :=
  join_eq (relative_of_isName proper)

theorem names_joinName (proper : IsName name) : (p.joinName name).names = p.names ++ [name] := by
  rw [joinName, names_join (relative_of_isName proper), names_of_isName proper]

theorem isAbsolute_joinName (proper : IsName name) :
    (p.joinName name).isAbsolute = p.isAbsolute := isAbsolute_join (relative_of_isName proper)

theorem lead_joinName (proper : IsName name) :
    (p.joinName name).lead = p.lead ++ name ++ "/" := by
  rw [joinName_eq proper]
  generalize p.lead = front
  have filled : (front ++ name == "") = false := by simp [proper.filled]
  have last : ((front ++ name).toList.getLast? == some '/') = false := by
    rcases List.eq_nil_or_concat name.toList with empty | ⟨before, c, text⟩
    · exact absurd (String.toList_eq_nil_iff.mp empty) proper.filled
    · have other : c ≠ '/' := fun same => proper.bare (by simp [text, same])
      simp [text, other]
  simp only [lead, filled, last, Bool.or_false, Bool.false_eq_true, if_false]

section

open Disk

theorem relative_of_names (proper : ∀ name ∈ names, IsName name) :
    (relativePath names).isAbsolute = false := by
  rcases names with _ | ⟨name, rest⟩
  · rfl
  · have first := relative_of_isName (proper name (by simp))
    have filled := (proper name (by simp)).filled
    rcases rest with _ | ⟨next, more⟩
    · exact first
    · simp only [isAbsolute, relativePath, Text.join] at first ⊢
      rcases text : name.toList with _ | ⟨c, cs⟩
      · exact absurd (String.toList_eq_nil_iff.mp text) filled
      · simpa [text] using first

theorem names_relativePath (proper : ∀ name ∈ names, IsName name) :
    (relativePath names).names = names := by
  rcases names with _ | ⟨name, rest⟩
  · rfl
  · have filled : ∀ n ∈ name :: rest, decide (n ≠ "") = true :=
      fun n member => by simpa using (proper n member).filled
    rw [Path.names, pieces, relativePath,
      Text.split_join (by simp) fun n member => (proper n member).bare, List.filter_eq_self.mpr filled]

theorem names_joinRelative (proper : ∀ name ∈ names, IsName name) :
    (p.join (relativePath names)).names = p.names ++ names := by
  rw [names_join (relative_of_names proper), names_relativePath proper]

/-- Going down name by name leads where all names at once do. -/
theorem foldl_joinName (filled : names ≠ []) (proper : ∀ name ∈ names, IsName name) :
    names.foldl joinName p = p.join (relativePath names) := by
  induction names generalizing p with
  | nil => exact absurd rfl filled
  | cons name rest ih =>
    have here := proper name (by simp)
    rcases rest with _ | ⟨next, more⟩
    · rfl
    · have down : ∀ n ∈ next :: more, IsName n := fun n member => proper n (by simp [member])
      rw [List.foldl_cons, ih (by simp) down, join_eq (relative_of_names down),
        join_eq (relative_of_names proper), lead_joinName here]
      simp only [relativePath, Text.join, String.append_assoc]

theorem joinRelative_concat {front : List String}
    (proper : ∀ n ∈ front ++ [name], IsName n) (p : Path) :
    p.join (relativePath (front ++ [name])) = (front.foldl joinName p).joinName name := by
  rw [← foldl_joinName (by simp) proper, List.foldl_append]
  rfl

end

/-! Extensions. -/

/-- What stands before the first name that follows a path is cut into pieces on its own. -/
theorem pieces_lead_append (p : Path) :
    ∃ front, ∀ rest : String, pieces ⟨p.lead ++ rest⟩ = front ++ Text.split '/' rest := by
  rcases p.lead_cases with empty | ⟨before, closed⟩
  · exact ⟨[], fun rest => by simp [pieces, empty]⟩
  · exact ⟨Text.split '/' before, fun rest => by rw [pieces, closed, Text.split_append]⟩

theorem pieces_lead (p : Path) :
    ∃ front, ∀ name : String, '/' ∉ name.toList → pieces ⟨p.lead ++ name⟩ = front ++ [name] := by
  obtain ⟨front, cuts⟩ := p.pieces_lead_append
  refine ⟨front, fun name bare => ?_⟩
  simp [cuts, Text.split, Chars.split_of_not_mem bare]

theorem ofPieces_pieces (p : Path) : ofPieces p.pieces = p := by
  rw [ofPieces, pieces, Text.join_split]

section

variable {front tail : List String} {head old : String}

theorem trimmed_of_void (cut : p.pieces = front ++ [name] ++ tail) (void : Text.AreVoid tail)
    (filled : name ≠ "") (inside : name ≠ ".") : p.trimmed = (front ++ [name]).zipIdx := by
  have leads : isVoid p.isAbsolute front.length name = false := by simp [isVoid, filled, inside]
  have dropped : ∀ pair ∈ (tail.zipIdx (front.length + 1)).reverse,
      isVoid p.isAbsolute pair.2 pair.1 = true := by
    rintro ⟨piece, index⟩ member
    obtain ⟨later, _, _⟩ := List.mem_zipIdx (List.mem_reverse.mp member)
    have inner : index ≠ 0 := by omega
    rcases void piece (List.fst_mem_of_mem_zipIdx (List.mem_reverse.mp member)) with rfl | rfl
    · rfl
    · simp [isVoid, inner]
  rw [trimmed, cut, List.zipIdx_append, List.reverse_append]
  simp only [List.length_append, List.length_singleton, Nat.zero_add]
  rw [List.dropWhile_append_of_pos dropped]
  simp [List.zipIdx_append, leads]

theorem trimmed_of_pieces (cut : p.pieces = front ++ [name]) (filled : name ≠ "")
    (inside : name ≠ ".") : p.trimmed = p.pieces.zipIdx := by
  have whole : p.pieces = front ++ [name] ++ [] := by simpa using cut
  rw [trimmed_of_void whole (by simp [Text.AreVoid]) filled inside, cut]

theorem fileName_of_void (cut : p.pieces = front ++ [name] ++ tail) (void : Text.AreVoid tail)
    (filled : name ≠ "") (inside : name ≠ ".") :
    p.fileName = if name = ".." then none else some name := by
  simp [fileName, trimmed_of_void cut void filled inside, List.zipIdx_append, inside]

theorem cutName_of (below : name ≠ "..") (text : name = head ++ "." ++ old)
    (filled : head ≠ "") (bare : '.' ∉ old.toList) : cutName name = (some head, some old) := by
  have cut : Text.cutLast '.' name = some (head, old) :=
    Text.cutLast_eq_some.mpr ⟨by simp [text], bare⟩
  simp [cutName, below, cut, filled]

/-- The extension of a name, with what stands before its dot. -/
def Extends (name head old : String) : Prop :=
  name = head ++ "." ++ old ∧ head ≠ "" ∧ '.' ∉ old.toList

theorem extends_of_cutName (cut : cutName name = (some head, some old)) :
    Extends name head old := by
  unfold cutName at cut
  split at cut
  · simp at cut
  split at cut
  · simp at cut
  rename_i found
  obtain ⟨text, bare⟩ := Text.cutLast_eq_some.mp found
  split at cut
  · simp at cut
  rename_i filled
  simp only [Prod.mk.injEq, Option.some.injEq] at cut
  obtain ⟨rfl, rfl⟩ := cut
  exact ⟨String.toList_inj.mp (by simp [text]), by simpa using filled, bare⟩

theorem extension_of_void (cut : p.pieces = front ++ [name] ++ tail) (void : Text.AreVoid tail)
    (proper : IsName name) : p.extension = (cutName name).1.bind fun _ => (cutName name).2 := by
  simp only [extension, fileName_of_void cut void proper.filled proper.inside, proper.below, if_false]
  rcases cutName name with ⟨_ | _, _⟩
  · rfl
  · rfl

theorem extension_of_extends (cut : p.pieces = front ++ [name] ++ tail) (void : Text.AreVoid tail)
    (proper : IsName name) (parts : Extends name head old) : p.extension = some old := by
  rw [extension_of_void cut void proper, cutName_of proper.below parts.1 parts.2.1 parts.2.2]
  rfl

theorem hasExtension_iff (cut : p.pieces = front ++ [name])
    (proper : IsName name) : p.hasExtension ending = true ↔
      ∃ head old, Extends name head old ∧ Text.sameIgnoringCase old ending = true := by
  have cut : p.pieces = front ++ [name] ++ [] := by simpa using cut
  have void : Text.AreVoid [] := by simp [Text.AreVoid]
  constructor
  · intro carries
    rw [hasExtension, extension_of_void cut void proper] at carries
    rcases parts : cutName name with ⟨_ | head, _ | old⟩
    all_goals simp only [parts, Option.bind_none, Option.bind_some, Bool.false_eq_true] at carries
    exact ⟨head, old, extends_of_cutName parts, carries⟩
  · rintro ⟨head, old, parts, same⟩
    rw [hasExtension, extension_of_extends cut void proper parts]
    exact same

theorem Extends.longer (parts : Extends name head old) : 1 < name.length := by
  have filled : head.length ≠ 0 := fun none => parts.2.1 (String.length_eq_zero_iff.mp none)
  rw [parts.1, String.length_append, String.length_append]
  have dot : ".".length = 1 := rfl
  omega

theorem setExtension_of_void (cut : p.pieces = front ++ [name] ++ tail) (void : Text.AreVoid tail)
    (parts : Extends name head old) (below : name ≠ "..") : p.setExtension ending =
      ofPieces (front ++ [if ending = "" then head else head ++ "." ++ ending]) := by
  have named : name ≠ "" := by
    rintro rfl
    exact absurd parts.longer (by decide)
  have inside : name ≠ "." := by
    rintro rfl
    exact absurd parts.longer (by decide)
  have stem : p.stem = some head := by
    simp [Path.stem, fileName_of_void cut void named inside, below,
      cutName_of below parts.1 parts.2.1 parts.2.2]
  simp [setExtension, stem, trimmed_of_void cut void named inside, List.zipIdx_append]

/-- The cut takes what leads nowhere first, and of the extension no more than is then left to take. -/
theorem pieces_cut (cut : p.pieces = front ++ [head ++ "." ++ old] ++ tail) (void : Text.AreVoid tail)
    (dotless : '.' ∉ old.toList) : ∃ rest fewer, '.' ∉ rest.toList ∧ Text.AreVoid fewer ∧
      pieces ⟨String.ofList (p.text.toList.take (p.text.length - old.length))⟩ =
        front ++ [head ++ "." ++ rest] ++ fewer := by
  have bare : ∀ piece ∈ front ++ [head ++ "." ++ old] ++ tail, '/' ∉ piece.toList := by
    rw [← cut]
    exact fun _ => Text.not_mem_of_mem_split
  obtain ⟨fewer, kept, shorter⟩ := void.take_after ((Text.after tail).length - old.toList.length)
  let rest := String.ofList (old.toList.take (Text.after tail).length)
  have inOld : ∀ c ∈ rest.toList, c ∈ old.toList := by
    intro c member
    rw [String.toList_ofList] at member
    exact List.mem_of_mem_take member
  have joined : ∀ last more, (Text.join "/" (front ++ [head ++ "." ++ last] ++ more)).toList =
      (Text.join "/" (front ++ [head ++ "."])).toList ++ (last.toList ++ Text.after more) := by
    intro last more
    rw [Text.toList_join_append (by simp), Text.join_concat, String.toList_append, List.append_assoc]
  have text : String.ofList (p.text.toList.take (p.text.length - old.length)) =
      Text.join "/" (front ++ [head ++ "." ++ rest] ++ fewer) := by
    apply String.toList_inj.mp
    have whole : p.text.toList = (Text.join "/" (front ++ [head ++ "."])).toList ++
        (old.toList ++ Text.after tail) := by
      rw [← joined, ← cut, pieces, Text.join_split]
    have length : p.text.length - old.length =
        (Text.join "/" (front ++ [head ++ "."])).toList.length + (Text.after tail).length := by
      rw [← String.length_toList, whole, List.length_append, List.length_append, ← String.length_toList]
      omega
    rw [String.toList_ofList, joined, length, whole, List.take_length_add_append, List.take_append,
      shorter, String.toList_ofList]
  refine ⟨rest, fewer, fun member => dotless (inOld _ member), kept, ?_⟩
  rw [pieces, text, Text.split_join (by simp)]
  intro piece member
  rcases List.mem_append.mp member with named | after
  · rcases List.mem_append.mp named with before | last
    · exact bare piece (by simp [before])
    · have own := bare (head ++ "." ++ old) (by simp)
      rw [List.mem_singleton.mp last]
      simp only [String.toList_append, List.mem_append, not_or] at own ⊢
      exact ⟨own.1, fun member => own.2 (inOld _ member)⟩
  · rcases kept piece after with rfl | rfl
    all_goals decide

/-- The old extension gives way to the new one, and what leads nowhere behind it is gone. -/
theorem withExtension_of_void (cut : p.pieces = front ++ [name] ++ tail) (void : Text.AreVoid tail)
    (proper : IsName name) (parts : Extends name head old) (inside : head ≠ ".") :
    p.withExtension ending =
      ofPieces (front ++ [if ending = "" then head else head ++ "." ++ ending]) := by
  have found := extension_of_extends cut void proper parts
  obtain ⟨rfl, filled, dotless⟩ := parts
  obtain ⟨rest, fewer, bare, kept, shorter⟩ := pieces_cut cut void dotless
  simp only [withExtension, found]
  refine setExtension_of_void shorter kept ⟨rfl, filled, bare⟩ fun up => ?_
  have last : Text.cutLast '.' ".." = some (head, rest) :=
    Text.cutLast_eq_some.mpr ⟨by simp [← up], bare⟩
  have dots : Text.cutLast '.' ".." = some (".", "") := by decide
  rw [dots] at last
  exact inside (Prod.mk.inj (Option.some.inj last)).1.symm

/-- Only a name that is `.` before its dot makes trouble: what is left of it is `..`. -/
theorem withExtension_joinName (proper : IsName name)
    (parts : Extends name head old) (bare : '/' ∉ ending.toList) :
    (p.joinName name).withExtension ending =
      ⟨p.lead ++ if head = "." then ".." else if ending = "" then head else head ++ "." ++ ending⟩ := by
  obtain ⟨front, cuts⟩ := p.pieces_lead
  have cut : pieces (p.joinName name) = front ++ [name] ++ [] := by
    rw [joinName_eq proper, cuts name proper.bare, List.append_nil]
  have void : Text.AreVoid [] := by simp [Text.AreVoid]
  by_cases dot : head = "."
  · have found := extension_of_extends cut void proper parts
    have whole : (p.joinName name).text.toList = (p.lead ++ "..").toList ++ old.toList := by
      rw [joinName_eq proper, parts.1, dot]
      simp
    have length : (p.joinName name).text.length - old.length = (p.lead ++ "..").toList.length := by
      rw [← String.length_toList, whole, ← String.length_toList, List.length_append]
      omega
    have up : pieces ⟨p.lead ++ ".."⟩ = front ++ [".."] ++ [] := by simpa using cuts ".." (by decide)
    have unnamed : stem ⟨p.lead ++ ".."⟩ = none := by
      simp [stem, fileName_of_void up void (by decide) (by decide)]
    simp only [withExtension, found, length, whole, List.take_left, String.ofList_toList,
      setExtension, unnamed, if_pos dot]
  · have noSlash : '/' ∉ head.toList := fun member => proper.bare (by simp [parts.1, member])
    have last : '/' ∉ (if ending = "" then head else head ++ "." ++ ending).toList := by
      split
      · exact noSlash
      · simpa [noSlash] using bare
    rw [withExtension_of_void cut void proper parts dot, if_neg dot, ← cuts _ last, ofPieces_pieces]

end

theorem go_cons (steps : Nat) (p : Path) : ∃ ups, ancestors.go steps p = p :: ups := by
  cases steps with
  | zero => exact ⟨[], rfl⟩
  | succ n => exact ⟨_, rfl⟩

open Disk in
/-- Names without the extension of the last. -/
theorem withExtension_relativePath {front : List String} {head old : String}
    (proper : ∀ n ∈ front ++ [name], IsName n) (headed : IsName head)
    (parts : Extends name head old) :
    (relativePath (front ++ [name])).withExtension "" = relativePath (front ++ [head]) := by
  have short : ∀ n ∈ front ++ [head], IsName n := by
    intro n member
    rcases List.mem_append.mp member with before | last
    · exact proper n (by simp [before])
    · rwa [List.mem_singleton.mp last]
  have start : ∀ names, (∀ n ∈ names, IsName n) →
      relativePath names = Path.join ⟨""⟩ (relativePath names) := by
    intro names named
    simp [join_eq (relative_of_names named), lead]
  rw [start _ proper, start _ short, joinRelative_concat proper, joinRelative_concat short,
    withExtension_joinName (proper name (by simp)) parts (by simp), if_neg headed.inside, if_pos rfl,
    joinName_eq headed]

end Path
end LayerCache
