import LayerCache.Cache.Artifacts
import LayerCache.Proofs.Path
import Mathlib.Data.List.DropRight

/-! Texts as lines. Lines joined by line feeds are cut apart again where they were joined, and
trimming takes away what is blank at either end and nothing else. So the list of ignored sources is
read as it was written exactly if no entry of it is changed by being put on a line. -/
namespace LayerCache

namespace Chars

variable {line cs : List Char} {all : List (List Char)} {c : Char}

/-! Lines. -/

/-- A line that does not end in a carriage return ends where it seems to. -/
def Ends (line : List Char) : Prop := '\n' ∉ line ∧ line.getLast? ≠ some '\r'

theorem dropReturn_of_ends (ends : line.getLast? ≠ some '\r') : dropReturn line = line := by
  simp only [dropReturn]
  split
  · rename_i rest reversed
    exact absurd (by rw [List.getLast?_eq_head?_reverse, reversed]; rfl) ends
  · rfl

theorem dropReturn_front (line : List Char) : dropReturn line <+: line := by
  simp only [dropReturn]
  split
  · rename_i rest reversed
    exact ⟨['\r'], by rw [← List.reverse_cons, ← reversed, List.reverse_reverse]⟩
  · exact List.prefix_rfl

theorem endLines_cons (line : List Char) {rest : List (List Char)} (more : rest ≠ []) :
    endLines (line :: rest) = dropReturn line :: endLines rest := by
  cases rest with
  | nil => exact absurd rfl more
  | cons next rest => rfl

theorem endLines_of_ends (ends : ∀ line ∈ all, Ends line) (last : all.getLast? ≠ some []) :
    endLines all = all := by
  induction all with
  | nil => rfl
  | cons line rest ih =>
    rcases rest with _ | ⟨next, more⟩
    · have filled : line ≠ [] := by simpa using last
      simp [endLines, filled]
    · rw [endLines_cons line (by simp), dropReturn_of_ends (ends line (by simp)).2,
        ih (fun other member => ends other (by simp [member])) (by simpa using last)]

/-- A line feed at the very end begins no line of its own. -/
theorem endLines_closed (ends : ∀ line ∈ all, Ends line) : endLines (all ++ [[]]) = all := by
  induction all with
  | nil => rfl
  | cons line rest ih =>
    rw [List.cons_append, endLines_cons line (by simp), dropReturn_of_ends (ends line (by simp)).2,
      ih fun other member => ends other (by simp [member])]

theorem lines_join (ends : ∀ line ∈ all, Ends line) (last : all.getLast? ≠ some []) :
    lines (join '\n' all) = all := by
  rcases all with _ | ⟨first, rest⟩
  · rfl
  · rw [lines, split_join (by simp) fun line member => (ends line member).1,
      endLines_of_ends ends last]

theorem join_concat (sep : Char) (filled : all ≠ []) (last : List Char) :
    join sep (all ++ [last]) = join sep all ++ sep :: last := by
  induction all with
  | nil => exact absurd rfl filled
  | cons line rest ih =>
    rcases rest with _ | ⟨next, more⟩
    · rfl
    · rw [List.cons_append, join_cons sep line (by simp), join_cons sep line (by simp),
        ih (by simp), List.append_assoc, List.cons_append]

theorem lines_join_closed (ends : ∀ line ∈ all, Ends line) :
    lines (join '\n' (all ++ [[]])) = all := by
  have whole : ∀ line ∈ all ++ [[]], '\n' ∉ line := by
    intro line member
    rcases List.mem_append.mp member with inside | last
    · exact (ends line inside).1
    · simp [List.mem_singleton.mp last]
  rw [lines, split_join (by simp) whole, endLines_closed ends]

theorem not_mem_of_mem_lines (member : line ∈ lines cs) : '\n' ∉ line := by
  have within : ∀ pieces : List (List Char), (∀ piece ∈ pieces, '\n' ∉ piece) →
      line ∈ endLines pieces → '\n' ∉ line := by
    intro pieces clean member
    induction pieces with
    | nil => cases member
    | cons piece rest ih =>
      rcases rest with _ | ⟨next, more⟩
      · simp only [endLines] at member
        split at member
        · cases member
        · exact List.mem_singleton.mp member ▸ clean piece (by simp)
      · rw [endLines_cons piece (by simp)] at member
        rcases List.mem_cons.mp member with rfl | later
        · exact fun inside => clean piece (by simp) ((dropReturn_front piece).mem inside)
        · exact ih (fun other known => clean other (by simp [known])) later
  exact within _ (fun piece => not_mem_of_mem_split) member

/-! Trimming. -/

theorem trimRight_eq (cs : List Char) : trimRight cs = cs.rdropWhile isBlank := rfl

theorem trim_infix (cs : List Char) : trim cs <:+: cs :=
  (trimRight_eq _ ▸ (List.rdropWhile_prefix ..).isInfix).trans (List.dropWhile_suffix ..).isInfix

/-- Neither end is blank. -/
def Tight (cs : List Char) : Prop :=
  (∀ c ∈ cs.head?, isBlank c = false) ∧ ∀ c ∈ cs.getLast?, isBlank c = false

theorem tight_trim (cs : List Char) : Tight (trim cs) := by
  constructor
  · intro c first
    obtain ⟨cut, whole⟩ := List.rdropWhile_prefix isBlank (trimLeft cs)
    have first : c ∈ (trimLeft cs).head? := by
      rw [← whole, List.head?_append]
      rw [trim, trimRight_eq] at first
      simp [Option.mem_def.mp first]
    have dark := List.head?_dropWhile_not isBlank cs
    rw [← trimLeft, Option.mem_def.mp first] at dark
    exact dark
  · intro c last
    rw [trim, trimRight_eq] at last
    have filled : (trimLeft cs).rdropWhile isBlank ≠ [] := by
      rintro empty
      simp [empty] at last
    have dark := List.rdropWhile_last_not isBlank (trimLeft cs) filled
    rw [List.getLast?_eq_some_getLast filled, Option.mem_some_iff] at last
    simpa [last] using dark

theorem trim_of_tight (tight : Tight cs) : trim cs = cs := by
  have left : trimLeft cs = cs := by
    rcases cs with _ | ⟨c, rest⟩
    · rfl
    · exact List.dropWhile_cons_of_neg (by simp [tight.1 c rfl])
  rw [trim, left, trimRight_eq, List.rdropWhile_eq_self_iff]
  intro filled
  simp [tight.2 _ (List.getLast?_eq_some_getLast filled)]

end Chars

namespace Text

theorem toList_joinLines (all : List String) :
    (join "\n" all).toList = Chars.join '\n' (all.map String.toList) := by
  induction all with
  | nil => rfl
  | cons line rest ih =>
    rcases rest with _ | ⟨next, more⟩
    · rfl
    · rw [List.map_cons, Chars.join_cons '\n' _ (by simp), ← ih]
      simp [join]

theorem lines_join {all : List String} (ends : ∀ line ∈ all, Chars.Ends line.toList)
    (last : all.getLast? ≠ some "") : lines (join "\n" all) = all := by
  have ends' : ∀ line ∈ all.map String.toList, Chars.Ends line := by simpa using ends
  rw [lines, toList_joinLines, Chars.lines_join ends']
  · simp
  · intro empty
    rw [List.getLast?_map, Option.map_eq_some_iff] at empty
    obtain ⟨line, closing, none⟩ := empty
    exact last (by rw [closing, String.toList_eq_nil_iff.mp none])

/-- A line feed may end the last line too. -/
theorem lines_join_closed {all : List String} (filled : all ≠ [])
    (ends : ∀ line ∈ all, Chars.Ends line.toList) : lines (join "\n" all ++ "\n") = all := by
  have ends' : ∀ line ∈ all.map String.toList, Chars.Ends line := by simpa using ends
  have closed : (join "\n" all ++ "\n").toList =
      Chars.join '\n' (all.map String.toList ++ [[]]) := by
    rw [String.toList_append, toList_joinLines, Chars.join_concat '\n' (by simpa using filled)]
    simp
  rw [lines, closed, Chars.lines_join_closed ends']
  simp

end Text

/-! The list of ignored sources. -/
namespace IgnoreList

/-- An entry that a line of its own can hold. -/
structure IsEntry (e : String) : Prop where
  filled : e ≠ ""
  oneLine : '\n' ∉ e.toList
  tight : Chars.Tight e.toList

theorem IsEntry.ends {e : String} (entry : IsEntry e) : Chars.Ends e.toList :=
  ⟨entry.oneLine, fun closing => absurd (entry.tight.2 _ closing) (by decide)⟩

theorem IsEntry.trim {e : String} (entry : IsEntry e) : Text.trim e = e := by
  simp [Text.trim, Chars.trim_of_tight entry.tight]

/-- What is read are entries, whatever the text. -/
theorem isEntry_of_parse {text e : String} (member : e ∈ (parse text).entries) : IsEntry e := by
  simp only [parse, List.mem_filter, List.mem_map, decide_eq_true_eq] at member
  obtain ⟨⟨line, inside, rfl⟩, filled⟩ := member
  obtain ⟨cs, cut, rfl⟩ := List.mem_map.mp inside
  refine ⟨filled, ?_, by simpa [Text.trim] using Chars.tight_trim cs⟩
  intro feed
  rw [Text.trim, String.toList_ofList, String.toList_ofList] at feed
  exact Chars.not_mem_of_mem_lines cut ((Chars.trim_infix cs).mem feed)

theorem parse_of_entries {l : IgnoreList} (entries : ∀ e ∈ l.entries, IsEntry e) :
    parse l.render = l := by
  have filled : l.entries.getLast? ≠ some "" := fun closing =>
    (entries _ (List.mem_of_getLast? closing)).filled rfl
  have same : l.entries.map Text.trim = l.entries :=
    (List.map_congr_left fun e member => (entries e member).trim).trans (List.map_id _)
  rw [parse, render, Text.lines_join (fun e member => (entries e member).ends) filled, same,
    List.filter_eq_self.mpr fun e member => by simpa using (entries e member).filled]

/-- A list is read as it was written if and only if each of its entries fits on a line; and what
was read from any text is written and read without loss. -/
theorem parse_render_iff :
    (∀ l : IgnoreList, (parse l.render).entries = l.entries ↔ ∀ e ∈ l.entries, IsEntry e) ∧
      ∀ text : String, parse (parse text).render = parse text := by
  refine ⟨fun l => ⟨fun same e member => ?_, fun entries => ?_⟩, fun text => ?_⟩
  · rw [← same] at member
    exact isEntry_of_parse member
  · rw [parse_of_entries entries]
  · exact parse_of_entries fun e member => isEntry_of_parse member

/-- A carriage return inside an entry stays, one at its end is lost. -/
example : parse (render ⟨["a\rb", "c\r"]⟩) = ⟨["a\rb", "c"]⟩ := by decide

end IgnoreList
end LayerCache
