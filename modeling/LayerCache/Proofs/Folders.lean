import Mathlib.Data.List.DropRight
import LayerCache.Proofs.Disk

/-! Which folders are made. The folders above a path lead through names that the path goes through
itself, so making them adds no folder beside the way to it. -/
namespace LayerCache

namespace Path

variable {p q : Path}

theorem isAbsolute_iff : p.isAbsolute = true ↔ ∃ second more, p.pieces = "" :: second :: more := by
  obtain ⟨text⟩ := p
  rcases cut : text.toList with _ | ⟨c, cs⟩
  · simp [isAbsolute, pieces, Text.split, cut, Chars.split]
  · by_cases slash : c = '/'
    · obtain ⟨second, more, rest⟩ : ∃ second more, Chars.split '/' cs = second :: more :=
        List.exists_cons_of_ne_nil (Chars.split_ne_nil '/' cs)
      simp [isAbsolute, pieces, Text.split, cut, Chars.split, slash, rest]
    · simp only [isAbsolute, pieces, Text.split, cut, Chars.split, slash, if_false, List.head?_cons,
        beq_iff_eq, Option.some.injEq, false_iff]
      rintro ⟨second, more, same⟩
      split at same
      · simp at same
      · simp at same

section

variable {all front : List (String × Nat)} {last : String × Nat} {void : String × Nat → Bool}

/-- What stands before the void pieces at the end, and the piece it ends in. -/
theorem rdropWhile_cases (void : String × Nat → Bool) (all : List (String × Nat)) :
    all.rdropWhile void = [] ∨ ∃ front last rest, all = front ++ last :: rest ∧
      all.rdropWhile void = front ++ [last] ∧ void last = false := by
  by_cases filled : all.rdropWhile void = []
  · exact .inl filled
  obtain ⟨rest, whole⟩ := List.rdropWhile_prefix void all
  have ends := List.rdropWhile_last_not void all filled
  refine .inr ⟨_, _, rest, ?_, (List.dropLast_append_getLast filled).symm, by simpa using ends⟩
  rw [← List.singleton_append, ← List.append_assoc, List.dropLast_append_getLast, whole]

end

/-- The parent of a path has its first pieces. The path goes on with a name. -/
theorem pieces_parent (up : p.parent = some q) :
    q.text = (if p.isAbsolute then "/" else "") ∨
      ∃ front last more name rest, p.pieces = front ++ last :: more ++ name :: rest ∧
        q = ofPieces (front ++ [last]) ∧ last ≠ "" ∧ name ≠ "" := by
  simp only [parent] at up
  split at up
  · cases up
  rename_i filled
  rcases rdropWhile_cases (fun piece => isVoid p.isAbsolute piece.2 piece.1) p.pieces.zipIdx with
    empty | ⟨front, name, rest, whole, cut, leads⟩
  · exact absurd empty filled
  have trimmed : p.trimmed = front ++ [name] := cut
  have filledIn : ∀ piece : String × Nat, isVoid p.isAbsolute piece.2 piece.1 = false →
      piece.1 ≠ "" := by
    rintro piece leads empty
    simp [isVoid, empty] at leads
  simp only [trimmed, List.dropLast_concat] at up
  change (if (front.rdropWhile fun piece => isVoid p.isAbsolute piece.2 piece.1).isEmpty then _ else
    some (ofPieces ((front.rdropWhile fun piece => isVoid p.isAbsolute piece.2 piece.1).map
      Prod.fst))) = _ at up
  rcases rdropWhile_cases (fun piece => isVoid p.isAbsolute piece.2 piece.1) front with
    empty | ⟨before, last, more, whole', cut', leads'⟩
  · rw [empty] at up
    cases up
    exact .inl rfl
  · rw [cut', if_neg (by simp)] at up
    cases up
    refine .inr ⟨before.map Prod.fst, last.1, more.map Prod.fst, name.1, rest.map Prod.fst, ?_, ?_,
      filledIn last leads', filledIn name leads⟩
    · rw [← List.zipIdx_map_fst 0 p.pieces, whole, whole']
      simp
    · simp

/-- A parent leads through names of its child, and the child through at least one more. -/
theorem names_parent (up : p.parent = some q) :
    q.names <+: p.names.dropLast ∧ (q.text = "" ∨ q.isAbsolute = p.isAbsolute) := by
  rcases pieces_parent up with top | ⟨front, last, more, name, rest, pieces, rfl, filled, named⟩
  · obtain ⟨text⟩ := q
    simp only at top
    subst top
    cases absolute : p.isAbsolute with
    | false => exact ⟨by rw [if_neg (by simp), show names ⟨""⟩ = [] by decide]; simp, .inl rfl⟩
    | true =>
      exact ⟨by rw [if_pos rfl, show names ⟨"/"⟩ = [] by decide]; simp, .inr (by decide)⟩
  have bare : ∀ piece ∈ front ++ [last], '/' ∉ piece.toList := by
    intro piece member
    have known : piece ∈ p.pieces := by
      rw [pieces]
      rcases List.mem_append.mp member with inside | inside
      · simp [inside]
      · simp [List.mem_singleton.mp inside]
    exact Text.not_mem_of_mem_split known
  have cut : (ofPieces (front ++ [last])).pieces = front ++ [last] :=
    Text.split_join (by simp) bare
  constructor
  · have whole : p.names = (front ++ [last]).filter (· ≠ "") ++
        (more.filter (· ≠ "") ++ name :: rest.filter (· ≠ "")) := by
      simp [names, pieces, filled, named]
    rw [names, cut, whole, List.dropLast_append_of_ne_nil (by simp)]
    exact List.prefix_append _ _
  · refine .inr ?_
    rw [Bool.eq_iff_iff, isAbsolute_iff, isAbsolute_iff, cut, pieces]
    rcases front with _ | ⟨first, _ | ⟨second, others⟩⟩
    · simp [filled]
    · simp
    · simp

theorem parent_empty : parent ⟨""⟩ = none := by decide

theorem mem_go {steps : Nat} (member : q ∈ ancestors.go steps p) :
    q = p ∨ q.names <+: p.names.dropLast ∧ (q.text = "" ∨ q.isAbsolute = p.isAbsolute) := by
  induction steps generalizing p with
  | zero => exact .inl (List.mem_singleton.mp member)
  | succ n ih =>
    simp only [ancestors.go, List.mem_cons] at member
    rcases member with rfl | member
    · exact .inl rfl
    split at member
    · rename_i up parent
      obtain ⟨names, absolute⟩ := names_parent parent
      rcases ih member with rfl | ⟨fewer, alike⟩
      · exact .inr ⟨names, absolute⟩
      · refine .inr ⟨fewer.trans ((List.dropLast_prefix _).trans names), ?_⟩
        rcases absolute with empty | same
        · have top : up = ⟨""⟩ := congrArg Path.mk empty
          have alone : ∀ steps, ancestors.go steps ⟨""⟩ = [⟨""⟩] := by
            intro steps
            cases steps <;> simp [ancestors.go, parent_empty]
          rw [top, alone, List.mem_singleton] at member
          exact .inl (by rw [member])
        · exact same ▸ alike
    · cases member

/-- The ancestors of a path lead through its names. -/
theorem mem_ancestors (member : q ∈ p.ancestors) :
    q.names <+: p.names ∧ (q.text = "" ∨ q.isAbsolute = p.isAbsolute) := by
  rcases mem_go member with rfl | ⟨names, absolute⟩
  · exact ⟨List.prefix_rfl, .inr rfl⟩
  · exact ⟨names.trans (List.dropLast_prefix _), absolute⟩

end Path

namespace Disk

variable {d d' : Disk} {p : Path} {place : Place}

theorem way_front {front names : List String} (shorter : front <+: names) (start : Place) :
    way start front <+: way start names := by
  obtain ⟨rest, rfl⟩ := shorter
  rw [way_append]
  exact List.prefix_append _ _

/-- Through proper names the way goes down. -/
theorem mem_way_proper {names : List String} {start : Place} (proper : ∀ name ∈ names, IsName name)
    (member : place ∈ way start names) :
    ∃ front, front ≠ [] ∧ front <+: names ∧ place = start ++ front := by
  induction names generalizing start with
  | nil => cases member
  | cons name rest ih =>
    have alone : ∀ n ∈ [name], IsName n := fun n inside =>
      proper n (by simp [List.mem_singleton.mp inside])
    have step : stepTo start name = start ++ [name] := foldl_stepTo_proper alone
    rw [way, step, List.mem_cons] at member
    rcases member with rfl | later
    · exact ⟨[name], by simp, ⟨rest, rfl⟩, rfl⟩
    · obtain ⟨front, _, ⟨more, whole⟩, rfl⟩ := ih (fun n inside => proper n (by simp [inside])) later
      exact ⟨name :: front, by simp, ⟨more, by simp [whole]⟩, by simp⟩

section

variable {entry : Entry} {content : ByteArray}

theorem folder_of_set {other : Place} (leaf : entry ≠ .folder)
    (folder : (d.set other entry).entryAt place = some .folder) :
    d.entryAt place = some .folder := by
  by_cases top : place = []
  · rw [top, entryAt_root]
  by_cases same : other = place
  · rw [same, entryAt_set_self d top] at folder
    exact absurd (Option.some.inj folder) leaf
  · rwa [entryAt_set_of_ne d same] at folder

/-- Writing a file makes no folder. -/
theorem folder_of_write (written : d.write p content = .ok d')
    (folder : d'.entryAt place = some .folder) : d.entryAt place = some .folder := by
  simp only [write] at written
  split at written
  · cases written
    exact folder_of_set (by simp) folder
  · split at written
    · cases written
    · cases written
      exact folder
  · cases written
  · cases written
  · cases written
    simp only [addFile, entryAt, entries_noteMode] at folder
    exact folder_of_set (by simp) folder
  · cases written

/-- Removing a file makes no folder. -/
theorem folder_of_remove (removed : d.remove p = .ok d') (folder : d'.entryAt place = some .folder) :
    d.entryAt place = some .folder := by
  simp only [remove] at removed
  split at removed
  · cases removed
  · rename_i other entry _ _
    split at removed
    · cases removed
    · cases removed
      by_cases top : place = []
      · rw [top, entryAt_root]
      by_cases same : other = place
      · rw [same, entryAt_drop_self d top] at folder
        cases folder
      · rwa [entryAt_drop_of_ne d same] at folder
  · cases removed
  · cases removed

end

theorem entryAt_makeFolder
    (clear : ∀ place ∈ way (d.startOf p) p.names, ∀ target, d.entryAt place ≠ some (.link target))
    (made : d.makeFolder p = .ok d') :
    d'.entryAt place = d.entryAt place ∨ place = d.placeOf p := by
  simp only [makeFolder] at made
  split at made
  · cases made
  · rename_i folder name found
    cases made
    obtain ⟨jump, follows⟩ := followLinks_jump d .self mostLinks
    obtain ⟨_, followed⟩ := findFrom_eq found
    rw [follows] at followed
    have here : folder ++ [name] = d.placeOf p := follow_place clear followed
    rw [here]
    by_cases same : place = d.placeOf p
    · exact .inr same
    · refine .inl ?_
      have filled : d.placeOf p ≠ [] := by simp [← here]
      simp only [addFolder, entryAt, entries_noteMode]
      exact (entryAt_set d filled).trans (if_neg same)
  · cases made

theorem entryAt_makeFoldersOf {ups : List Path} (sound : d.Sound)
    (clear : ∀ q ∈ ups, ∀ place ∈ way (d.startOf q) q.names, ∀ target,
      d.entryAt place ≠ some (.link target)) :
    (d.makeFoldersOf ups).2.entryAt place = d.entryAt place ∨
      ∃ q ∈ ups, q.text ≠ "" ∧ place = d.placeOf q := by
  induction ups with
  | nil => exact .inl rfl
  | cons p ups ih =>
    have above := ih fun q member => clear q (by simp [member])
    have change := changes_makeFoldersOf sound ups
    have here := clear p (by simp)
    have wider : (d.makeFoldersOf ups).2.entryAt place = d.entryAt place ∨
        ∃ q ∈ p :: ups, q.text ≠ "" ∧ place = d.placeOf q :=
      above.imp_right fun ⟨q, member, rest⟩ => ⟨q, by simp [member], rest⟩
    simp only [makeFoldersOf]
    split
    · exact .inl rfl
    rename_i filled
    split
    · rename_i made
      exact (entryAt_makeFolder here made).imp_right fun same => ⟨p, by simp, filled, same⟩
    · split
      · rename_i ends
        rwa [ends] at wider
      · rename_i after ends
        rw [ends] at wider change
        simp only at wider change
        split
        · rename_i made
          have later : ∀ place ∈ way (after.startOf p) p.names, ∀ target,
              after.entryAt place ≠ some (.link target) := by
            intro place member target linked
            rw [change.startOf] at member
            exact here place member target (change.links _ _ linked)
          rcases entryAt_makeFolder later made with same | same
          · rw [same]
            exact wider
          · rw [change.placeOf] at same
            exact .inr ⟨p, by simp, filled, same⟩
        · exact wider
    · exact .inl rfl

/-- Making a folder with those above it makes folders on the way to it. -/
theorem entryAt_makeFolders (sound : d.Sound)
    (clear : ∀ place ∈ way (d.startOf p) p.names, ∀ target, d.entryAt place ≠ some (.link target)) :
    (d.makeFolders p).2.entryAt place = d.entryAt place ∨ place ∈ way (d.startOf p) p.names := by
  have known : ∀ q ∈ p.ancestors, q.text ≠ "" →
      d.startOf q = d.startOf p ∧ q.names <+: p.names := by
    intro q member filled
    obtain ⟨names, absolute⟩ := Path.mem_ancestors member
    exact ⟨by rw [startOf, startOf, absolute.resolve_left filled], names⟩
  have bare : ∀ q ∈ p.ancestors, ∀ place ∈ way (d.startOf q) q.names, ∀ target,
      d.entryAt place ≠ some (.link target) := by
    intro q member passed inside
    by_cases empty : q.text = ""
    · have none : q.names = [] := by
        rw [show q = ⟨""⟩ from congrArg Path.mk empty]
        decide
      rw [none] at inside
      cases inside
    · obtain ⟨start, names⟩ := known q member empty
      rw [start] at inside
      exact clear passed ((way_front names _).subset inside)
  have either : (d.makeFolders p).2.entryAt place = d.entryAt place ∨
      ∃ q ∈ p.ancestors, q.text ≠ "" ∧ place = d.placeOf q := entryAt_makeFoldersOf sound bare
  rcases either with same | made
  · exact .inl same
  · obtain ⟨q, member, filled, rfl⟩ := made
    obtain ⟨start, names⟩ := known q member filled
    by_cases none : q.names = []
    · have here : d.placeOf q = d.startOf p := by rw [placeOf, none, start]; rfl
      have folder : d.entryAt (d.placeOf q) = some .folder := by
        rw [here]
        exact startOf_entry sound p
      exact .inl (by rw [folder]; exact (changes_makeFolders sound p).folders _ folder)
    · refine .inr ((way_front names _).subset ?_)
      rw [placeOf, start]
      exact foldl_mem_way none

end Disk
end LayerCache
