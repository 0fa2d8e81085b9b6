import LayerCache.Shell.Revision.Change

/-! The forms in which changes between two texts are written. -/
namespace LayerCache.Revision

/-- Two texts by lines, each with its line feed. -/
structure Texts where
  left : Array (List Char)
  right : Array (List Char)

namespace Texts

def slice (lines : Array (List Char)) (start stop : Nat) : List (List Char) :=
  (lines.extract start stop).toList

def gone (t : Texts) (c : Change) : List (List Char) := slice t.left c.left c.leftEnd

def come (t : Texts) (c : Change) : List (List Char) := slice t.right c.right c.rightEnd

end Texts

/-- How lines are written. -/
structure LineForm where
  /-- A tab stands before the line instead of a blank. -/
  leadingTab : Bool := false
  expandsTabs : Bool := false
  /-- Nothing stands before an empty line. -/
  bareEmpty : Bool := false

namespace LineForm

/-- A line that has no line feed says so. -/
def body (f : LineForm) (line : List Char) : List Char :=
  let shown := if f.expandsTabs then Leniency.expanded 0 line else line
  if line.getLast? = some '\n' then shown
  else shown ++ "\n\\ No newline at end of file\n".toList

/-- A line behind a mark and a blank. -/
def marked (f : LineForm) (mark : String) (line : List Char) : List Char :=
  mark.toList ++ (if f.bareEmpty && line = ['\n'] then []
    else [if f.leadingTab then '\t' else ' ']) ++ f.body line

/-- A line right behind a mark. -/
def tight (f : LineForm) (mark : Char) (line : List Char) : List Char :=
  mark :: (if f.leadingTab && line != ['\n'] then ['\t'] else []) ++ f.body line

end LineForm

def natural (n : Nat) : String := toString n

/-- The numbers of the first and the last line, or of the line before if there are none. -/
def range (start count : Nat) (between : String := ",") : String :=
  if 1 < count then natural (start + 1) ++ between ++ natural (start + count)
  else natural (start + count)

/-- What a change does: it takes lines out, puts lines in, or both. -/
def Change.letter (c : Change) : String :=
  if c.gone = 0 then "a" else if c.come = 0 then "d" else "c"

/-- The plain form. -/
def plainForm (f : LineForm) (t : Texts) (cs : List Change) : List Char :=
  cs.flatMap fun c =>
    (range c.left c.gone ++ c.letter ++ range c.right c.come ++ "\n").toList ++
      (t.gone c).flatMap (f.marked "<") ++
      (if c.letter = "c" then "---\n".toList else []) ++ (t.come c).flatMap (f.marked ">")

/-- Commands for a line editor, to be run from the end of a text on. A lone point would end what
is put in; it is put in as two, of which one is taken away. -/
def editForm (t : Texts) (cs : List Change) : List Char :=
  cs.reverse.flatMap fun c =>
    let body (inserting : Bool) (line : List Char) : List Char × Bool :=
      let start := if inserting then [] else "a\n".toList
      if line = ".\n".toList then (start ++ "..\n.\ns/.//\n".toList, false)
      else (start ++ line, true)
    let (text, inserting) := (t.come c).foldl (fun (text, inserting) line =>
      let (shown, inserting) := body inserting line
      (text ++ shown, inserting)) ([], true)
    (range c.left c.gone ++ c.letter ++ "\n").toList ++
      if c.come = 0 then [] else text ++ if inserting then ".\n".toList else []

/-- The same commands from the beginning on. -/
def forwardForm (t : Texts) (cs : List Change) : List Char :=
  cs.flatMap fun c =>
    (c.letter ++ range c.left c.gone " " ++ "\n").toList ++
      if c.come = 0 then [] else (t.come c).flatten ++ ".\n".toList

/-- Counts of lines taken out and put in. -/
def countForm (t : Texts) (cs : List Change) : List Char :=
  cs.flatMap fun c =>
    (if c.gone = 0 then []
      else ("d" ++ natural (c.left + 1) ++ " " ++ natural c.gone ++ "\n").toList) ++
    if c.come = 0 then []
    else ("a" ++ natural c.leftEnd ++ " " ++ natural c.come ++ "\n").toList ++ (t.come c).flatten

/-- A group of changes with the lines around it, each text from a line up to another. -/
structure Hunk where
  changes : List Change
  left : Nat
  leftEnd : Nat
  right : Nat
  rightEnd : Nat

def Hunk.ofChanges (context : Nat) (t : Texts) (cs : List Change) : Option Hunk := do
  let first ← cs.head?
  let last ← cs.getLast?
  return ⟨cs, first.left - context, min (last.leftEnd + context) t.left.size,
    first.right - context, min (last.rightEnd + context) t.right.size⟩

/-- The last line before a hunk that a pattern finds, as its heading. -/
def heading (isHeading : List Char → Bool) (t : Texts) (h : Hunk) : List Char :=
  match (Texts.slice t.left 0 h.left).reverse.find? isHeading with
  | none => []
  | some line =>
    let text := (line.takeWhile (· != '\n')).dropWhile isSpace
    ' ' :: Leniency.dropTrailing (text.take 40)

/-- First line and count; a count of one is left out. -/
def countedRange (start stop : Nat) : String :=
  if stop = start + 1 then natural stop
  else natural (if stop = start then start else start + 1) ++ "," ++ natural (stop - start)

/-- The lines of a hunk in one sequence. -/
def unifiedLines (f : LineForm) (t : Texts) (stop : Nat) : Nat → List Change → List Char
  | i, [] => (Texts.slice t.left i stop).flatMap context
  | i, c :: rest =>
    (Texts.slice t.left i c.left).flatMap context ++ (t.gone c).flatMap (f.tight '-') ++
      (t.come c).flatMap (f.tight '+') ++ unifiedLines f t stop c.leftEnd rest
where
  context (line : List Char) : List Char :=
    (if f.bareEmpty && line = ['\n'] then [] else [if f.leadingTab then '\t' else ' ']) ++
      f.body line

def unifiedForm (f : LineForm) (isHeading : List Char → Bool) (t : Texts) (hunks : List Hunk) :
    List Char :=
  hunks.flatMap fun h =>
    ("@@ -" ++ countedRange h.left h.leftEnd ++ " +" ++ countedRange h.right h.rightEnd ++
      " @@").toList ++ heading isHeading t h ++ ['\n'] ++
    unifiedLines f t h.leftEnd h.left h.changes

/-- One of the two texts of a hunk, its changed lines marked. -/
def sideLines (f : LineForm) (lines : Array (List Char)) (start stop : Nat)
    (parts : List (Nat × Nat × String)) : List Char :=
  ((List.range (stop - start)).flatMap fun i =>
    let n := start + i
    let mark := match parts.find? fun (low, high, _) => low ≤ n && n < high with
      | some (_, _, mark) => mark
      | none => " "
    f.marked mark ((lines[n]?).getD []))

def contextForm (f : LineForm) (isHeading : List Char → Bool) (t : Texts) (hunks : List Hunk) :
    List Char :=
  hunks.flatMap fun h =>
    let gone := h.changes.map fun c => (c.left, c.leftEnd, if c.come = 0 then "-" else "!")
    let come := h.changes.map fun c => (c.right, c.rightEnd, if c.gone = 0 then "+" else "!")
    "***************".toList ++ heading isHeading t h ++
      ("\n*** " ++ range h.left (h.leftEnd - h.left) ++ " ****\n").toList ++
      (if h.changes.any (0 < ·.gone) then sideLines f t.left h.left h.leftEnd gone else []) ++
      ("--- " ++ range h.right (h.rightEnd - h.right) ++ " ----\n").toList ++
      if h.changes.any (0 < ·.come) then sideLines f t.right h.right h.rightEnd come else []

/-- Two columns: how wide each half is, and where the second begins. -/
structure Columns where
  half : Nat
  second : Nat
  expandsTabs : Bool
  hidesCommon : Bool
  onlyLeft : Bool

namespace Columns

/-- Halves are as wide as the gap of three allows, and the second begins at a tab stop. -/
def ofWidth (width : Nat) (expandsTabs hidesCommon onlyLeft : Bool) : Columns :=
  let t := if expandsTabs then 1 else 8
  let gap := t + 3
  let place := width / 2 + gap / 2 + (if width % 2 = 1 && gap % 2 = 1 then 1 else 0)
  let place := place - place % t
  let half := min (place - 3) (width - place)
  ⟨half, if half = 0 then width else place, expandsTabs, hidesCommon, onlyLeft⟩

/-- Blanks and tabs that lead from one column to another. -/
def lead (c : Columns) : Nat → Nat → Nat → List Char
  | 0, _, _ => []
  | fuel + 1, start, stop =>
    let next := start + 8 - start % 8
    if stop ≤ start then []
    else if !c.expandsTabs && next ≤ stop then '\t' :: lead c fuel next stop
    else ' ' :: lead c fuel (start + 1) stop

/-- As much of a line as fits in a half, and the column it ends in. -/
def halfLine (c : Columns) : Nat → Nat → List Char → List Char × Nat
  | _, shown, [] => ([], shown)
  | _, shown, '\n' :: _ => ([], shown)
  | column, shown, '\t' :: rest =>
    let next := column + 8 - column % 8
    let (now, shown) := if column = shown then
        if c.expandsTabs then
          let stop := min next c.half
          (List.replicate (stop - shown) ' ', max shown stop)
        else if next < c.half then (['\t'], next)
        else ([], shown)
      else ([], shown)
    let (text, shown) := halfLine c next shown rest
    (now ++ text, shown)
  | column, shown, d :: rest =>
    if column < c.half then
      let (text, shown) := halfLine c (column + 1) (column + 1) rest
      (d :: text, shown)
    else halfLine c (column + 1) shown rest

def isEnded (line : List Char) : Bool := line.getLast? = some '\n'

/-- Two lines beside each other, with a sign between them. -/
def row (c : Columns) (left : Option (List Char)) (sign : Char) (right : Option (List Char)) :
    List Char :=
  let (shown, column) := left.elim ([], 0) (c.halfLine 0 0)
  let ended := left.any isEnded
  let (gap, column) := if sign = ' ' then ([], column)
    else
      let place := (c.half + c.second - 1) / 2
      let sign := if sign = '|' && ended != right.any isEnded then if ended then '/' else '\\'
        else sign
      (c.lead (place + 1) column place ++ [sign], max column place + 1)
  let other := match right with
    | none => []
    | some line =>
      if line.head? = some '\n' then []
      else c.lead (c.second + 1) column c.second ++ (c.halfLine 0 0 line).1
  shown ++ gap ++ other ++ if ended || right.any isEnded then ['\n'] else []

/-- Lines that are the same on both sides. -/
def common (c : Columns) (t : Texts) (left leftEnd right rightEnd : Nat) : List Char :=
  if c.hidesCommon then []
  else
    let lefts := Texts.slice t.left left leftEnd
    let rights := Texts.slice t.right right rightEnd
    (lefts.zip rights).flatMap fun (a, b) =>
      if c.onlyLeft then c.row (some a) '(' none else c.row (some a) ' ' (some b)

def change (c : Columns) (t : Texts) (d : Change) : List Char :=
  let gone := t.gone d
  let come := t.come d
  let both := min gone.length come.length
  ((gone.zip come).flatMap fun (a, b) => c.row (some a) '|' (some b)) ++
    ((come.drop both).flatMap fun b => c.row none '>' (some b)) ++
    (gone.drop both).flatMap fun a => c.row (some a) '<' none

/-- Both texts beside each other. -/
def form (c : Columns) (t : Texts) : Nat → Nat → List Change → List Char
  | i, j, [] => c.common t i t.left.size j t.right.size
  | i, j, d :: rest =>
    c.common t i d.left j d.right ++ c.change t d ++ form c t d.leftEnd d.rightEnd rest

end Columns
end LayerCache.Revision
