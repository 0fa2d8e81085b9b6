import LayerCache.Shell.Revision.Marks
import LayerCache.Text.Lines

/-! What changes between two texts: runs of lines taken out and put in, and groups of them that are
shown together. -/
namespace LayerCache.Revision

/-- Which differences between lines do not count. -/
structure Leniency where
  /-- Case. -/
  case : Bool := false
  /-- All white space. -/
  space : Bool := false
  /-- How much white space there is. -/
  width : Bool := false
  /-- White space at the end. -/
  trailing : Bool := false
  /-- Whether white space is tabs. -/
  tabs : Bool := false
  /-- Returns at the end. -/
  returns : Bool := false

def isSpace (c : Char) : Bool := c = ' ' || ('\t' ≤ c && c ≤ '\r')

namespace Leniency

def dropTrailing (line : List Char) : List Char := (line.reverse.dropWhile isSpace).reverse

/-- Every run of white space as one blank. -/
def evened : Bool → List Char → List Char
  | _, [] => []
  | inRun, c :: rest =>
    if isSpace c then if inRun then evened true rest else ' ' :: evened true rest
    else c :: evened false rest

/-- Tabs as blanks. -/
def expanded : Nat → List Char → List Char
  | _, [] => []
  | column, c :: rest =>
    if c = '\t' then
      List.replicate (8 - column % 8) ' ' ++ expanded (column + (8 - column % 8)) rest
    else c :: expanded (column + 1) rest

/-- What of a line counts. -/
def key (l : Leniency) (line : List Char) : List Char :=
  let line := if l.case then line.map Char.toLower else line
  if l.space then line.filter (!isSpace ·)
  else if l.width then evened false (dropTrailing line)
  else
    let line := if l.tabs then expanded 0 line else line
    if l.trailing then dropTrailing line else line

/-- A text without returns before its line feeds, if they do not count. -/
def prepared (l : Leniency) (text : List Char) : List Char :=
  if l.returns then go text else text
where
  go : List Char → List Char
    | '\r' :: '\n' :: rest => '\n' :: go rest
    | c :: rest => c :: go rest
    | [] => []

end Leniency

/-- Lines taken out of the left text, and lines put in their place, both from some line on. -/
structure Change where
  left : Nat
  gone : Nat
  right : Nat
  come : Nat
  /-- It only counts together with others. -/
  ignored : Bool := false
  deriving DecidableEq, Repr

namespace Change

def leftEnd (c : Change) : Nat := c.left + c.gone

def rightEnd (c : Change) : Nat := c.right + c.come

end Change

/-- The changes that marks tell. -/
def changesOf (marks : Marks × Marks) (sizes : Nat × Nat) : Nat → Nat → Nat → List Change
  | 0, _, _ => []
  | fuel + 1, i, j =>
    if sizes.1 ≤ i && sizes.2 ≤ j then []
    else
      let leftEnd := marks.1.free i
      let rightEnd := marks.2.free j
      let rest := changesOf marks sizes fuel (leftEnd + 1) (rightEnd + 1)
      if leftEnd = i && rightEnd = j then rest
      else ⟨i, leftEnd - i, j, rightEnd - j, false⟩ :: rest

/-- How many lines two texts begin with alike. -/
def sharedStart : List (List Char) → List (List Char) → Nat
  | a :: as, b :: bs => if a = b then sharedStart as bs + 1 else 0
  | _, _ => 0

/-- The changes from one text to another. Lines at both ends that are the same are left out, but
for some lines of context that may take part. -/
def changes (l : Leniency) (context : Nat) (left right : List (List Char)) : List Change :=
  let start := sharedStart left right
  let leftRest := left.drop start
  let rightRest := right.drop start
  let stop := sharedStart leftRest.reverse rightRest.reverse
  let start := start - context
  let keys (lines : List (List Char)) : Array (List Char) :=
    (((lines.drop start).take (lines.length - (stop - context) - start)).map l.key).toArray
  let lefts := keys left
  let rights := keys right
  (changesOf (mark lefts rights) (lefts.size, rights.size) (lefts.size + rights.size + 1) 0
    0).map fun c => { c with left := c.left + start, right := c.right + start }

/-- Changes that are close to each other, as groups. -/
def grouped (context : Nat) : List Change → List (List Change)
  | [] => []
  | c :: rest => match grouped context rest with
    | (next :: group) :: groups =>
      let limit := if next.ignored then context else 2 * context + 1
      if next.left - c.leftEnd < limit then (c :: next :: group) :: groups
      else [c] :: (next :: group) :: groups
    | _ => [[c]]

end LayerCache.Revision
