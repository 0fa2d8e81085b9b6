import LayerCache.Disk.Walk
import LayerCache.Shell.Regex.Glob
import LayerCache.Text.Utf8

/-! From characters to arguments: values are cut into fields, and fields that are patterns become
the names of the files they match. -/
namespace LayerCache.Shell

/-- Quoted characters stand for themselves; plain ones may be part of a pattern; those of a value
may also be cut at. -/
inductive Kind where
  | quoted
  | plain
  | value
  deriving DecidableEq, Repr

structure Glyph where
  char : Char
  kind : Kind
  deriving DecidableEq, Repr

/-- What a word comes to. Quotes make a field even if nothing stands in them. -/
inductive Mark where
  | glyph (g : Glyph)
  | opened
  | cut
  deriving DecidableEq, Repr

abbrev Field := List Glyph

/-- Fields under way, the last character and the last field first. -/
structure Draft where
  glyphs : List Glyph := []
  present : Bool := false
  /-- A blank has just ended a field, and the separator behind it belongs to it. -/
  afterBlank : Bool := false
  done : List Field := []

namespace Draft

def emit (d : Draft) : Draft := { done := d.glyphs.reverse :: d.done }

def isBlank (c : Char) : Bool := c = ' ' || c = '\t' || c = '\n'

def add (separators : List Char) (d : Draft) : Mark → Draft
  | .opened => { d with present := true, afterBlank := false }
  | .cut => if d.present then d.emit else d
  | .glyph g =>
    if g.kind != .value || !separators.contains g.char then
      { d with glyphs := g :: d.glyphs, present := true, afterBlank := false }
    else if isBlank g.char then if d.present then { d.emit with afterBlank := true } else d
    else if d.afterBlank then { d with afterBlank := false }
    else d.emit

end Draft

/-- Cuts marks into fields at separators; blanks among these count once. -/
def split (separators : List Char) (marks : List Mark) : List Field :=
  let d := marks.foldl (Draft.add separators) {}
  (if d.present then d.emit else d).done.reverse

/-- Marks as one text, with blanks where fields are cut. -/
def joined (marks : List Mark) : List Glyph :=
  marks.filterMap fun
    | .glyph g => some g
    | .cut => some ⟨' ', .plain⟩
    | .opened => none

namespace Field

def chars (f : Field) : List Char := f.map Glyph.char

def text (f : Field) : String := String.ofList f.chars

def isPattern (f : Field) : Bool := f.any fun g => g.kind != .quoted && "*?[".toList.contains g.char

/-- What a field matches as a pattern. -/
def regex (f : Field) : Regex := Glob.regex (f.map fun g => (g.char, g.kind = .quoted))

def fits (f : Field) (text : List Char) : Bool := Glob.fits f.regex false text

/-- A text without the part at its beginning or end that matches. -/
def strip (f : Field) (fromEnd longest : Bool) (text : List Char) : List Char :=
  let t : Subject := ⟨text.toArray, false⟩
  if fromEnd then
    let starts := (List.range (text.length + 1)).filter fun i =>
      (Regex.reach t f.regex [i]).contains text.length
    text.take ((if longest then starts.head? else starts.getLast?).getD text.length)
  else
    let ends := Regex.reach t f.regex [0]
    text.drop ((if longest then ends.getLast? else ends.head?).getD 0)

/-- A name with a dot in front is matched only by a pattern with one. -/
def matchesName (f : Field) (name : String) : Bool :=
  f.fits name.toList && (!Text.startsWith name "." || (f.head?.any fun g => g.char = '.'))

def segments : Field → List Field
  | [] => [[]]
  | g :: rest => match segments rest with
    | [] => [[g]]
    | first :: others => if g.char = '/' then [] :: first :: others else (g :: first) :: others

/-- The names that segments stand for behind a beginning. -/
def complete (d : Disk) (start : String) : List Field → List String
  | [] => if d.find .self ⟨Octets.toText start⟩ matches .ok (.taken _ _) then [start] else []
  | segment :: rest =>
    let next (name : String) := start ++ name ++ (if rest.isEmpty then "" else "/")
    if segment.isPattern then
      match d.list ⟨if start = "" then "." else Octets.toText start⟩ with
      | .error _ => []
      | .ok names =>
        ((([".", ".."] ++ names).map Octets.ofText).filter segment.matchesName).flatMap fun name =>
          complete d (next name) rest
    else complete d (next segment.text) rest

/-- A pattern that matches nothing stays as it is. -/
def names (d : Disk) (f : Field) : List String :=
  if f.isPattern then match complete d "" f.segments with
    | [] => [f.text]
    | found => found.mergeSort (· ≤ ·)
  else [f.text]

end Field
end LayerCache.Shell
