/-! Texts as sequences of pieces: cutting at a separator, joining with one, and lines. -/
namespace LayerCache.Chars

/-- Cuts at every separator; a text without one is a single piece. -/
def split (sep : Char) : List Char → List (List Char)
  | [] => [[]]
  | c :: cs =>
    if c = sep then [] :: split sep cs
    else match split sep cs with
      | [] => [[c]]
      | piece :: pieces => (c :: piece) :: pieces

def join (sep : Char) : List (List Char) → List Char
  | [] => []
  | [piece] => piece
  | piece :: pieces => piece ++ sep :: join sep pieces

theorem split_ne_nil (sep : Char) (cs : List Char) : split sep cs ≠ [] := by
  cases cs with
  | nil => simp [split]
  | cons c cs => simp only [split]; split <;> (try split) <;> simp

theorem join_cons (sep : Char) (piece : List Char) {pieces : List (List Char)} (h : pieces ≠ []) :
    join sep (piece :: pieces) = piece ++ sep :: join sep pieces := by
  cases pieces with
  | nil => exact absurd rfl h
  | cons next rest => rfl

/-- Cutting loses nothing but the separators. -/
theorem join_split (sep : Char) (cs : List Char) : join sep (split sep cs) = cs := by
  induction cs with
  | nil => rfl
  | cons c cs ih =>
    simp only [split]
    split
    · rename_i h
      rw [join_cons sep [] (split_ne_nil sep cs), ih, h]
      rfl
    · match hs : split sep cs with
      | [] => exact absurd hs (split_ne_nil sep cs)
      | [piece] => simp_all [join]
      | piece :: next :: pieces => simp_all [join]

/-- A carriage return at the end belongs to the line feed that was cut off. -/
def dropReturn (line : List Char) : List Char :=
  match line.reverse with
  | '\r' :: rest => rest.reverse
  | _ => line

/-- The last piece had no line feed: it is kept as it is, and only if it is not empty. -/
def endLines : List (List Char) → List (List Char)
  | [] => []
  | [last] => if last.isEmpty then [] else [last]
  | line :: rest => dropReturn line :: endLines rest

def lines (cs : List Char) : List (List Char) := endLines (split '\n' cs)

/-- Pieces that each end in a given character; the last one may have none. -/
def wholeRecords (ending : Char) (cs : List Char) : List (List Char) := go [] [] cs
where
  go (record : List Char) (done : List (List Char)) : List Char → List (List Char)
    | [] => (if record.isEmpty then done else record.reverse :: done).reverse
    | c :: rest =>
      if c = ending then go [] ((c :: record).reverse :: done) rest else go (c :: record) done rest

/-- A record without its ending. -/
def bareRecord (ending : Char) (record : List Char) : List Char :=
  if record.getLast? = some ending then record.dropLast else record

def bareRecords (ending : Char) (cs : List Char) : List (List Char) :=
  (wholeRecords ending cs).map (bareRecord ending)

/-- Lines with their line feeds; the last one may have none. -/
def wholeLines (cs : List Char) : List (List Char) := wholeRecords '\n' cs

/-- A line without its line feed. -/
def bare (line : List Char) : List Char := bareRecord '\n' line

def bareLines (cs : List Char) : List (List Char) := (wholeLines cs).map bare

/-- The part before the last separator and the part after it. -/
def cutLast (sep : Char) (cs : List Char) : Option (List Char × List Char) :=
  let tail := (cs.reverse.takeWhile (· ≠ sep)).reverse
  match cs.reverse.dropWhile (· ≠ sep) with
  | [] => none
  | _ :: head => some (head.reverse, tail)

end LayerCache.Chars

namespace LayerCache.Text

def split (sep : Char) (s : String) : List String := (Chars.split sep s.toList).map String.ofList

def join (sep : String) : List String → String
  | [] => ""
  | [piece] => piece
  | piece :: pieces => piece ++ sep ++ join sep pieces

def lines (s : String) : List String := (Chars.lines s.toList).map String.ofList

def cutLast (sep : Char) (s : String) : Option (String × String) :=
  (Chars.cutLast sep s.toList).map fun (head, tail) => (String.ofList head, String.ofList tail)

/-- Backslashes become slashes. -/
def slashes (s : String) : String :=
  String.ofList (s.toList.map fun c => if c = '\\' then '/' else c)

def startsWith (s start : String) : Bool := start.toList.isPrefixOf s.toList

def endsWith (s ending : String) : Bool := ending.toList.isSuffixOf s.toList

/-- What follows a given start. -/
def afterStart? (start s : String) : Option String :=
  if startsWith s start then some (String.ofList (s.toList.drop start.toList.length)) else none

end LayerCache.Text
