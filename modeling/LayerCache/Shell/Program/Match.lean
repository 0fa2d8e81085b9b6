import LayerCache.Shell.Regex.Reader
import LayerCache.Shell.Regex.Wide

/-! Patterns that select lines, and the parts of a line that they match. -/
namespace LayerCache.Program

structure Search where
  patterns : List Regex
  fold : Bool := false
  /-- Lines without a match are selected. -/
  inverted : Bool := false
  /-- A match begins and ends where a word may. -/
  words : Bool := false
  /-- Of several matches at a place the preferred one counts, not the longest. -/
  preferred : Bool := false

namespace Search

def subject (s : Search) (line : List Char) : Subject := ⟨line.toArray, s.fold⟩

/-- The longest match at a place that is made of whole words. -/
def wordsAt (t : Subject) (r : Regex) (i : Nat) : Option Regex.Match :=
  if t.wordBefore i then none
  else ((Regex.reach t r [i]).reverse.filter fun j => !t.wordAt j).findSome? fun j =>
    (Regex.walk t r i [] fun k groups => if k = j then some groups else none).map (⟨i, j, ·⟩)

def find? (s : Search) (t : Subject) (start : Nat) (r : Regex) : Option Regex.Match :=
  if s.preferred then Regex.findPreferred? t r start
  else if s.words then
    (List.range' start (t.chars.size + 1 - start)).findSome? (wordsAt t r)
  else Regex.find? t r start

def finds (s : Search) (line : List Char) : Bool :=
  s.patterns.any fun r => (s.find? (s.subject line) 0 r).isSome

def selects (s : Search) (line : List Char) : Bool := s.finds line != s.inverted

/-- The leftmost match of any pattern from a place on, the longest of those. -/
def first? (s : Search) (t : Subject) (start : Nat) : Option Regex.Match :=
  (s.patterns.filterMap (s.find? t start)).foldl (fun best m => match best with
    | none => some m
    | some b =>
      if m.start < b.start || (m.start = b.start && b.stop < m.stop) then some m else best) none

/-- Where the parts of a line that match begin and end, none of them empty. -/
def parts (s : Search) (t : Subject) : Nat → Nat → List (Nat × Nat)
  | 0, _ => []
  | fuel + 1, start => match s.first? t start with
    | none => []
    | some m =>
      if m.stop ≤ m.start then parts s t fuel (max start m.stop + 1)
      else (m.start, m.stop) :: parts s t fuel m.stop

/-- The languages patterns are written in. -/
inductive Language where
  | basic
  | extended
  | fixed
  | wide
  deriving DecidableEq, Repr

/-- One pattern; it may have to match whole words or a whole line. -/
def pattern (l : Language) (fold words whole : Bool) (text : List Char) : Except String Regex := do
  let r ← match l with
    | .basic => (Regex.parse .grep text).mapError Regex.Flaw.message
    | .extended => (Regex.parse .grepExtended text).mapError Regex.Flaw.message
    | .fixed => .ok (Regex.literal text)
    | .wide => Regex.Wide.parse text fold
  let word : Regex := .one ⟨Regex.wordRanges, false⟩
  if whole then return .both .atStart (.both r .atEnd)
  else if words && l = .wide then
    return .both (.look false true word) (.both r (.look true true word))
  else return r

end Search
end LayerCache.Program
