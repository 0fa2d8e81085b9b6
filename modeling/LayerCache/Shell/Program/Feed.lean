import LayerCache.Shell.Program.Options

/-! Two sorted files read side by side, where lines out of order are noticed as they are read. -/
namespace LayerCache.Program

/-- When lines out of order count: once a line was found in one file only, always, or never. -/
inductive Strictness where
  | unpaired
  | always
  | never
  deriving DecidableEq, Repr

/-- One of the two files. -/
structure Feed where
  rest : List (List Char)
  /-- The line read last and the one before it. -/
  last : Option (List Char) := none
  previous : Option (List Char) := none
  count : Nat := 0
  warned : Bool := false

/-- Which file. -/
inductive Side where
  | first
  | second
  deriving DecidableEq, Repr

def Side.number : Side → Nat
  | first => 1
  | second => 2

def Side.other : Side → Side
  | first => second
  | second => first

/-- What comes of reading: a row to be shown, or a warning. -/
inductive Finding where
  | row (cs : List Char)
  | warning (text : String)

/-- How far both files are read, and what came of it, the latest first. -/
structure Feeds where
  first : Feed
  second : Feed
  /-- A line was found in one file only. -/
  unpaired : Bool := false
  findings : List Finding := []

namespace Feeds

def at? (f : Feeds) : Side → Feed
  | .first => f.first
  | .second => f.second

def change (f : Feeds) (change : Feed → Feed) : Side → Feeds
  | .first => { f with first := change f.first }
  | .second => { f with second := change f.second }

def size (f : Feeds) : Nat := f.first.rest.length + f.second.rest.length

end Feeds

/-- Reading stops at a line out of order where that always counts. -/
abbrev Reading := ExceptT String (StateM Feeds)

/-- How lines are ordered, and how one out of order is told. -/
structure Sorting where
  strictness : Strictness
  isAfter : Side → List Char → List Char → Bool
  warning : Side → Nat → List Char → String

namespace Sorting

/-- Notes that of two lines one after the other the first belongs behind the second. -/
def check (s : Sorting) (side : Side) (previous line : List Char) : Reading Unit := do
  let feeds ← get
  let feed := feeds.at? side
  let counts := s.strictness = .always || (s.strictness = .unpaired && feeds.unpaired)
  if counts && !feed.warned && s.isAfter side previous line then
    let warning := s.warning side feed.count line
    if s.strictness = .always then throw warning
    modify fun f =>
      { f with findings := .warning warning :: f.findings }.change ({ · with warned := true }) side

/-- The next line of a file. -/
def next (s : Sorting) (side : Side) : Reading (Option (List Char)) := do
  let feed := (← get).at? side
  match feed.rest with
  | [] => return none
  | line :: rest =>
    modify fun f => f.change (fun feed =>
      ⟨rest, some line, feed.last, feed.count + 1, feed.warned⟩) side
    match feed.last with
    | some previous => s.check side previous line
    | none => pure ()
    return some line

end Sorting

def showRow (row : List Char) : Reading Unit :=
  modify fun f => { f with findings := .row row :: f.findings }

/-- Shows the rows that reading two files gave, and says which were out of order. -/
def showReading (p : Process) (reading : Reading Unit) (feeds : Feeds) : Work Unit := do
  let (outcome, feeds) := (reading.run feeds).run
  feeds.findings.reverse.forM fun finding => match finding with
    | .row row => print row
    | .warning text => complain p text
  match outcome with
  | .error flaw => complain p flaw
  | .ok () =>
    if feeds.first.warned || feeds.second.warned then complain p "input is not in sorted order"

end LayerCache.Program
