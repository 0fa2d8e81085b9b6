import LayerCache.Shell.Regex.Basic

/-! Scripts of a stream editor: instructions that apply to selected lines. -/
namespace LayerCache.Editor

structure Pattern where
  regex : Regex
  fold : Bool := false

/-- What picks single lines. A pattern left out is the one used last. -/
inductive Spot where
  | line (n : Nat)
  | last
  | every (first step : Nat)
  | matching (p : Option Pattern)

/-- Where a range that has begun ends. -/
inductive Stop where
  | at (s : Spot)
  | after (n : Nat)
  | atMultiple (n : Nat)

inductive Selection where
  | all
  | at (s : Spot)
  | range (first : Spot) (stop : Stop)

/-- A change of letters: of all, and of the first one. -/
structure Casing where
  all : Char → Char := id
  first : Option (Char → Char) := none

def Casing.apply (k : Casing) : List Char → List Char
  | [] => []
  | c :: cs => k.first.getD k.all c :: cs.map k.all

/-- A piece of a replacement: text, and behind it what a group took. -/
structure Piece where
  text : List Char := []
  group : Option Nat := none
  casing : Casing := {}

structure Substitution where
  pattern : Option Pattern := none
  pieces : List Piece
  /-- The match to begin with, and whether all later ones follow. -/
  nth : Nat := 1
  all : Bool := false
  prints : Bool := false
  /-- The line becomes what it says as a command; it may be printed before that. -/
  executes : Bool := false
  printsFirst : Bool := false
  file : Option String := none

inductive Action where
  | group
  | endGroup
  | label (name : String)
  | jump (name : String)
  /-- Jumps if something was, or was not, substituted since the last line or jump. -/
  | jumpIf (substituted : Bool) (name : String)
  | substitute (s : Substitution)
  | translate (source target : List Char)
  | insert (text : List Char)
  | append (text : List Char)
  | change (text : List Char)
  | delete
  | deleteLine
  | print
  | printLine
  | number
  | fileName
  | describe (width : Option Nat)
  | next
  | nextToo
  | hold
  | holdToo
  | recall
  | recallToo
  | exchange
  | clear
  | quit (code : Nat) (prints : Bool)
  | read (file : String)
  | readLine (file : String)
  | write (file : String)
  | writeLine (file : String)
  /-- Runs a command, or the line as one. -/
  | execute (command : List Char)

structure Instruction where
  selection : Selection
  negated : Bool
  action : Action

/-- Where something was noticed in a part of a script, by the number of characters left. -/
inductive Position where
  | left (n : Nat)
  /-- What began here was never ended. -/
  | opening (left : Nat)
  | nowhere

/-- What is wrong with a script. -/
structure Flaw where
  text : String
  position : Position

end LayerCache.Editor
