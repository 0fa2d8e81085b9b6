import LayerCache.Disk.Attributes
import LayerCache.Shell.Program.Facts
import LayerCache.Shell.Regex.Glob

/-! What files are looked for: tests on an entry, actions on it, and how they are put together. -/
namespace LayerCache.Finding

open Program

/-- A number that is met exactly, or passed in one direction. -/
inductive Amount where
  | exactly (n : Int)
  | above (n : Int)
  | below (n : Int)
  deriving DecidableEq, Repr

def Amount.holds : Amount → Int → Bool
  | exactly n, m => m = n
  | above n, m => n < m
  | below n, m => m < n

/-- How the bits of an access are compared. -/
inductive Bits where
  | exactly
  | all
  | any
  deriving DecidableEq, Repr

/-- A stretch of time: the moment it begins at and how many seconds it takes, or all before or
after a moment. -/
inductive Window where
  | within (start length : Int)
  | before (stop : Int)
  | after (start : Int)
  deriving DecidableEq, Repr

inductive Test where
  | always (answer : Bool)
  | name (r : Regex) (fold : Bool)
  | path (r : Regex) (fold : Bool)
  | target (r : Regex) (fold : Bool)
  | kinds (letters : List Char)
  /-- What a link leads to; or the link itself, where links are followed. -/
  | otherKinds (letters : List Char)
  | isEmpty
  | size (unit : Nat) (a : Amount)
  | access (bits : Bits) (mode : Mode) (folderMode : Mode)
  | newer (than : List Int)
  | later (than : Moment)
  | changed (w : Window)
  | names (a : Amount)
  | serial (a : Amount)
  | owner (a : Amount)
  | sameAs (place : Place)
  | mayRun

inductive Action where
  /-- The path with an ending behind it, to the output or to a file. -/
  | print (file : Option String) (ending : Char)
  | form (file : Option String) (form : List Char)
  | list (file : Option String)
  /-- A command for every entry, started in its folder or not, perhaps only if it is allowed. -/
  | command (args : List String) (inFolder asks : Bool)
  /-- A command for many entries at once. -/
  | batch (index : Nat) (args : List String) (inFolder : Bool)
  | delete
  | prune
  | quit

inductive Expression where
  | test (t : Test)
  | action (a : Action)
  | not (e : Expression)
  | both (a b : Expression)
  | either (a b : Expression)
  /-- Both, but only the second one decides. -/
  | sequence (a b : Expression)

namespace Expression

/-- Whether an action tells by itself what was found. -/
def tells : Expression → Bool
  | test _ => false
  | action .prune | action .quit => false
  | action _ => true
  | not e => e.tells
  | both a b | either a b | sequence a b => a.tells || b.tells

/-- The commands that are started for many entries at once. -/
def batches : Expression → List (Nat × List String)
  | test _ => []
  | action (.batch index args _) => [(index, args)]
  | action _ => []
  | not e => e.batches
  | both a b | either a b | sequence a b => a.batches ++ b.batches

end Expression

/-- Which links are followed. -/
inductive Following where
  | never
  | atStart
  | always
  deriving DecidableEq, Repr

/-- An entry that was come to. -/
structure Visit where
  /-- The path that the search began at. -/
  start : String
  path : String
  depth : Nat
  place : Place
  entry : Entry
  follows : Bool

namespace Visit

/-- The last name of the path. -/
def name (v : Visit) : String :=
  let last := bareEnd v.path
  if last = "" && v.path != "" then "/" else last

/-- The path up to the last name. -/
def folder (v : Visit) : String :=
  let body := withoutSlashes v.path.toList
  match Chars.cutLast '/' body with
  | none => if body.isEmpty && v.path != "" then "" else "."
  | some (front, _) => String.ofList front

/-- The path from where the search began. -/
def inner (v : Visit) : String :=
  let rest := v.path.toList.drop v.start.length
  String.ofList (if rest.head? = some '/' then rest.drop 1 else rest)

def facts (v : Visit) (d : Disk) : Facts.Subject := ⟨v.path, v.place, v.entry, d⟩

def letterOf (d : Disk) (place : Place) (entry : Entry) : Char :=
  Facts.letter ⟨"", place, entry, d⟩

def kindLetter (d : Disk) (place : Place) (entry : Entry) : Char :=
  if letterOf d place entry = '-' then 'f' else letterOf d place entry

def kind (v : Visit) (d : Disk) : Char := kindLetter d v.place v.entry

/-- The kind that is found with links followed, or not followed where they are otherwise. -/
def otherKind (v : Visit) (d : Disk) : Char :=
  match d.look (!v.follows) (Program.path v.path) with
  | .ok (place, entry) => kindLetter d place entry
  | .error _ => v.kind d

def target (v : Visit) : Option String := match v.entry with
  | .link target => some (Octets.ofText target.text)
  | _ => none

end Visit

def Window.holds (w : Window) (m : Moment) : Bool :=
  match w with
  | within start length =>
    (start < m.seconds || (start = m.seconds && 0 < m.nanos)) &&
      (m.seconds < start + length || (m.seconds = start + length && m.nanos = 0))
  | before stop => m.seconds < stop
  | after start => start < m.seconds || (start = m.seconds && 0 < m.nanos)

def Moment.isAfter (m than : Moment) : Bool :=
  than.seconds < m.seconds || (than.seconds = m.seconds && than.nanos < m.nanos)

def Bits.hold (bits : Bits) (wanted mode : Mode) : Bool :=
  match bits with
  | exactly => mode = wanted
  | all => mode &&& wanted = wanted
  | any => wanted = 0 || mode &&& wanted != 0

def Test.holds (d : Disk) (v : Visit) : Test → Bool
  | always answer => answer
  | name r fold => Glob.fits r fold v.name.toList
  | path r fold => Glob.fits r fold v.path.toList
  | target r fold => v.target.any fun text => Glob.fits r fold text.toList
  | kinds letters => letters.contains (v.kind d)
  | otherKinds letters => letters.contains (v.otherKind d)
  | isEmpty => match v.entry with
    | .folder => (d.below v.place).isEmpty
    | .file _ content => content.size = 0 && v.kind d = 'f'
    | _ => false
  | size unit a => a.holds ((v.entry.size + unit - 1) / unit : Nat)
  | access bits mode folderMode =>
    bits.hold (if v.entry.isFolder then folderMode else mode) (d.modeOf v.place v.entry)
  | newer than => Disk.isNewer (d.ageOf v.place v.entry) than
  | later than => Moment.isAfter (momentOf d v.place) than
  | changed w => w.holds (momentOf d v.place)
  | names a => a.holds (d.namesOf v.place v.entry)
  | serial a => a.holds (Facts.serial (v.facts d))
  | owner a => a.holds 0
  | sameAs place => d.areSame v.place place
  | mayRun => v.entry.isFolder || d.modeOf v.place v.entry &&& 0o111 != 0

end LayerCache.Finding
