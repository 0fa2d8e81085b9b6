import LayerCache.Disk.Walk
import LayerCache.Shell.Program.Basic
import LayerCache.Shell.Program.Locate
import LayerCache.Shell.Sum

/-! What a running script knows: variables, streams, and where it is. -/
namespace LayerCache.Shell

/-- What a stream is connected to. -/
inductive Handle where
  /-- The stream of a number that the script was started with. -/
  | caller (stream : Nat)
  /-- A pipe, by how many lie below it. -/
  | pipe (level : Nat)
  /-- An input, by how many lie below it. -/
  | input (level : Nat)
  | file (serial : Nat)
  | folder
  | sink
  /-- Takes nothing. -/
  | full
  deriving DecidableEq

/-- What an input reads from. -/
inductive Feed where
  | text (rest : List Char)
  /-- The part of a file that is not used up. Once the file is gone, it reads as it was before. -/
  | file (serial used : Nat) (before : ByteArray)
  /-- The rest of a text that a reader may go back in. -/
  | rereadable (rest : List Char)

namespace Feed

def rest (d : Disk) : Feed → List Char
  | text rest | rereadable rest => rest
  | file serial used before =>
    (Octets.ofBytes ((d.contentOf serial).getD before)).drop used

/-- Leaves only so much as is told. -/
def leave (d : Disk) (left : List Char) : Feed → Feed
  | text _ => .text left
  | rereadable _ => .rereadable left
  | file serial used before =>
    .file serial (used + ((Feed.file serial used before).rest d).length - left.length) before

def rereads : Feed → Bool
  | text _ => false
  | _ => true

end Feed

/-- Why the next command is not run. -/
inductive Jump where
  | exit
  /-- Something went wrong, which ends the script unless a command keeps it to itself. -/
  | failed
  | killed (signal : Nat)
  | fromFunction
  | outOf (loops : Nat)
  | toNext (loops : Nat)
  deriving DecidableEq, Repr

structure Variable where
  value : Option String
  exported : Bool := false
  fixed : Bool := false
  deriving DecidableEq, Repr

/-- A command whose place is known: how many folders are looked into before it. -/
structure Tracked where
  name : String
  index : Nat
  /-- Its place has to be looked for once more. -/
  isStale : Bool := false
  deriving DecidableEq, Repr

structure State where
  disk : Disk
  /-- What was written to the streams of the caller, the latest first. -/
  said : List (Nat × List Char) := []
  /-- What waits in pipes, in pieces, the latest first. -/
  pipes : List (List (List Char)) := []
  inputs : List Feed
  handles : Dict Nat Handle
  vars : Dict String Variable
  functions : Dict String Script := .empty
  name : String
  /-- The command of the shell's own that is under way. -/
  doing : Option String := none
  arguments : List String := []
  /-- The argument that holds the next option letter, and the place of that within it. -/
  nextLetter : Nat × Option Nat := (1, none)
  line : Nat := 1
  status : Nat := 0
  options : List Char := []
  /-- Texts to run on signals and at the end, by their names. -/
  traps : Dict String String := .empty
  /-- A failure is looked at by something around it. -/
  tested : Bool := false
  loops : Nat := 0
  calls : Nat := 0
  /-- Variables that functions under way have hidden, the innermost function first. -/
  hidden : List (List (String × Option Variable)) := []
  /-- The status of the last script that was run for its output. -/
  answered : Option Nat := none
  /-- Texts that stand for names of commands, in the order they were set. -/
  aliases : List (String × String) := []
  /-- Commands whose places are remembered. -/
  tracked : List Tracked := []
  /-- Something was written to a stream that takes nothing. -/
  lost : Bool := false
  /-- The statuses of commands in the background, the latest first. -/
  behind : List Nat := []
  jump : Option Jump := none

abbrev Act := StateM State

namespace State

/-- The number scripts know their own process by. -/
def number : String := "1"

def value? (st : State) (name : String) : Option String :=
  let all := if st.arguments.isEmpty then none else some (Text.join " " st.arguments)
  match name with
  | "@" | "*" => all
  | "#" => some (toString st.arguments.length)
  | "?" => some (toString st.status)
  | "$" => some number
  | "!" => if st.behind.isEmpty then none else some (toString (st.behind.length + 1))
  | "-" => some (String.ofList ("ubaCEVvxsnmiIfe".toList.filter st.options.contains))
  | "0" => some st.name
  | _ => match Text.number? name with
    | some n => st.arguments[n - 1]?
    | none => (st.vars.find? name).bind Variable.value

def separators (st : State) : List Char :=
  ((st.vars.find? "IFS").bind Variable.value).elim [' ', '\t', '\n'] String.toList

def has (st : State) (option : Char) : Bool := st.options.contains option

/-- Variables are told in rows, in which their first letters and the sums of all decide. -/
def letterSum (name : String) : Nat :=
  let letters := name.toUTF8.toList.map UInt8.toNat
  letters.foldl (· + ·) (letters.headD 0 * 16)

def rowOf (name : String) : Nat := letterSum name % 39

/-- The variables that programs are told. -/
def bindings (st : State) : Bindings :=
  ⟨(st.vars.pairs.filterMap fun (name, v) =>
    if v.exported then v.value.map (name, ·) else none).mergeSort fun a b =>
      rowOf a.1 ≤ rowOf b.1⟩

def connect (st : State) (stream : Nat) (handle : Handle) : State :=
  { st with handles := st.handles.insert stream handle }

def send (st : State) (stream : Nat) (text : List Char) : State :=
  if text.isEmpty then st
  else match st.handles.find? stream with
    | some (.caller n) => { st with said := (n, text) :: st.said }
    | some (.pipe level) => { st with pipes := st.pipes.modify level (text :: ·) }
    | some (.file serial) => match st.disk.contentOf serial with
      | some content =>
        { st with disk := st.disk.rewrite serial (content ++ Octets.toBytes text) }
      | none => st
    | some .sink => st
    | _ => { st with lost := st.lost || stream = 1 }

def feed? (st : State) : Option (Nat × Feed) := do
  match ← st.handles.find? 0 with
  | .input level => return (level, ← st.inputs[level]?)
  | _ => none

def rereads (st : State) : Bool := st.feed?.any fun (_, f) => f.rereads

def input (st : State) : List Char := st.feed?.elim [] fun (_, f) => f.rest st.disk

/-- Leaves only so much of the input as is told. -/
def setInput (st : State) (left : List Char) : State :=
  match st.feed? with
  | some (level, f) => { st with inputs := st.inputs.set level (f.leave st.disk left) }
  | none => st

/-- What is wrong with the streams that programs are given. -/
def broken (st : State) : List (Nat × Fault) :=
  (match st.handles.find? 0 with
    | some (.input _) | some .sink => []
    | some .folder => [(0, .isFolder)]
    | _ => [(0, .badDescriptor)]) ++
  [1, 2].filterMap fun n => match st.handles.find? n with
    | some .full => some (n, .noSpace)
    | some (.input _) | some .folder | none => some (n, .badDescriptor)
    | _ => none

/-- A process in the surroundings of the script. -/
def process (st : State) (name : String) (args : List String) : Process :=
  { name, args, bindings := st.bindings, input := st.input, disk := st.disk
    rereads := st.rereads, broken := st.broken }

/-- Takes over a disk that a process has left, but not where it was nor its mask. -/
def takeDisk (st : State) (d : Disk) : State :=
  { st with disk := { d with here := st.disk.here, mask := st.disk.mask } }

/-- Where commands are found is told by a variable. -/
def changed (st : State) (name : String) : State :=
  if name = "PATH" then { st with tracked := [] } else st

def hide (st : State) (name : String) (v : Option Variable) : State :=
  { st.changed name with vars := match v with
    | some v => st.vars.insert name v
    | none => st.vars.erase name }

end State

/-- How messages begin. -/
def lead : Act String := do
  let st ← get
  return st.name ++ ": " ++ toString st.line ++ st.doing.elim "" (": " ++ ·)

/-- Does something under the name of a command, or of none. -/
def doing (command : Option String) (work : Act Unit) : Act Unit := do
  let before := (← get).doing
  modify fun st => { st with doing := command }
  work
  modify fun st => { st with doing := before }

def write (stream : Nat) (text : List Char) : Act Unit := modify (·.send stream text)

def finish (status : Nat) : Act Unit := modify fun st => { st with status }

def jump (j : Jump) : Act Unit := modify fun st => { st with jump := some j }

def complain (text : String) (status : Nat) : Act Unit := do
  write 2 ((← lead) ++ ": " ++ text ++ "\n").toList
  finish status

/-- Says what is wrong and does no more. -/
def giveUp (text : String) : Act Unit := do
  complain text 2
  jump .failed

/-- Does something whose failure goes no further. -/
def containing (work : Act Unit) : Act Unit := do
  work
  modify fun st => { st with jump := if st.jump = some .failed then none else st.jump }

def hasJumped : Act Bool := return (← get).jump.isSome

def setVariable (name value : String) (exported : Bool := false) : Act Unit := do
  let old := ((← get).vars.find? name).getD { value := none }
  if old.fixed then giveUp (name ++ ": is read only")
  else
    let new : Variable := ⟨some value, old.exported || exported || (← get).has 'a', false⟩
    modify fun st => { st.changed name with vars := st.vars.insert name new }
    if name = "OPTIND" then
      modify fun st => { st with nextLetter := (max 1 ((Text.number? value).getD 1), none) }

end LayerCache.Shell

/-! Commands that a shell remembers the places of, once it has looked for them. -/
namespace LayerCache.Shell

def folders (st : State) : String :=
  ((st.vars.find? "PATH").bind Variable.value).getD Program.usualFolders

namespace Tracked

def inFolder (folder name : String) : String := if folder = "" then name else folder ++ "/" ++ name

def file (st : State) (t : Tracked) : String :=
  inFolder (((Text.split ':' (folders st))[t.index]?).getD "") t.name

/-- The folder in which a command is found, by how many are before it. One that was known keeps its
place, if folders are named from the root. -/
def search? (st : State) (name : String) (known : Option Nat) : Option Nat :=
  ((Text.split ':' (folders st)).zipIdx.find? fun (folder, i) =>
    let file := inFolder folder name
    match known with
    | some index =>
      if Text.startsWith folder "/" && i ≤ index then i = index else isThere file
    | none => isThere file).map Prod.snd
where
  isThere (file : String) : Bool :=
    Program.startableAt st.disk (Program.path file) matches .ok _

/-- Remembers where a command is. -/
def note (name : String) : Act Unit := modify fun st =>
  let others := st.tracked.filter (·.name != name)
  if name.toList.contains '/' then st
  else match st.tracked.find? (·.name = name) with
    | some t =>
      if !t.isStale then st
      else match search? st name (some t.index) with
        | some index => { st with tracked := st.tracked.map fun t =>
            if t.name = name then { t with index, isStale := false } else t }
        | none => { st with tracked := others }
    | none => match search? st name none with
      | some index => { st with tracked := st.tracked ++ [{ name, index }] }
      | none => st

def forget (name : String) : Act Unit := modify fun st =>
  { st with tracked := st.tracked.filter (·.name != name) }

/-- In another folder, names that do not start at the root mean something else. -/
def doubt : Act Unit := modify fun st =>
  { st with tracked := st.tracked.map fun t => { t with isStale := true } }

/-- All are told in rows, as variables are. -/
def row (t : Tracked) : Nat := State.letterSum t.name % 31

def list : Act Unit := do
  let st ← get
  (st.tracked.mergeSort fun a b => row a ≤ row b).forM fun t =>
    write 1 (file st t ++ (if t.isStale then "*" else "") ++ "\n").toList

end Tracked

end LayerCache.Shell
