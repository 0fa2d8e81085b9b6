import LayerCache.Disk.Links
import LayerCache.Shell.Program.Quoting
import LayerCache.Text.Ascii
import LayerCache.Text.Utf8

/-! The bindings that a program is told, in the order in which it is told them. -/
namespace LayerCache

structure Bindings where
  pairs : List (String × String)
  deriving DecidableEq, Repr

namespace Bindings

def empty : Bindings := ⟨[]⟩

instance : EmptyCollection Bindings := ⟨empty⟩

def find? (b : Bindings) (name : String) : Option String := b.pairs.lookup name

/-- A name that is bound already keeps its place. -/
def insert (b : Bindings) (name value : String) : Bindings :=
  if (b.find? name).isSome then
    ⟨b.pairs.map fun (n, v) => (n, if n = name then value else v)⟩
  else ⟨b.pairs ++ [(name, value)]⟩

def erase (b : Bindings) (name : String) : Bindings := ⟨b.pairs.filter fun (n, _) => n != name⟩

end Bindings
end LayerCache

/-! Programs: what one is started with, and what it leaves. Their texts are bytes, each seen as a
character. A small program is written as work on its effects. -/
namespace LayerCache

/-- How a program ended: with a status of its own, or by a signal. -/
inductive Ending where
  | code (n : Nat)
  | killed (signal : Nat)
  deriving DecidableEq, Repr

/-- The status that another program is told. -/
def Ending.status : Ending → Nat
  | code n => n
  | killed signal => 128 + signal

structure Process where
  name : String
  args : List String
  bindings : Bindings := .empty
  input : List Char
  disk : Disk
  /-- The input is a file, in which a program can go back to the end of what it used. -/
  rereads : Bool := false
  /-- By how much others go first. -/
  niceness : Int := 0
  /-- Streams that cannot be used, and why. -/
  broken : List (Nat × Fault) := []

structure Effects where
  ending : Ending := .code 0
  /-- What was written to numbered streams, the latest first. -/
  writes : List (Nat × List Char) := []
  /-- What is left of the input. -/
  input : List Char
  disk : Disk
  /-- Why the input cannot be read. -/
  trouble : Option Fault := none

namespace Effects

/-- All that was written to a stream. -/
def written (o : Effects) (stream : Nat) : List Char :=
  (o.writes.reverse.map fun (n, text) => if n = stream then text else []).flatten

end Effects

/-- Starts a program by the name of a process. -/
abbrev Launch := Process → Except Fault Effects

abbrev Work := StateM Effects

namespace Program

def naturals (n : Nat) : List Char := (toString n).toList

def output : Nat := 1

def errors : Nat := 2

def write (stream : Nat) (text : List Char) : Work Unit :=
  modify fun o => if text.isEmpty then o else { o with writes := (stream, text) :: o.writes }

def print (text : List Char) : Work Unit := write output text

def printLine (line : List Char) : Work Unit := print (line ++ ['\n'])

def finish (status : Nat) : Work Unit := modify fun o => { o with ending := .code status }

/-- Says what went wrong and goes on. -/
def complain (p : Process) (text : String) (status : Nat := 1) : Work Unit := do
  write errors (p.name ++ ": " ++ text ++ "\n").toList
  finish status

def onDisk (change : Disk → Except Fault Disk) : Work (Except Fault Unit) := do
  match change (← get).disk with
  | .ok disk =>
    modify fun o => { o with disk }
    return .ok ()
  | .error fault => return .error fault

def path (name : String) : Path := ⟨Octets.toText name⟩

def inputNames : List String := ["-", "/dev/stdin", "/dev/fd/0", "/proc/self/fd/0"]

def readFile (name : String) : Work (Except Fault (List Char)) := do
  if inputNames.contains name then match (← get).trouble with
    | none => return .ok (← modifyGet fun o => (o.input, { o with input := [] }))
    | some fault => return .error fault
  else match (← get).disk.read (path name) with
    | .ok content => return .ok (Octets.ofBytes content)
    | .error fault => return .error fault

/-- Takes all of the input; what is wrong with it is told behind some words. -/
def takeInput (p : Process) (words : String) : Work (Option (List Char)) := do
  match ← readFile "-" with
  | .ok text => return some text
  | .error fault =>
    complain p (words ++ ": " ++ fault.reason)
    return none

/-- The streams that have names of their own. -/
def streamOf? (name : String) : Option Nat :=
  [("/dev/stdout", output), ("/dev/stderr", errors), ("/dev/fd/1", output), ("/dev/fd/2", errors),
    ("/proc/self/fd/1", output), ("/proc/self/fd/2", errors)].lookup name

def saveFile (name : String) (text : List Char) : Work (Except Fault Unit) :=
  match streamOf? name with
  | some stream => do
    write stream text
    return .ok ()
  | none => onDisk (·.save (path name) (Octets.toBytes text))

/-- Goes through the files named, or the input if none is. -/
def eachFile (p : Process) (files : List String) (wording : String → String → String)
    (work : String → List Char → Work Unit) : Work Unit :=
  (if files.isEmpty then ["-"] else files).forM fun file => do
    match ← readFile file with
    | .ok text => work file text
    | .error fault => complain p (wording file fault.reason)

/-- A program that was given no input to read finds so once more when it ends. -/
def noteClosed (p : Process) (files : List String) (text : String) (status : Nat := 1) :
    Work Unit := do
  if (files.isEmpty || files.contains "-") && (← get).trouble = some .badDescriptor then
    complain p (text ++ ": " ++ Fault.badDescriptor.reason) status

def because (file reason : String) : String := fileName file ++ ": " ++ reason

/-- Does something whose output waits until it is done, unlike what it says of errors. -/
def errorsFirst (work : Work Unit) : Work Unit := do
  let before := (← get).writes
  modify fun o => { o with writes := [] }
  work
  modify fun o =>
    let (said, shown) := o.writes.partition fun (stream, _) => stream = errors
    { o with writes := shown ++ said ++ before }

/-- Shows what comes of all files as of one text, and gives that. What is wrong with a file is told behind what came
of those before it. -/
def showJoined (p : Process) (files : List String) (apply : List Char → List Char)
    (prepare : List Char → List Char := id) : Work (List Char) := do
  let (text, count) ← (if files.isEmpty then ["-"] else files).foldlM (fun (text, count) file => do
    match ← readFile file with
    | .ok more => return (text ++ prepare more, count)
    | .error fault =>
      let shown := apply text
      print (shown.drop count)
      complain p (because file fault.reason)
      return (text, shown.length)) ([], 0)
  print ((apply text).drop count)
  return text

/-- All the files in one text. -/
def gather (p : Process) (files : List String) (wording : String → String → String := because) :
    Work (List Char) := do
  let texts ← (if files.isEmpty then ["-"] else files).mapM fun file => do
    match ← readFile file with
    | .ok text => return text
    | .error fault =>
      complain p (wording file fault.reason)
      return []
  return texts.flatten

/-- The words of a text; a zero character hides the rest of one. -/
def wordsOf (text : List Char) : List String :=
  let pieces := Chars.split ' ' (text.map fun c => if c = '\n' || c = '\t' then ' ' else c)
  (pieces.filter (!·.isEmpty)).map fun piece =>
    String.ofList (piece.takeWhile (· != Char.ofNat 0))

def run (p : Process) (work : Work Unit) : Effects :=
  (work.run { input := p.input, disk := p.disk, trouble := p.broken.lookup 0 }).2

end Program
end LayerCache
