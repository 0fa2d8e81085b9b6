import LayerCache.Shell.Editor.Reader
import LayerCache.Shell.Editor.State

/-! Editing a text: every line in turn is put in the pattern space and goes through the script. -/
namespace LayerCache.Editor

/-- What follows an instruction. -/
inductive Next where
  /-- The instruction at a place in the script. -/
  | instruction (index : Nat)
  | endOfScript
  /-- The next line, with nothing put out. -/
  | nextLine
  /-- The script again with what is left in the pattern space. -/
  | sameLine
  | quit (code : Nat) (prints : Bool)
  /-- A pattern was left out, and there was none before. -/
  | noPattern

/-- The place behind the group that opens before a place. -/
def afterGroup (script : Array Instruction) : Nat → Nat → Nat → Nat
  | 0, _, i => i
  | fuel + 1, depth, i => match script[i]? with
    | none => i
    | some instruction => match instruction.action with
      | .group => afterGroup script fuel (depth + 1) (i + 1)
      | .endGroup => if depth = 0 then i + 1 else afterGroup script fuel (depth - 1) (i + 1)
      | _ => afterGroup script fuel depth (i + 1)

def target (script : Array Instruction) (name : String) : Next :=
  if name = "" then .endOfScript
  else match script.findIdx? fun i => match i.action with
      | .label other => other = name
      | _ => false with
    | some i => .instruction i
    | none => .endOfScript

namespace State

def perform (st : State) (s : Setup) (index : Nat) (i : Instruction) : State × Next :=
  let next := Next.instruction (index + 1)
  let on (st : State) : State × Next := (st, next)
  match i.action with
  | .group | .endGroup | .label _ => on st
  | .jump name => (st, target s.script name)
  | .jumpIf wanted name =>
    if st.substituted = wanted then ({ st with substituted := false }, target s.script name)
    else on { st with substituted := false }
  | .substitute sub => match st.substitute s sub with
    | some st => on st
    | none => (st, .noPattern)
  | .translate source images =>
    let swap (c : Char) := if source.contains c then (images[source.idxOf c]?).getD c else c
    on { st with space := st.space.map swap }
  | .insert text => on (if text.isEmpty then st else st.put s text.dropLast)
  | .append text => on { st with queue := text :: st.queue }
  | .change text =>
    let inside := !i.negated && st.isBegun index
    (if inside || text.isEmpty then st else st.put s text.dropLast, .nextLine)
  | .delete => (st, .nextLine)
  | .deleteLine =>
    if st.space.contains s.ending then
      ({ st with space := (st.space.dropWhile (· != s.ending)).drop 1 }, .sameLine)
    else (st, .nextLine)
  | .print => on (st.putSpace s)
  | .printLine => on (st.addLine s outputName)
  | .number => on (st.put s (toString st.count).toList)
  | .fileName => on (st.put s st.file.toList)
  | .describe width => on (st.put s (wrap (width.getD s.width) (st.space.map describeChar)))
  | .next => match st.lines with
    | [] => (st, .endOfScript)
    | _ =>
      let st := (if s.quiet then st else st.putSpace s).flush s
      match st.takeLine s with
      | some (line, st) => on { st with space := line }
      | none => on st
  | .nextToo => match (st.flush s).takeLine s with
    | some (line, st) => on { st with space := st.space ++ s.ending :: line }
    | none => (st, .endOfScript)
  | .hold => on { st with held := st.space, heldEnded := st.ended }
  | .holdToo =>
    on { st with held := st.held ++ s.ending :: st.space, heldEnded := st.ended }
  | .recall => on { st with space := st.held, ended := st.heldEnded }
  | .recallToo =>
    on { st with space := st.space ++ s.ending :: st.held, ended := st.heldEnded }
  | .exchange =>
    on { st with space := st.held, ended := st.heldEnded, held := st.space, heldEnded := st.ended }
  | .clear => on { st with space := [] }
  | .quit code prints => (st, .quit code prints)
  | .read file => on (
      if Program.inputNames.contains file then st
      else match st.effects.disk.read (Program.path file) with
        | .ok content => { st with queue := Octets.ofBytes content :: st.queue }
        | .error _ => st)
  | .readLine file =>
    let (line, st) := st.readLine file
    on (line.elim st fun line => { st with queue := line :: st.queue })
  | .write file => on (st.add s (st.nameOf file) st.space st.ended)
  | .writeLine file => on (st.addLine s (st.nameOf file))
  | .execute [] => on (st.executeSpace s)
  | .execute command =>
    let (text, st) := st.work (s.run command)
    on (st.addRaw s outputName text)

/-- Goes through the script from a place on. -/
def follow (s : Setup) : Nat → Nat → State → State × Next
  | 0, _, st => (st, .endOfScript)
  | fuel + 1, index, st => match s.script[index]? with
    | none => (st, .endOfScript)
    | some i => match st.selects index i.selection with
      | none => (st, .noPattern)
      | some (selected, st) =>
        if selected = i.negated then
          let skips := i.action matches .group
          follow s fuel
            (if skips then afterGroup s.script s.script.size 0 (index + 1) else index + 1) st
        else match st.perform s index i with
          | (st, .instruction j) => follow s fuel j st
          | (st, other) => (st, other)

/-- Jumps within a script for one line are bounded by this. -/
def mostSteps : Nat := 1000000

def finish (st : State) (s : Setup) (prints : Bool) : State :=
  (if prints && !s.quiet then st.putSpace s else st).flush s

/-- How a run over lines ended. -/
inductive Outcome where
  | done
  | quit (code : Nat)
  | noPattern
  deriving DecidableEq, Repr

/-- Line after line; `again` keeps the line that is there. -/
def edit (s : Setup) : Nat → Bool → State → State × Outcome
  | 0, _, st => (st, .done)
  | fuel + 1, again, st =>
    let start := if again then some st
      else (st.takeLine s).map fun (line, st) => { st with space := line }
    match start with
    | none => (st, .done)
    | some st => match follow s mostSteps 0 st with
      | (st, .quit code prints) => (if prints then st.finish s true else st, .quit code)
      | (st, .sameLine) => edit s fuel true (st.flush s)
      | (st, .nextLine) => edit s fuel false (st.flush s)
      | (st, .noPattern) => (st, .noPattern)
      | (st, _) => edit s fuel false (st.finish s true)

/-- Ranges from line zero have begun before the first line. -/
def beginEarly (st : State) (s : Setup) : State :=
  s.script.toList.zipIdx.foldl (fun st (i, index) => match i.selection with
    | .range (.line 0) _ => st.begin index none
    | _ => st) { st with begun := [] }

/-- Edits lines, with their numbers and ranges from the start and nothing held. -/
def editLines (st : State) (s : Setup) (lines : List (String × List Char)) : State × Outcome :=
  let size := lines.foldl (fun n (_, line) => n + line.length + 1) 2
  ({ st with lines, count := 0, held := [], heldEnded := true, readers := [] }.beginEarly s).edit s
    size false

end State

/-- Files that a script writes. -/
def outputs (script : List Instruction) : List String :=
  script.filterMap fun i => match i.action with
    | .write file | .writeLine file => some file
    | .substitute s => s.file
    | _ => none

def labels (script : List Instruction) : List String :=
  script.filterMap fun i => match i.action with
    | .label name => some name
    | _ => none

/-- A jump that leads nowhere. -/
def stray? (script : List Instruction) : Option String :=
  script.findSome? fun i => match i.action with
    | .jump name | .jumpIf _ name =>
      if name = "" || (labels script).contains name then none else some name
    | _ => none

/-- A part of a script: an argument, or the text of a file. -/
structure Part where
  file : Option String := none
  text : List Char

/-- Where something is wrong, as it is told. -/
def place (parts : List Part) (n : Nat) (position : Position) : String :=
  match parts[n]? with
  | none => ""
  | some part =>
    let argument (used : Nat) : String :=
      let number := ((parts.take (n + 1)).filter fun p => p.file.isNone).length
      "-e expression #" ++ toString number ++ ", char " ++ toString used ++ ": "
    let line (file : String) (left : Nat) : String :=
      let used := (part.text.take (part.text.length - left)).dropLast
      "file " ++ file ++ " line " ++ toString (used.count '\n' + 1) ++ ": "
    match position, part.file with
    | .nowhere, _ => ""
    | .opening _, none => argument 0
    | .left n, none => argument (part.text.length - n)
    | .left n, some file | .opening n, some file => line file n

def noPatternText : String := "no previous regular expression"

/-- Tells how a run ended. -/
def report (p : Process) (parts : List Part) : State.Outcome → Work Unit
  | .noPattern => do
    Program.complain p (place parts (parts.length - 1) (.opening 0) ++ noPatternText)
  | .quit code => if code = 0 then pure () else Program.finish code
  | .done => pure ()

/-- The lines of a file with its name, or why there are none. -/
def linesOf (ending : Char) (file : String) : Work (Except Fault (List (String × List Char))) := do
  return (← Program.readFile file).map fun text =>
    (Chars.wholeRecords ending text).map fun line => (file, line)

/-- The lines of files, up to one that is a folder. -/
def allLines (p : Process) (ending : Char) :
    List String → Work (List (List (String × List Char)) × Option (String × Fault))
  | [] => return ([], none)
  | file :: files => do match ← linesOf ending file with
    | .ok lines => do
      let (others, flaw) ← allLines p ending files
      return (lines :: others, flaw)
    | .error .notFound => do
      Program.complain p ("can't read " ++ file ++ ": " ++ Fault.notFound.reason) 2
      allLines p ending files
    | .error fault => return ([], some (file, fault))

/-- Edits texts one after the other, until one makes an end. -/
def editEach (s : Setup) (texts : List (List (String × List Char))) (st : State) :
    State × State.Outcome :=
  match texts with
  | [] => (st, .done)
  | lines :: rest => match st.editLines s lines with
    | (st, .done) => editEach s rest st
    | ended => ended

def edited (p : Process) (s : Setup) (parts : List Part) (separate : Bool) (files : List String) :
    Work Unit := do
  let (texts, flaw) ← allLines p s.ending files
  let texts := if separate then texts else [texts.flatten]
  let (st, outcome) := editEach s texts { effects := ← get, lines := [] }
  set st.effects
  if p.rereads && files.contains "-" then
    modify fun o => { o with input := (st.lines.map Prod.snd).flatten }
  report p parts outcome
  match flaw, outcome with
  | some (file, fault), .done =>
    Program.complain p ("read error on " ++ (if file = "-" then "stdin" else file) ++ ": " ++
      fault.reason) 4
  | _, _ => pure ()

/-- The name for what a file was before: an ending to its name, or a pattern for the name. -/
def backupName (suffix file : String) : String :=
  let base := (Program.path file).fileName.getD file
  if suffix.toList.contains '*' then
    let name := String.ofList (suffix.toList.flatMap fun c => if c = '*' then base.toList else [c])
    if name.toList.contains '/' then name
    else String.ofList (file.toList.take (file.length - base.length)) ++ name
  else file ++ suffix

/-- Edits files in their places. -/
def editedInPlace (p : Process) (s : Setup) (parts : List Part) (suffix : String) :
    List String → State → Work Unit
  | [], _ => pure ()
  | file :: files, st => do
    let name := if file = "-" then "couldn't edit -: not a regular file" else
      "couldn't edit " ++ file ++ ": not a regular file"
    match ← (if file = "-" then pure (.error .isFolder) else linesOf s.ending file) with
    | .error .notFound => do
      Program.complain p ("can't read " ++ file ++ ": " ++ Fault.notFound.reason) 2
      editedInPlace p s parts suffix files st
    | .error _ => Program.complain p name 4
    | .ok lines => do
      let st := { st with effects := ← get, gathered := some [], owing := [] }
      let (st, outcome) := st.editLines s lines
      set st.effects
      if suffix != "" then
        discard (Program.saveFile (backupName suffix file) (lines.map Prod.snd).flatten)
      discard (Program.saveFile file ((st.gathered.getD []).reverse.flatten))
      report p parts outcome
      if outcome = .done then editedInPlace p s parts suffix files st

def usage : Program.Usage where
  bare := "nErsuzb"
  valued := "efl"
  loose := "i"
  long := [("quiet", 'n'), ("silent", 'n'), ("regexp-extended", 'E'), ("expression=", 'e'),
    ("file=", 'f'), ("in-place?", 'i'), ("separate", 's'), ("null-data", 'z'),
    ("zero-terminated", 'z'), ("line-length=", 'l'), ("unbuffered", 'u'), ("binary", 'b'),
    ("posix", 'P'), ("debug", 'D'), ("sandbox", 'S'), ("follow-symlinks", 'L')]

def shortUsage : String :=
  "Usage: sed [OPTION]... \x7bscript-only-if-no-other-script\x7d [input-file]...\n"

/-- The parts of a script that options give. -/
def partsOf (p : Process) : List (Char × String) → Work (Option (List Part))
  | [] => return some []
  | ('e', text) :: rest => do return (← partsOf p rest).map (⟨none, text.toList⟩ :: ·)
  | ('f', file) :: rest => do match ← Program.readFile file with
    | .ok text =>
      return (← partsOf p rest).map (⟨some file, Chars.bareRecord '\n' text⟩ :: ·)
    | .error .isFolder => partsOf p rest
    | .error fault => do
      Program.complain p ("couldn't open file " ++ file ++ ": " ++ fault.reason) 4
      return none
  | _ :: rest => partsOf p rest

/-- Empties the files that will be written; or names one that cannot be. -/
def openOutputs (files : List String) : Work (Option (String × Fault)) := do
  let flaws ← files.filterMapM fun file => do
    if (Program.streamOf? file).isSome then return none
    match ← Program.saveFile file [] with
    | .ok () => return none
    | .error fault => return some (file, fault)
  return flaws.head?

/-- Runs a command of a shell for its output. -/
def runCommand (launch : Launch) (p : Process) (command : List Char) : Work (List Char) := do
  let o ← get
  let args := ["-c", String.ofList command]
  match launch { p with name := "sh", args, input := [], disk := o.disk } with
  | .error _ => return []
  | .ok effects =>
    let others := effects.writes.filter fun (n, _) => n != Program.output
    modify fun o => { o with writes := others ++ o.writes, disk := effects.disk }
    return effects.written Program.output

def sed (launch : Launch) (p : Process) : Work Unit :=
  match usage.split none p.args with
  | .error flaw => do
    Program.complain p flaw
    Program.write Program.errors shortUsage.toList
  | .ok o => do
    let some given ← partsOf p o.given | return
    let (parts, files) := match given, o.operands with
      | [], text :: files =>
        if o.hasAny "ef" then ([], text :: files) else ([Part.mk none text.toList], files)
      | parts, files => (parts, files)
    if parts.isEmpty && !o.hasAny "ef" then
      Program.write Program.errors shortUsage.toList
      Program.finish 1
    else
      let ending := if o.has 'z' then Char.ofNat 0 else '\n'
      match parse ⟨o.hasAny "Er", o.has 'z', o.has 'S'⟩ (parts.map Part.text) with
      | .error (n, flaw) =>
        let status := if flaw.position matches .nowhere then 4 else 1
        Program.complain p (place parts n flaw.position ++ flaw.text) status
      | .ok (script, isQuiet) => match stray? script with
        | some name =>
          Program.complain p ("can't find label for jump to \x60" ++ name ++ "'") 4
        | none => match ← openOutputs (outputs script) with
          | some (file, fault) =>
            Program.complain p ("couldn't open file " ++ file ++ ": " ++ fault.reason) 4
          | none =>
            let s : Setup := {
              script := script.toArray, quiet := o.has 'n' || isQuiet, ending,
              width := ((o.value? 'l').map fun n => (Text.number? n).getD 0).getD 70,
              run := runCommand launch p }
            match o.value? 'i' with
            | some suffix =>
              if files.isEmpty then Program.complain p "no input files" 4
              else editedInPlace p s parts suffix files { effects := ← get, lines := [] }
            | none => edited p s parts (o.has 's') (if files.isEmpty then ["-"] else files)

end LayerCache.Editor
