import LayerCache.Shell.Program.Locate
import LayerCache.Shell.Rules.Format
import LayerCache.Shell.Rules.Pattern
import LayerCache.Shell.Rules.Table
import LayerCache.Shell.Rules.Token
import LayerCache.Text.Lines

/-! How a text is divided: into records, and these into fields. -/
namespace LayerCache.Rules

/-- What stands between the parts of a text. -/
inductive Divider where
  | blanks
  | char (c : Char)
  | nothing
  | pattern (r : Regex)

namespace Divider

def ofText : List Char → Except Pattern.Flaw Divider
  | [] => .ok .nothing
  | [' '] => .ok .blanks
  | [c] => .ok (.char c)
  | cs => (Pattern.parse cs).map .pattern

def isBlank (c : Char) : Bool := c = ' ' || ('\t' ≤ c && c ≤ '\r')

def words : Nat → List Char → List (List Char)
  | 0, _ => []
  | fuel + 1, cs =>
    let rest := cs.dropWhile isBlank
    let word := rest.takeWhile (!isBlank ·)
    if word.isEmpty then [] else word :: words fuel (rest.drop word.length)

/-- The first match from a place on that takes something. -/
def firstMatch (t : Subject) (r : Regex) : Nat → Nat → Option Regex.Match
  | 0, _ => none
  | fuel + 1, start => match Regex.find? t r start with
    | some m => if m.start = m.stop then firstMatch t r fuel (m.start + 1) else some m
    | none => none

def pieces (t : Subject) (r : Regex) : Nat → Nat → List (List Char)
  | 0, start => [t.slice start t.chars.size]
  | fuel + 1, start => match firstMatch t r (t.chars.size + 1) start with
    | some m => t.slice start m.start :: pieces t r fuel m.stop
    | none => [t.slice start t.chars.size]

/-- The parts of a text; without text there are none. -/
def split (d : Divider) (cs : List Char) : List (List Char) :=
  if cs.isEmpty then []
  else match d with
    | .blanks => words cs.length cs
    | .char c => Chars.split c cs
    | .nothing => cs.map fun c => [c]
    | .pattern r => pieces { chars := cs.toArray } r cs.length 0

/-- Paragraphs have empty lines between them. -/
def takeParagraph : List Char → List Char × List Char
  | [] => ([], [])
  | '\n' :: '\n' :: rest => ([], rest.dropWhile (· = '\n'))
  | ['\n'] => ([], [])
  | c :: rest =>
    let (taken, rest) := takeParagraph rest
    (c :: taken, rest)

/-- The first record of a text, and what follows it. -/
def takeRecord? (d : Divider) (cs : List Char) : Option (List Char × List Char) :=
  let upTo (c : Char) : List Char × List Char :=
    let record := cs.takeWhile (· != c)
    (record, cs.drop (record.length + 1))
  if cs.isEmpty then none
  else match d with
    | .blanks => some (upTo ' ')
    | .char c => some (upTo c)
    | .nothing =>
      let rest := cs.dropWhile (· = '\n')
      if rest.isEmpty then none else some (takeParagraph rest)
    | .pattern r =>
      let t : Subject := { chars := cs.toArray }
      match firstMatch t r (cs.length + 1) 0 with
      | some m => some (t.slice 0 m.start, t.slice m.stop cs.length)
      | none => some (cs, [])

end Divider
end LayerCache.Rules

/-! What is known while a script of rules runs: names, the record, and what is read and written. -/
namespace LayerCache.Rules

/-- Why no further rule is tried. -/
inductive Halt where
  | exit
  | failed (message : String)
  /-- Calls lay too deep within each other. -/
  | crashed

/-- What a name stands for: a value, a table, or nothing so far. -/
structure Slot where
  value : Value := .unset
  table : Option Nat := none
  deriving Inhabited

/-- A place that output goes to, and what waits to go there. -/
structure Outlet where
  name : String
  isCommand : Bool := false
  /-- What waits, in pieces, the latest first. -/
  pending : List (List Char) := []

/-- A text that is read line by line. -/
structure Inlet where
  name : String
  isCommand : Bool
  rest : List Char
  status : Nat := 0

structure Machine where
  effects : Effects
  globals : Dict String Slot := .empty
  /-- The names of a routine, while one is under way. -/
  locals : Option (Dict String Slot) := none
  /-- Values that wait for others, and those that routines under way were given. -/
  held : Nat := 0
  tables : Array Table := #[]
  record : List Char := []
  fields : Array Value := #[]
  /-- Those used last come first. The usual output is always among them. -/
  outlets : List Outlet := [{ name := "/dev/stdout" }]
  inlets : List Inlet := []
  /-- What is left of the file that records are taken from. -/
  input : Option (List Char) := none
  /-- The operand that is looked at next. -/
  operand : Nat := 1
  opened : Bool := false
  /-- Rules between whose patterns the records are. -/
  between : List Nat := []
  /-- The status of the script, which has none if it crashed. -/
  status : Option Nat := some 0
  seed : Value := .unset
  chance : UInt64 := 0

/-- What a script is run with. -/
structure Setting where
  process : Process
  launch : Launch
  script : Script

abbrev Act := ExceptT Halt (StateM Machine)

namespace Act

def fail {α : Type} (message : String) : Act α := throw (.failed message)

def slot (n : String) : Act Slot := do
  let m ← get
  match m.locals.bind fun d => d.find? n with
  | some s => return s
  | none => return (m.globals.find? n).getD {}

def setSlot (n : String) (s : Slot) : Act Unit :=
  modify fun m => match m.locals with
    | some d =>
      if d.contains n then { m with locals := some (d.insert n s) }
      else { m with globals := m.globals.insert n s }
    | none => { m with globals := m.globals.insert n s }

def global (n : String) : Act Value := return ((← get).globals.find? n).elim .unset Slot.value

def setGlobal (n : String) (value : Value) : Act Unit := modify fun m =>
  let s := (m.globals.find? n).getD {}
  { m with globals := m.globals.insert n { s with value } }

/-- The format of numbers within texts. -/
def form : Act (List Char) := return (← global "CONVFMT").toList []

def asText (v : Value) : Act (List Char) := match v with
  | .number x => return Format.number x (← form)
  | v => return v.toList []

def textOf (n : String) : Act (List Char) := do asText (← global n)

def atRecord (message : String) : Act String := do
  let file ← textOf "FILENAME"
  let count ← textOf "FNR"
  let all ← textOf "NR"
  return "run time error: " ++ message ++ "\n\tFILENAME=\"" ++ String.ofList file ++ "\" FNR=" ++
    String.ofList count ++ " NR=" ++ String.ofList all

/-- Stops the script at a mistake, and says at which record. -/
def mistake {α : Type} (message : String) : Act α := do fail (← atRecord message)

/-- No more values than this are held at a time. -/
def mostHeld : Nat := 1006

/-- Does something while so many more values are held. -/
def holding (count : Nat) (work : Act α) : Act α := do
  let before := (← get).held
  modify fun m => { m with held := before + count }
  let x ← work
  modify fun m => { m with held := before }
  return x

/-- The table that a name stands for. -/
def tableOf (n : String) : Act Nat := do
  let s ← slot n
  match s.table with
  | some i => return i
  | none =>
    let i := (← get).tables.size
    modify fun m => { m with tables := m.tables.push {} }
    setSlot n { s with table := some i }
    return i

def withTable {α : Type} (i : Nat) (work : Table → α × Table) : Act α :=
  modifyGet fun m =>
    let (x, t) := work ((m.tables[i]?).getD {})
    (x, { m with tables := m.tables.setIfInBounds i t })

def changeTable (i : Nat) (work : Table → Table) : Act Unit := withTable i fun t => ((), work t)

def patternOf (cs : List Char) : Act Regex :=
  match Pattern.parse cs with
  | .ok r => return r
  | .error flaw => mistake ("regular expression compile failed (" ++ flaw.message ++ ")\n" ++
      String.ofList cs)

def dividerOf (cs : List Char) : Act Divider :=
  match Divider.ofText cs with
  | .ok d => return d
  | .error _ => do return .pattern (← patternOf cs)

/-! The record and its fields. -/

def setFields (parts : List (List Char)) : Act Unit := do
  modify fun m => { m with fields := (parts.map Value.given).toArray }
  setGlobal "NF" (.ofNat parts.length)

def setRecord (cs : List Char) : Act Unit := do
  modify fun m => { m with record := cs }
  let d ← dividerOf (← textOf "FS")
  setFields (d.split cs)

/-- Puts the record together from its fields. -/
def joinFields : Act Unit := do
  let separator ← textOf "OFS"
  let parts ← (← get).fields.toList.mapM asText
  modify fun m => { m with record := List.intercalate separator parts }

def resize (n : Nat) : Act Unit := do
  modify fun m => { m with
    fields := m.fields.extract 0 n ++ Array.replicate (n - m.fields.size) (.given []) }
  setGlobal "NF" (.ofNat n)

def field (i : Nat) : Act Value := do
  let m ← get
  if i = 0 then return .given m.record
  else return ((m.fields[i - 1]?).getD (.given []))

def setField (i : Nat) (value : Value) : Act Unit := do
  if i = 0 then setRecord (← asText value)
  else
    if (← get).fields.size < i then resize i
    modify fun m => { m with fields := m.fields.setIfInBounds (i - 1) value }
    joinFields

def setVariable (n : String) (value : Value) : Act Unit := do
  let s ← slot n
  setSlot n { s with value }
  if n = "NF" && ((← get).locals.bind fun d => d.find? n).isNone then
    let count := Figure.clamp value.toFloat
    if count < 0 then mistake "negative value assigned to NF"
    resize count.toNat
    setSlot n { s with value }
    joinFields
  if n = "FS" || n = "RS" then
    let _ ← dividerOf (← asText value)

/-! Output. -/

/-- Brings the outlet of a name to the front; a new one is opened first. -/
def useOutlet (name : String) (start : Act Outlet) : Act Unit := do
  let m ← get
  match m.outlets.find? (·.name = name) with
  | some o => set { m with outlets := o :: m.outlets.filter (·.name != name) }
  | none =>
    let o ← start
    modify fun m => { m with outlets := o :: m.outlets }

/-- Puts a text behind what waits at an outlet. -/
def put (name : String) (text : List Char) : Act Unit := modify fun m => { m with
  outlets := m.outlets.map fun o => if o.name = name then { o with pending := text :: o.pending }
    else o }

def usual : String := "/dev/stdout"

def inEffects (work : Work α) : Act α := modifyGet fun m =>
  let (x, effects) := work.run m.effects
  (x, { m with effects })

/-- Runs a command of the shell. What it prints goes the usual way, or is given back. -/
def runCommand (s : Setting) (command : String) (input : Option (List Char)) (captures : Bool) :
    Act (List Char × Ending) := modifyGet fun m =>
  let p := s.process
  let mine := m.effects
  let p : Process := { p with
    name := Program.shellName
    args := ["-c", command]
    input := input.getD mine.input
    rereads := p.rereads && input.isNone
    disk := mine.disk }
  match s.launch p with
  | .error _ => (([], .code 127), m)
  | .ok effects =>
    let shown := if captures then effects.writes.filter (·.1 != Program.output) else effects.writes
    let kept := { mine with
      writes := shown ++ mine.writes
      disk := effects.disk
      input := if input.isNone then effects.input else mine.input }
    ((if captures then effects.written Program.output else [], effects.ending),
      { m with effects := kept })

/-- The number of a command's ending. -/
def statusOf : Ending → Nat
  | .code n => n
  | .killed signal => 256 + signal

/-- Sends off what waits at an outlet. A command waits for all that it is to read. -/
def flush (o : Outlet) : Act Unit := do
  let text := o.pending.reverse.flatten
  if o.isCommand || text.isEmpty then pure ()
  else if o.name = usual then
    inEffects (Program.print text)
    modify fun m => { m with outlets := m.outlets.map fun other =>
      if other.name = usual then { other with pending := [] } else other }
  else
    let old := ((← get).effects.disk.read (Program.path o.name)).toOption.elim [] Octets.ofBytes
    let _ ← inEffects (Program.saveFile o.name (old ++ text))
    modify fun m => { m with outlets := m.outlets.map fun other =>
      if other.name = o.name then { other with pending := [] } else other }

def flushAll : Act Unit := do (← get).outlets.forM flush

/-- Closes an outlet; gives the status of a command. -/
def closeOutlet (s : Setting) (o : Outlet) : Act Nat := do
  let status ← if o.isCommand then do
      let (_, ending) ← runCommand s o.name (some o.pending.reverse.flatten) false
      pure (statusOf ending)
    else do
      flush o
      pure 0
  modify fun m => { m with outlets := m.outlets.filter fun other =>
    other.name != o.name || o.name = usual }
  return status

/-- Closes everything, what was used last first. -/
def closeAll (s : Setting) : Act Unit := do (← get).outlets.forM fun o => do
  let _ ← closeOutlet s o

/-- Writes a text where it is to go. -/
def send (goal : Option (Target × String)) (text : List Char) : Act Unit := do
  match goal with
  | none => put usual text
  | some (.command, command) =>
    useOutlet command do
      flushAll
      return { name := command, isCommand := true }
    put command text
  | some (target, name) =>
    if name = "/dev/stderr" then inEffects (Program.write Program.errors text)
    else
      useOutlet name do
        let there := (← get).effects.disk.read (Program.path name)
        let old := if target = .ending then there.toOption.elim [] Octets.ofBytes else []
        match ← inEffects (Program.saveFile name old) with
        | .ok () => return { name }
        | .error fault =>
          fail ("cannot open \"" ++ name ++ "\" for output (" ++ fault.reason ++ ")")
      put name text

/-! Input. -/

def readError : String := "read error (" ++ Fault.isFolder.reason ++ ")"

/-- The next record of a text. -/
def takeRecord (text : List Char) : Act (Option (List Char × List Char)) := do
  let d ← dividerOf (← textOf "RS")
  return d.takeRecord? text

/-- The next line from a file or a command, or nothing; at first it has to be opened. -/
def takeFrom (s : Setting) (isCommand : Bool) (name : String) : Act (Option (Option (List Char))) := do
  let same (i : Inlet) : Bool := i.name = name && i.isCommand = isCommand
  let inlet ← match (← get).inlets.find? same with
    | some inlet => pure (some inlet)
    | none =>
      let opened ← if isCommand then do
          flushAll
          let (text, ending) ← runCommand s name none true
          pure (some (Inlet.mk name true text (statusOf ending)))
        else match ← inEffects (Program.readFile name) with
          | .ok text => pure (some (Inlet.mk name false text 0))
          | .error .isFolder => fail readError
          | .error _ => pure none
      opened.forM fun inlet => modify fun m => { m with inlets := inlet :: m.inlets }
      pure opened
  match inlet with
  | none => return none
  | some inlet =>
    match ← takeRecord inlet.rest with
    | none => return some none
    | some (line, rest) =>
      modify fun m => { m with inlets := m.inlets.map fun i => if same i then { i with rest } else i }
      return some (some line)

/-- Closes all that goes by a name; gives the last status, or nothing if there is none. -/
def close (s : Setting) (name : String) : Act Int := do
  let m ← get
  let status ← (m.outlets.filter (·.name = name)).foldlM
    (fun _ o => return some (← closeOutlet s o)) none
  let inlets := m.inlets.filter (·.name = name)
  modify fun m => { m with inlets := m.inlets.filter (·.name != name) }
  return match (inlets.getLast?.map Inlet.status).or status with
    | some n => n
    | none => -1

/-- Sets what an operand sets, if it is one that does. -/
def operandSets? (operand : List Char) : Option (String × List Char) :=
  let name := operand.takeWhile fun c => c.isAlphanum || c = '_'
  match operand.drop name.length with
  | '=' :: value =>
    if name.isEmpty || name.head?.any Char.isDigit then none else some (String.ofList name, value)
  | _ => none

/-- Opens the next file that is named. -/
def openNext : Nat → Act Bool
  | 0 => return false
  | fuel + 1 => do
    let m ← get
    let count := (Figure.clamp (← global "ARGC").toFloat).toNat
    if m.operand < count then
      let i ← tableOf "ARGV"
      modify fun m => { m with operand := m.operand + 1 }
      let (isThere, _) := ((m.tables[i]?).getD {}).contains (.count m.operand)
      let operand ← if isThere then
          asText (((m.tables[i]?).getD {}).get (.count m.operand)).1
        else pure []
      if operand.isEmpty then openNext fuel
      else match operandSets? operand with
        | some (name, value) =>
          setVariable name (.given (Token.unescape (value.length + 1) value))
          openNext fuel
        | none => opening (String.ofList operand)
    else if m.opened then return false
    else opening "-"
where
  opening (name : String) : Act Bool := do
    match ← inEffects (Program.readFile name) with
    | .ok text =>
      modify fun m => { m with input := some text, opened := true }
      setGlobal "FILENAME" (.given name.toList)
      setGlobal "FNR" (.number 0.0)
      return true
    | .error .isFolder => fail readError
    | .error .badDescriptor => fail ("read error (" ++ Fault.badDescriptor.reason ++ ")")
    | .error fault => fail ("cannot open \"" ++ name ++ "\" (" ++ fault.reason ++ ")")

/-- The next record, which is counted. -/
def nextRecord : Nat → Act (Option (List Char))
  | 0 => return none
  | fuel + 1 => do
    match (← get).input with
    | none =>
      if ← openNext 100000 then nextRecord fuel
      else return none
    | some text =>
      match ← takeRecord text with
      | some (record, rest) =>
        modify fun m => { m with input := some rest }
        setGlobal "NR" (.number ((← global "NR").toFloat + 1.0))
        setGlobal "FNR" (.number ((← global "FNR").toFloat + 1.0))
        return some record
      | none =>
        modify fun m => { m with input := none }
        nextRecord fuel

end Act
end LayerCache.Rules
