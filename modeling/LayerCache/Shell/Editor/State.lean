import LayerCache.Shell.Editor.Script
import LayerCache.Shell.Program.Options

/-! An editor at work: lines to come, the line under way, what is held, and what waits. -/
namespace LayerCache.Editor

structure State where
  effects : Effects
  /-- Lines to come, with their endings, and the files they are from. -/
  lines : List (String × List Char)
  file : String := "-"
  count : Nat := 0
  space : List Char := []
  /-- Whether the line in the pattern space had an ending. -/
  ended : Bool := true
  held : List Char := []
  /-- Whether what is held had an ending. -/
  heldEnded : Bool := true
  substituted : Bool := false
  /-- Instructions whose range has begun, with the line it ends at if that is known. -/
  begun : List (Nat × Option Nat) := []
  /-- Texts to put out behind the line, the latest first. -/
  queue : List (List Char) := []
  lastPattern : Option Pattern := none
  /-- Files whose last line still lacks its ending. -/
  owing : List String := []
  /-- Files read line by line, with what is left of them. -/
  readers : List (String × List (List Char)) := []
  /-- What is put out goes into a file in the end. -/
  gathered : Option (List (List Char)) := none

/-- What holds for all of a run. -/
structure Setup where
  script : Array Instruction
  quiet : Bool
  /-- What ends a line. -/
  ending : Char := '\n'
  /-- Where described lines are broken; never, if it is zero. -/
  width : Nat := 70
  /-- Runs a command for its output. -/
  run : List Char → Work (List Char)

namespace State

def work {α : Type} (st : State) (w : Work α) : α × State :=
  let (a, effects) := w.run st.effects
  (a, { st with effects })

/-- The output among the files written to. -/
def outputName : String := ""

/-- Adds to a file as it is; a line ending left out before is made up for. -/
def addRaw (st : State) (s : Setup) (file : String) (text : List Char) : State :=
  if text.isEmpty then st
  else
    let text := if st.owing.contains file then s.ending :: text else text
    let st := { st with owing := st.owing.filter (· != file) }
    if file = outputName then match st.gathered with
      | some texts => { st with gathered := some (text :: texts) }
      | none => (st.work (Program.print text)).2
    else match Program.streamOf? file with
      | some stream => (st.work (Program.write stream text)).2
      | none => (st.work do
          let old := ((← get).disk.read (Program.path file)).toOption.elim [] Octets.ofBytes
          discard (Program.saveFile file (old ++ text))).2

/-- Adds a line to a file. -/
def add (st : State) (s : Setup) (file : String) (line : List Char) (ended : Bool) : State :=
  if ended then st.addRaw s file (line ++ [s.ending])
  else
    let st := if line.isEmpty && st.owing.contains file then
      { st.addRaw s file [s.ending] with owing := st.owing } else st.addRaw s file line
    { st with owing := file :: st.owing.filter (· != file) }

def put (st : State) (s : Setup) (text : List Char) : State := st.add s outputName text true

def putSpace (st : State) (s : Setup) : State := st.add s outputName st.space st.ended

/-- The output has one name among the files that scripts name, unless it becomes a file. -/
def nameOf (st : State) (file : String) : String :=
  if file = "/dev/stdout" && st.gathered.isNone then outputName else file

/-- The first line of the pattern space, and whether there are more. -/
def firstLine (st : State) (s : Setup) : List Char × Bool :=
  (st.space.takeWhile (· != s.ending), st.space.contains s.ending)

/-- Adds the first line of the pattern space to a file. -/
def addLine (st : State) (s : Setup) (file : String) : State :=
  let (line, isPart) := st.firstLine s
  st.add s file line (st.ended || isPart)

/-- Puts out what waits behind the line. -/
def flush (st : State) (s : Setup) : State :=
  { st.queue.reverse.foldl (fun st text => st.addRaw s outputName text) st with queue := [] }

/-- Takes the next line, if there is one. -/
def takeLine (st : State) (s : Setup) : Option (List Char × State) :=
  match st.lines with
  | [] => none
  | (file, line) :: lines => some (Chars.bareRecord s.ending line,
    { st with
      lines, file, count := st.count + 1, ended := line.getLast? = some s.ending,
      substituted := false })

/-- A pattern, or the one used last, which it is from now on. -/
def choose (st : State) (p : Option Pattern) : Option Pattern × State :=
  let p := p.or st.lastPattern
  (p, { st with lastPattern := p })

/-- Whether a line is picked; nothing tells if there has been no pattern yet. -/
def isAt (st : State) : Spot → Option (Bool × State)
  | .line n => some (st.count = n, st)
  | .last => some (st.lines.isEmpty, st)
  | .every first step => some (first ≤ st.count && (st.count - first) % step = 0, st)
  | .matching p =>
    let (p, st) := st.choose p
    p.map fun p => ((Regex.find? ⟨st.space.toArray, p.fold⟩ p.regex 0).isSome, st)

/-- The line a range ends at, if a number tells. -/
def stopLine (st : State) : Stop → Option Nat
  | .at (.line n) => some n
  | .at _ => none
  | .after n => some (st.count + n)
  | .atMultiple n => some (if n = 0 then st.count else (st.count / n + 1) * n)

def begin (st : State) (index : Nat) (stop : Option Nat) : State :=
  { st with begun := (index, stop) :: st.begun }

def leave (st : State) (index : Nat) : State :=
  { st with begun := st.begun.filter fun (i, _) => i != index }

/-- Whether an instruction's range goes on after this line. -/
def isBegun (st : State) (index : Nat) : Bool := st.begun.any fun (i, _) => i = index

/-- Whether a line is selected. A range ends with the first later line that its end picks; an end
by number that has passed leaves it a single line. -/
def selects (st : State) (index : Nat) : Selection → Option (Bool × State)
  | .all => some (true, st)
  | .at s => st.isAt s
  | .range first stop => match st.begun.lookup index, stop with
    | some (some n), _ =>
      some (decide (st.count ≤ n), if n ≤ st.count then st.leave index else st)
    | some none, .at s =>
      (st.isAt s).map fun (found, st) => (true, if found then st.leave index else st)
    | some none, _ => some (true, st)
    | none, stop => (st.isAt first).map fun (found, st) =>
      if !found then (false, st)
      else match st.stopLine stop, stop with
        | some n, _ => (true, if st.count < n then st.begin index (some n) else st)
        | none, .at .last => (true, if st.lines.isEmpty then st else st.begin index none)
        | none, _ => (true, st.begin index none)

/-- What a replacement becomes. A case asked for the first letter waits until there is one. -/
def replacement (t : Subject) (m : Regex.Match) (waiting : Option (Char → Char)) :
    List Piece → List Char
  | [] => []
  | p :: rest =>
    let first := p.casing.first.or waiting
    let text := { p.casing with first }.apply p.text
    let first := if p.text.isEmpty then first else none
    match p.group with
    | none => text ++ replacement t m none rest
    | some n =>
      let taken := m.text t n
      let waiting := if taken.isEmpty && p.casing.first.isSome then first else none
      text ++ { p.casing with first }.apply taken ++ replacement t m waiting rest

/-- Goes through the matches from a place on; `n` counts them, and `last` is where the one before
ended, where no empty match may stand. -/
def replaceFrom (s : Substitution) (t : Subject) (r : Regex) :
    Nat → Nat → Nat → Option Nat → List Char × Bool
  | 0, _, i, _ => (t.slice i t.chars.size, false)
  | fuel + 1, n, i, last => match Regex.find? t r i with
    | none => (t.slice i t.chars.size, false)
    | some m =>
      let skip := t.slice i m.start
      if m.start = m.stop && last = some m.start then
        let (rest, found) := replaceFrom s t r fuel n (m.stop + 1) none
        (skip ++ t.slice m.stop (m.stop + 1) ++ rest, found)
      else
        let wanted := if s.all then s.nth ≤ n else n = s.nth
        let now := if wanted then replacement t m none s.pieces else t.slice m.start m.stop
        if wanted && !s.all then (skip ++ now ++ t.slice m.stop t.chars.size, true)
        else if m.stop = t.chars.size then (skip ++ now, wanted)
        else
          let (rest, found) := replaceFrom s t r fuel (n + 1) m.stop (some m.stop)
          (skip ++ now ++ rest, wanted || found)

/-- The pattern space becomes what it says as a command. -/
def executeSpace (st : State) (s : Setup) : State :=
  let (text, st) := st.work (s.run st.space)
  { st with space := Chars.bareRecord s.ending text }

def substitute (st : State) (s : Setup) (sub : Substitution) : Option State :=
  let (p, st) := st.choose sub.pattern
  p.map fun p =>
    let t : Subject := ⟨st.space.toArray, p.fold⟩
    let (space, found) := replaceFrom sub t p.regex (2 * t.chars.size + 2) 1 0 none
    if !found then st
    else
      let st := { st with space, substituted := true }
      let st := if sub.printsFirst then st.putSpace s else st
      let st := if sub.executes then st.executeSpace s else st
      let st := if sub.prints then st.putSpace s else st
      sub.file.elim st fun file => st.add s (st.nameOf file) st.space st.ended

def describeChar (c : Char) : List Char :=
  if c = '\\' then ['\\', '\\']
  else if ' ' ≤ c && c ≤ '~' then [c] else Program.Quoting.escape c

/-- Lines no longer than some width, each but the last with a backslash. -/
def wrap (width : Nat) (pieces : List (List Char)) : List Char :=
  let (out, line) := pieces.foldl (fun (out, line) piece =>
    if 0 < width && width < line.length + piece.length + 1 then
      (out ++ line ++ ['\\', '\n'], piece)
    else (out, line ++ piece)) (([] : List Char), ([] : List Char))
  out ++ line ++ ['$']

/-- Takes a line of a file that is read bit by bit. -/
def readLine (st : State) (file : String) : Option (List Char) × State :=
  let lines := match st.readers.lookup file with
    | some lines => lines
    | none => match st.effects.disk.read (Program.path file) with
      | .ok content => Chars.wholeLines (Octets.ofBytes content)
      | .error _ => []
  (lines.head?, { st with readers := (file, lines.tail) :: st.readers })

end State
end LayerCache.Editor
