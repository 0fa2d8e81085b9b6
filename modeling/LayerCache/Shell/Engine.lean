import LayerCache.Shell.Program.Locate
import LayerCache.Shell.Program.Run
import LayerCache.Shell.Reader
import LayerCache.Shell.Redirect
import LayerCache.Shell.State

/-! What commands of a script may ask for: running scripts and texts, and starting programs. -/
namespace LayerCache.Shell

structure Engine where
  launch : Launch
  again : Script → Act Unit

/-- Does something whose failure is looked at. -/
def testing (work : Act Unit) : Act Unit := do
  let before := (← get).tested
  modify fun st => { st with tested := true }
  work
  modify fun st => { st with tested := before }

/-- With the option for it, a failure that nothing looks at ends the script. -/
def checkFailure : Act Unit := do
  let st ← get
  if st.has 'e' && st.status != 0 && !st.tested && st.jump.isNone then jump .exit

/-- Runs the lines of a text as they are read, so a flaw in one is found after those before it. A
text of no commands succeeds. -/
def runLines (again : Script → Act Unit) (fuel : Nat) (idle : Bool) : Nat → Source → Act Unit
  | 0, _ => return
  | steps + 1, source => do
    match (Reader.line? fuel fuel []).run { source with aliases := (← get).aliases } with
    | .error flaw =>
      modify fun st => { st with line := flaw.line }
      giveUp flaw.text
    | .ok (none, _) => if idle then finish 0
    | .ok (some s, source) =>
      again s
      if !(← hasJumped) then
        runLines again fuel (idle && s matches .sequence []) steps source

def Engine.runText (e : Engine) (text : List Char) (line : Nat) : Act Unit :=
  runLines e.again (Reader.fuelFor text) true (text.length + 1) { rest := text, line }

/-- What is set to be run in the end is run once, whatever ended the script but a signal. -/
def Engine.conclude (e : Engine) : Act Unit := do
  let st ← get
  match st.jump, st.traps.find? "EXIT" with
  | some (.killed _), _ => return
  | _, none => return
  | _, some text =>
    set { st with traps := st.traps.erase "EXIT", jump := none }
    e.runText text.toList st.line
    if (← get).jump.isNone then finish st.status

/-- Runs a part of a script as a process of its own: of what it changes only the disk, its output
and its input stay. -/
def Engine.apart (e : Engine) (work : Act Unit) : Act Unit := do
  let outer ← get
  set { outer with traps := .empty }
  work
  e.conclude
  let inner ← get
  let killed := match inner.jump with
    | some (.killed n) => some (.killed n)
    | _ => none
  set { outer with
    disk := (outer.takeDisk inner.disk).disk
    said := inner.said
    pipes := inner.pipes
    inputs := (inner.inputs.take outer.inputs.length)
    status := inner.status % 256
    jump := killed }

/-- Does something with the output caught in a pipe. -/
def catching (work : Act Unit) : Act (List Char) := do
  let before ← get
  let level := before.pipes.length
  set ({ before with pipes := before.pipes ++ [[]] }.connect 1 (.pipe level))
  work
  let after ← get
  set { after with handles := before.handles, pipes := after.pipes.take level }
  return ((after.pipes[level]?).getD []).reverse.flatten

/-- What a script puts out, without the line feeds in the end. -/
def Engine.capture (e : Engine) : Capture := fun s => do
  let before := (← get).status
  let text ← catching (e.apart do
    if s matches .sequence [] then finish 0
    e.again s)
  modify fun st => { st with answered := some st.status, status := before }
  return (text.filter (· != Char.ofNat 0)).reverse.dropWhile (· = '\n') |>.reverse

/-- What other programs make known about a signal that ended one. -/
def signalTexts : List (Nat × String) :=
  [(1, "Hangup"), (3, "Quit"), (4, "Illegal instruction"), (6, "Aborted"), (8,
    "Floating point exception"), (9, "Killed"), (10, "User defined signal 1"),
    (11, "Segmentation fault"), (12, "User defined signal 2"), (14, "Alarm clock"),
    (15, "Terminated")]

/-- Takes over what a program has left. -/
def absorb (o : Effects) : Act Unit := do
  modify (·.takeDisk o.disk)
  o.writes.reverse.forM fun (stream, text) => write stream text
  modify (·.setInput o.input)
  match o.ending with
  | .killed n => (signalTexts.lookup n).forM fun text => write 2 (text ++ "\n").toList
  | .code _ => pure ()
  finish o.ending.status

/-- Starts a program that is no part of the shell. -/
def Engine.external (e : Engine) (name : String) (args : List String) : Act Unit := do
  let st ← get
  if name = "" then complain ": Permission denied" 127
  else
    Tracked.note name
    match Program.orShell e.launch (st.process name args) with
    | .ok o => absorb o
    | .error fault =>
      let missing := fault = .notFound || fault = .notFolder
      let status := if missing || fault = .tooManyLinks || fault = .nameTooLong then 127 else 126
      complain (name ++ ": " ++ if missing then "not found" else fault.reason) status

end LayerCache.Shell
