import LayerCache.Shell.Engine
import LayerCache.Shell.Program.Start
import LayerCache.Shell.Variables

/-! Signals: what a script has set to be done on one, and sending them. -/
namespace LayerCache.Shell

open Program.Signals

/-- Signals that do nothing unless something is set for them. -/
def isHarmless (n : Nat) : Bool := [0, 17, 18, 23, 28].contains n

/-- Sends a signal to the script itself. What is set for it is run, and an empty text ignores it. -/
def Engine.receive (e : Engine) (name : String) (n : Nat) : Act Unit := do
  let st ← get
  match if name = "KILL" || name = "STOP" || n = 0 then none else st.traps.find? name with
  | some "" => finish 0
  | some text =>
    finish 0
    doing none (e.runText text.toList st.line)
    if (← get).jump.isNone then finish 0
  | none => if isHarmless n then finish 0 else jump (.killed n)

def killUsage : String :=
  "Usage: kill [-s sigspec | -signum | -sigspec] [pid | job]... or\nkill -l [exitstatus]"

/-- Sends a signal to processes; only the script's own can be reached. -/
def Engine.sendAll (e : Engine) (sign : String × Nat) (targets : List String) : Act Unit := do
  if targets.isEmpty then giveUp killUsage
  else
    finish 0
    targets.forM fun target => do
      if ← hasJumped then return
      let digits := (Text.afterStart? "-" target).getD target
      if Text.startsWith target "%" then giveUp ("No such job: " ++ target)
      else if (Text.number? digits).isNone then giveUp ("Illegal number: " ++ digits)
      else if target = State.number || target = "0" then e.receive sign.1 sign.2
      else complain "No such process\n" 1

/-- Names of signals: of all, or of the one that a status tells of. -/
def listSignals (args : List String) : Act Unit :=
  match args with
  | [] => do
    finish 0
    write 1 (("0" :: (List.range 64).map fun n => signalName (n + 1)).flatMap fun name =>
      name.toList ++ ['\n'])
  | text :: _ => match Text.number? text with
    | none => giveUp ("Illegal number: " ++ text)
    | some n =>
      let m := if 128 < n then n - 128 else n
      if 0 < m && m < 65 then do
        finish 0
        write 1 (signalName m ++ "\n").toList
      else giveUp ("invalid signal number or exit status: " ++ text)

def Engine.kill (e : Engine) (args : List String) : Act Unit :=
  match args with
  | [] => giveUp killUsage
  | "-s" :: [] => giveUp "No arg for -s option"
  | "-s" :: text :: targets => match signal? text with
    | some sign => e.sendAll sign targets
    | none => giveUp ("invalid signal number or name: " ++ text)
  | "-l" :: targets => listSignals targets
  | "--" :: targets => e.sendAll ("TERM", 15) targets
  | a :: targets => match Text.afterStart? "-" a with
    | none => e.sendAll ("TERM", 15) args
    | some text => match signal? text with
      | some sign => e.sendAll sign targets
      | none => giveUp ("Illegal option -" ++ String.ofList (text.toList.take 1))

def showTraps : Act Unit := do
  let st ← get
  (signals.filterMap fun (name, _) => (st.traps.find? name).map (name, ·)).forM fun (name, text) =>
    write 1 ("trap -- " ++ requoted text ++ " " ++ name ++ "\n").toList

/-- Sets what is done on signals, or puts it back to what it was. -/
def trap (args : List String) : Act Unit :=
  withSwitches "" args fun s => do
    let (action, names) := match s.operands with
      | [] => (none, [])
      | [one] => (none, [one])
      | action :: names =>
        if (Text.number? action).isSome then (none, action :: names)
        else (if action = "-" then none else some action, names)
    finish 0
    if s.operands.isEmpty then showTraps
    else
      let (good, bad) := names.span fun text => (signal? text).isSome
      (good.filterMap signal?).forM fun (name, _) => modify fun st => { st with
        traps := match action with
          | some a => st.traps.insert name a
          | none => st.traps.erase name }
      bad.head?.forM fun text => do
        write 2 ("trap: " ++ text ++ ": bad trap\n").toList
        finish 1

end LayerCache.Shell
