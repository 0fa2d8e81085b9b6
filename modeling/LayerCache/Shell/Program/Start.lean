import LayerCache.Shell.Program.Decimals
import LayerCache.Shell.Program.Locate
import LayerCache.Shell.Program.Options
import LayerCache.Text.Ascii

/-! Signals by their names and numbers. -/
namespace LayerCache.Program.Signals

def signals : List (String × Nat) :=
  [("EXIT", 0), ("HUP", 1), ("INT", 2), ("QUIT", 3), ("ILL", 4), ("TRAP", 5), ("ABRT", 6),
    ("BUS", 7), ("FPE", 8), ("KILL", 9), ("USR1", 10), ("SEGV", 11), ("USR2", 12), ("PIPE", 13),
    ("ALRM", 14), ("TERM", 15), ("CHLD", 17), ("CONT", 18), ("STOP", 19),
    ("TSTP", 20), ("TTIN", 21), ("TTOU", 22), ("URG", 23), ("XCPU", 24), ("XFSZ", 25),
    ("VTALRM", 26), ("PROF", 27), ("WINCH", 28), ("IO", 29), ("PWR", 30), ("SYS", 31)]

/-- A signal by its name or its number. -/
def signal? (text : String) : Option (String × Nat) :=
  match Text.number? text with
  | some n => signals.find? fun (_, m) => m = n
  | none => signals.find? fun (name, _) => Text.sameIgnoringCase name text

def signalName (n : Nat) : String :=
  let known := (signals.map fun (name, m) => (m, name)).lookup n
  if n = 34 then "RTMIN" else if n = 64 then "RTMAX"
  else if 34 < n && n < 50 then "RTMIN+" ++ toString (n - 34)
  else if 50 ≤ n then "RTMAX-" ++ toString (64 - n)
  else known.getD (toString n)

end LayerCache.Program.Signals

/-! Programs that start others in changed surroundings. -/
namespace LayerCache.Program

/-- Takes over what another program has left. -/
def takeOver (o : Effects) : Work Unit :=
  modify fun mine => { o with writes := o.writes ++ mine.writes }

/-- Starts another program with the arguments of a process; what it leaves is taken over. -/
def become (launch : Launch) (p : Process) (wording : String → String := quoted) : Work Unit := do
  let o ← get
  match orShell launch { p with input := o.input, disk := o.disk } with
  | .ok effects => takeOver { effects with disk := { effects.disk with here := o.disk.here } }
  | .error fault =>
    finish (if fault = .notFound then 127 else 126)
    modify fun o => { o with
      writes := (errors, (wording p.name ++ ": " ++ fault.reason ++ "\n").toList) :: o.writes }

/-- A name and a value around an equals sign. -/
def binding? (text : String) : Option (String × String) :=
  let name := text.toList.takeWhile (· != '=')
  match text.toList.drop name.length with
  | _ :: value => some (String.ofList name, String.ofList value)
  | [] => none

namespace Environment

def usage : Usage where
  bare := "i0v"
  valued := "uCS"
  long := [("ignore-environment", 'i'), ("null", '0'), ("unset=", 'u'), ("chdir=", 'C'),
    ("split-string=", 'S'), ("debug", 'v'), ("default-signal?", 'd'), ("ignore-signal?", 'g'),
    ("block-signal?", 'b'), ("list-signal-handling", 'l')]
  anywhere := false

/-- A character behind a backslash, if it has a meaning there. -/
def escape? (quote : Option Char) (c : Char) : Option (List Char) :=
  if quote = some '\'' then if c = '\'' || c = '\\' then some [c] else some ['\\', c]
  else match c with
    | '_' => some (if quote = some '"' then [' '] else [])
    | 'f' => some ['\x0c']
    | 'n' => some ['\n']
    | 'r' => some ['\r']
    | 't' => some ['\t']
    | 'v' => some ['\x0b']
    | '"' | '#' | '$' | '\'' | '\\' => some [c]
    | _ => none

/-- The words of one argument: blanks part them, quotes hold them together, and names in braces
stand for what is bound to them. -/
def words (b : Bindings) : Nat → Option Char → Option (List Char) → List Char →
    Except String (List String)
  | 0, _, _, _ => .ok []
  | _ + 1, quote, word, [] =>
    if quote.isSome then .error "no terminating quote in -S string"
    else .ok (word.toList.map fun cs => String.ofList cs.reverse)
  | fuel + 1, quote, word, c :: rest =>
    let add (cs : List Char) := some (cs.reverse ++ word.getD [])
    let part (rest : List Char) := do
      let others ← words b fuel none none rest
      return (word.toList.map fun cs => String.ofList cs.reverse) ++ others
    if quote = some c then words b fuel none (add []) rest
    else if quote.isNone && (c = '\'' || c = '"') then words b fuel (some c) (add []) rest
    else if c = '\\' then match rest with
      | [] => .error "invalid backslash at end of string in -S"
      | d :: rest =>
        if d = 'c' && quote.isNone then .ok (word.toList.map fun cs => String.ofList cs.reverse)
        else if d = '_' && quote.isNone then part rest
        else match escape? quote d with
          | some cs => words b fuel quote (add cs) rest
          | none => .error ("invalid sequence '\\" ++ String.singleton d ++ "' in -S")
    else if c = '$' && quote != some '\'' then
      let name := (rest.drop 1).takeWhile fun d => d.isAlphanum || d = '_'
      if rest.head? = some '\x7b' && !name.isEmpty && (rest.drop (name.length + 1)).head? = some '\x7d'
      then
        let value := (b.find? (String.ofList name)).getD ""
        words b fuel quote (add value.toList) (rest.drop (name.length + 2))
      else .error ("only $\x7bVARNAME\x7d expansion is supported, error at: " ++
        String.ofList (c :: rest))
    else if quote.isNone && (c = ' ' || ('\t' ≤ c && c ≤ '\r')) then part rest
    else if quote.isNone && c = '#' && word.isNone then .ok []
    else words b fuel quote (add [c]) rest

/-- Puts the words of an argument that asks for it in its place. -/
def splitArgs (b : Bindings) : List String → Except String (List String)
  | a :: rest =>
    let body? := match a.toList with
      | '-' :: 'S' :: cs => some cs
      | '-' :: 'v' :: 'S' :: cs => some cs
      | _ => (Text.afterStart? "--split-string=" a).map String.toList
    let verbose := if Text.startsWith a "-vS" then ["-v"] else []
    match body?, rest with
    | some [], next :: rest => do
      return verbose ++ (← words b (next.length + 2) none none next.toList) ++ rest
    | some [], [] => .ok [a]
    | some cs, rest => do return verbose ++ (← words b (cs.length + 2) none none cs) ++ rest
    | none, rest =>
      if Text.startsWith a "-" && a != "-" && a != "--" then do
        return a :: (← splitArgs b rest)
      else .ok (a :: rest)
  | [] => .ok []

/-- The bindings that stand in front of a command, and the command. -/
def takeBindings : List String → List (String × String) × List String
  | [] => ([], [])
  | a :: rest => match binding? a with
    | some pair =>
      let (more, command) := takeBindings rest
      (pair :: more, command)
    | none => ([], a :: rest)

def showAll (b : Bindings) (ending : Char) : Work Unit :=
  b.pairs.forM fun (name, value) => print ((name ++ "=" ++ value).toList ++ [ending])

def goTo (p : Process) (folder : String) : Work Bool := do
  match (← get).disk.find .target (path folder) with
  | .ok (.taken place .folder) =>
    modify fun o => { o with disk := { o.disk with here := place } }
    return true
  | .ok (.taken _ _) =>
    complain p ("cannot change directory to " ++ quotedFile folder ++ ": " ++
      Fault.notFolder.reason) 125
    return false
  | .ok (.free _ _) =>
    complain p ("cannot change directory to " ++ quotedFile folder ++ ": " ++
      Fault.notFound.reason) 125
    return false
  | .error fault =>
    complain p ("cannot change directory to " ++ quotedFile folder ++ ": " ++ fault.reason) 125
    return false

def note (o : Options) (text : String) : Work Unit :=
  if o.has 'v' then write errors (text ++ "\n").toList else pure ()

def run (launch : Launch) (p : Process) (o : Options) : Work Unit := do
  let (dash, rest) := match o.operands with
    | "-" :: rest => (true, rest)
    | rest => (false, rest)
  let unset := o.values 'u'
  let clears := dash || o.has 'i'
  match if clears then none else unset.find? fun name => name = "" || name.toList.contains '=' with
  | some name =>
    complain p ("cannot unset " ++ quotedFile name ++ ": " ++ Fault.invalid.reason) 125
    return
  | none => pure ()
  if clears then note o "cleaning environ"
  else unset.forM fun name => note o ("unset:    " ++ name)
  let (pairs, command) := takeBindings rest
  pairs.forM fun (name, value) => note o ("setenv:   " ++ name ++ "=" ++ value)
  let before := if clears then .empty else unset.foldl Bindings.erase p.bindings
  let bindings := pairs.foldl (fun b (name, value) => b.insert name value) before
  match command with
  | [] =>
    if o.has 'C' then askForHelp p "must specify command with --chdir (-C)" 125
    else showAll bindings (if o.has '0' then Char.ofNat 0 else '\n')
  | name :: args =>
    if o.has '0' then askForHelp p "cannot specify --null (-0) with command" 125
    else
      let here := (← get).disk.here
      let arrived ← match o.value? 'C' with
        | some folder => do
          note o ("chdir:    " ++ quotedFile folder)
          goTo p folder
        | none => pure true
      if arrived then
        note o ("executing: " ++ name)
        ((name :: args).zipIdx).forM fun (word, i) =>
          note o ("   arg[" ++ toString i ++ "]= " ++ quoted word)
        become launch { p with name, args, bindings } fun name => "env: " ++ quoted name
        modify fun o => { o with disk := { o.disk with here } }

end Environment

def environment (launch : Launch) (p : Process) : Work Unit :=
  match Environment.splitArgs p.bindings p.args with
  | .error flaw => complain p flaw 125
  | .ok args => withOptions { p with args } Environment.usage (Environment.run launch p) 125

def printBindings (p : Process) : Work Unit :=
  withOptions p ⟨"0", "", [("null", '0')], false, ""⟩ (fun o => do
    let ending := if o.has '0' then Char.ofNat 0 else '\n'
    if o.operands.isEmpty then Environment.showAll p.bindings ending
    else o.operands.forM fun name => match p.bindings.find? name with
      | some value => print (value.toList ++ [ending])
      | none => finish 1) 2

/-- Starts a command with a message of its own for one that cannot be started. -/
def startCommand (launch : Launch) (p : Process) (name : String) (args : List String)
    (told : String := "") : Work Unit :=
  become launch { p with name, args } fun name => p.name ++ ": " ++ told ++ quoted name

/-- An adjustment as it used to be written. -/
def oldAdjustments (args : List String) : List String :=
  match args with
  | a :: rest => match a.toList with
    | '-' :: '-' :: d :: cs =>
      if (d :: cs).all Char.isDigit then ("-n-" ++ String.ofList (d :: cs)) :: oldAdjustments rest
      else a :: rest
    | '-' :: '+' :: cs => ("-n" ++ String.ofList cs) :: oldAdjustments rest
    | '-' :: d :: cs =>
      if d.isDigit then ("-n" ++ String.ofList (d :: cs)) :: oldAdjustments rest
      else if a = "-n" then a :: rest.take 1 ++ oldAdjustments (rest.drop 1)
      else a :: rest
    | _ => a :: rest
  | [] => []
termination_by args.length

def nice (launch : Launch) (p : Process) : Work Unit :=
  withOptions { p with args := oldAdjustments p.args } ⟨"", "n", [("adjustment=", 'n')], false, ""⟩
    (fun o => match o.value? 'n', o.operands with
      | none, [] => printLine (toString p.niceness).toList
      | some _, [] => askForHelp p "a command must be given with an adjustment" 125
      | text?, name :: args => match (text?.map Text.int?).getD (some 10) with
        | none => complain p ("invalid adjustment " ++ quoted (text?.getD "")) 125
        | some n => startCommand launch
          { p with niceness := max (-20) (min 19 (p.niceness + n)) } name args) 125

def nohup (launch : Launch) (p : Process) : Work Unit :=
  withOptions p ⟨"", "", [], false, ""⟩ (fun o => match o.operands with
    | [] => askForHelp p "missing operand" 125
    | name :: args => startCommand launch { p with name := "nohup" } name args
        "failed to run command ") 125

namespace Timeout

/-- A stretch of time in thousandths of a second. -/
def duration? (text : String) : Option Nat :=
  let cs := text.toList
  let (digits, factor?) := match cs.getLast? with
    | some c => if c.isDigit || c = '.' then (cs, some 1)
      else (cs.dropLast, [('s', 1), ('m', 60), ('h', 3600), ('d', 86400)].lookup c)
    | none => (cs, none)
  match Chars.split '.' digits, factor? with
  | [whole], some k => (Chars.number? whole).map fun n => n * 1000 * k
  | [whole, part], some k => do
    let n ← if whole.isEmpty then some 0 else Chars.number? whole
    let shown := (part ++ ['0', '0', '0']).take 3
    let m ← Chars.number? shown
    return (n * 1000 + m) * k
  | _, _ => none

def signalOf? (text : String) : Option (String × Nat) :=
  Signals.signal? ((Text.afterStart? "SIG" text).getD text)

def usage : Usage where
  bare := "vfp"
  valued := "ks"
  long := [("foreground", 'f'), ("kill-after=", 'k'), ("preserve-status", 'p'), ("signal=", 's'),
    ("verbose", 'v')]
  anywhere := false

def showHelp (p : Process) : Work Unit := do
  write errors ("Try '" ++ p.name ++ " --help' for more information.\n").toList
  finish 125

/-- Runs a command; one that took longer than it may has been stopped by a signal. -/
def run (launch : Launch) (p : Process) (o : Options) (most : Nat) (sign : String × Nat)
    (name : String) (args : List String) : Work Unit := do
  let start := (← get).disk.clock
  startCommand launch p name args "failed to run command "
  let elapsed := ((← get).disk.clock - start).toNat * 1000
  if 0 < most && most < elapsed then
    if o.has 'v' then
      write errors (p.name ++ ": sending signal " ++ sign.1 ++ " to command " ++ quoted name ++
        "\n").toList
    if sign.2 = 9 then modify fun e => { e with ending := .killed 9 }
    else finish (if o.has 'p' then 128 + sign.2 else 124)

end Timeout

def timeout (launch : Launch) (p : Process) : Work Unit :=
  match Timeout.usage.split none p.args with
  | .error text => do
    complain p text 125
    Timeout.showHelp p
  | .ok o => do
    let bad (text : String) : Work Unit := do
      complain p text 125
      Timeout.showHelp p
    let signal := (o.value? 's').getD "TERM"
    let least := (o.value? 'k').getD "0"
    match Timeout.signalOf? signal, Timeout.duration? least, o.operands with
    | none, _, _ => bad (quoted signal ++ ": invalid signal")
    | _, none, _ => bad ("invalid time interval " ++ quoted least)
    | some sign, some _, text :: name :: args => match Timeout.duration? text with
      | none => bad ("invalid time interval " ++ quoted text)
      | some most => Timeout.run launch p o most sign name args
    | some _, some _, _ => Timeout.showHelp p

end LayerCache.Program
