import LayerCache.Shell.Program.Mode
import LayerCache.Shell.Signal
import LayerCache.Shell.State

/-! Option letters of a script, taken from its arguments one at a time. -/
namespace LayerCache.Shell

/-- What one step finds: a letter, the value it takes, and where the next step starts. -/
structure LetterStep where
  letter : Char
  value : Option String
  next : Nat × Option Nat
  complaint : Option String := none
  atEnd : Bool := false

/-- The letters still to come: those of the argument under way, or of the next one. -/
def lettersAhead (args : List String) : Nat × Option Nat → Option (Nat × Nat × List Char)
  | (index, offset) =>
    let here := offset.bind fun o =>
      let rest := ((args[index - 2]?).getD "").toList.drop o
      if rest.isEmpty then none else some (index, o, rest)
    here.or (match ((args[index - 1]?).getD "").toList with
      | '-' :: c :: cs => if c = '-' && cs.isEmpty then none else some (index + 1, 1, c :: cs)
      | _ => none)

/-- Letters with a colon behind them take a value. A colon in front keeps complaints back. -/
def letterStep (known : List Char) (args : List String) (place : Nat × Option Nat) : LetterStep :=
  let quiet := known.head? = some ':'
  match lettersAhead args place with
  | none =>
    let passed := (args[place.1 - 1]?) = some "--" && place.2.isNone
    let next := if passed then place.1 + 1 else place.1
    { letter := '?', value := none, next := (next, none), atEnd := true }
  | some (_, _, []) => { letter := '?', value := none, next := place, atEnd := true }
  | some (index, offset, c :: rest) =>
    let next := (index, if rest.isEmpty then none else some (offset + 1))
    let flawed (letter : Char) (text : String) (next : Nat × Option Nat) : LetterStep :=
      if quiet then { letter, value := some (String.singleton c), next }
      else { letter := '?', value := none, next, complaint := some text }
    match known.dropWhile (· != c) with
    | _ :: ':' :: _ =>
      if !rest.isEmpty then
        { letter := c, value := some (String.ofList rest), next := (index, none) }
      else match args[index - 1]? with
        | some value => { letter := c, value := some value, next := (index + 1, none) }
        | none => flawed ':' ("No arg for -" ++ String.singleton c ++ " option") (index, none)
    | _ :: _ => { letter := c, value := some "", next }
    | [] => flawed '?' ("Illegal option -" ++ String.singleton c) next

def takeLetter : List String → Act Unit
  | known :: name :: given => do
    let st ← get
    let args := if given.isEmpty then st.arguments else given
    let step := letterStep known.toList args st.nextLetter
    step.complaint.forM fun text => write 2 (text ++ "\n").toList
    if !step.atEnd then match step.value with
      | some value => setVariable "OPTARG" value
      | none => modify fun st => { st with vars := st.vars.erase "OPTARG" }
    setVariable "OPTIND" (toString step.next.1)
    modify fun st => { st with nextLetter := step.next }
    setVariable name (String.singleton step.letter)
    if !(← hasJumped) then finish (if step.atEnd then 1 else 0)
  | _ => giveUp "Usage: getopts optstring var [arg...]"

end LayerCache.Shell

/-! Commands that are part of the shell because they change it. -/
namespace LayerCache.Shell

/-- A number given to a command, or the complaint that it is none. -/
def numberOr (text : String) (work : Nat → Act Unit) : Act Unit :=
  match Text.number? text with
  | some n => work n
  | none => giveUp ("Illegal number: " ++ text)

def exit (args : List String) : Act Unit :=
  match args with
  | text :: _ => numberOr text fun n => do
    finish (n % 256)
    jump .exit
  | [] => jump .exit

/-- Outside of functions and files a return ends the script. -/
def leaveFunction (args : List String) : Act Unit := do
  let st ← get
  let j := if st.calls = 0 then Jump.exit else .fromFunction
  match args with
  | text :: _ => numberOr text fun n => do
    finish n
    jump j
  | [] => jump j

def leaveLoop (j : Nat → Jump) (args : List String) : Act Unit :=
  numberOr (args.headD "1") fun n => do
    let st ← get
    if n = 0 then giveUp "Illegal number: 0"
    else
      finish 0
      if st.loops != 0 then jump (j (min n st.loops))

def shift (args : List String) : Act Unit :=
  numberOr (args.headD "1") fun n => do
    let st ← get
    if st.arguments.length < n then giveUp "can't shift that many"
    else set { st with arguments := st.arguments.drop n, status := 0 }

def changeFolder (args : List String) : Act Unit :=
  withSwitches "LP" args fun s => do
    let st ← get
    let valueOf (name : String) := ((st.vars.find? name).bind Variable.value).getD ""
    let name := match s.operands with
      | [] => valueOf "HOME"
      | "-" :: _ => valueOf "OLDPWD"
      | name :: _ => name
    let name := if name = "" then "." else name
    match st.disk.stat (Program.path name) with
    | .ok (place, .folder) =>
      let before := Program.here st.disk
      set { st with disk := { st.disk with here := place }, status := 0 }
      Tracked.doubt
      setVariable "OLDPWD" before true
      setVariable "PWD" (Program.here (← get).disk) true
      if s.operands.head? = some "-" then write 1 (Program.here (← get).disk ++ "\n").toList
    | _ => giveUp ("can't cd to " ++ name)

/-- A line of input, what follows it, and whether it was ended. Unless it is raw, a backslash
quotes a character and joins lines. -/
def takeLine (raw : Bool) : List Char → Field × List Char × Bool
  | [] => ([], [], false)
  | '\n' :: rest => ([], rest, true)
  | '\\' :: c :: rest =>
    if raw then
      let (line, rest, ended) := takeLine raw (c :: rest)
      (⟨'\\', .value⟩ :: line, rest, ended)
    else
      let (line, rest, ended) := takeLine raw rest
      (if c = '\n' then line else ⟨c, .quoted⟩ :: line, rest, ended)
  | c :: rest =>
    let (line, rest, ended) := takeLine raw rest
    (if c = Char.ofNat 0 then line else ⟨c, .value⟩ :: line, rest, ended)

def separates (separators : List Char) (g : Glyph) : Bool :=
  g.kind = .value && separators.contains g.char

def isBlankIn (separators : List Char) (g : Glyph) : Bool :=
  separates separators g && Draft.isBlank g.char

/-- The rest of a line without the separators in the end: blanks, and before these one that ends the
only field there is. -/
def lastShare (separators : List Char) (line : Field) : Field :=
  let bare (f : Field) := (f.reverse.dropWhile (isBlankIn separators)).reverse
  let whole := bare line
  let part := whole.takeWhile fun g => !separates separators g
  match whole.drop part.length |>.dropWhile (isBlankIn separators) with
  | [g] => if separates separators g then part else whole
  | _ => whole

/-- One value for each name; the last takes the rest of the line. -/
def shares (separators : List Char) : List String → Field → List (String × String)
  | [], _ => []
  | [name], line =>
    let line := line.dropWhile (isBlankIn separators)
    [(name, Field.text (lastShare separators line))]
  | name :: names, line =>
    let line := line.dropWhile (isBlankIn separators)
    let part := line.takeWhile fun g => !separates separators g
    let rest := (line.drop part.length).dropWhile (isBlankIn separators)
    let rest := match rest with
      | g :: more => if separates separators g then more else rest
      | [] => []
    (name, Field.text part) :: shares separators names rest

def readLine (args : List String) : Act Unit :=
  withSwitches "rp:" args fun s => do
    if s.operands.isEmpty then giveUp "arg count"
    else
      let st ← get
      let (line, rest, ended) := takeLine (s.has 'r') st.input
      set (st.setInput rest)
      (shares st.separators s.operands line).forM fun (name, value) => do
        if !Word.isName name then giveUp (name ++ ": bad variable name")
        else if !(← hasJumped) then setVariable name value
      if !(← hasJumped) then finish (if ended then 0 else 1)

/-- The access that is left by a mask, in letters. -/
def accessLeft (n : Nat) : List Char :=
  let letters (shift : Nat) := ([('r', 2), ('w', 1), ('x', 0)].filter fun (_, bit) =>
    !n.testBit (shift + bit)).map Prod.fst
  "u=".toList ++ letters 6 ++ ",g=".toList ++ letters 3 ++ ",o=".toList ++ letters 0 ++ ['\n']

/-- What a change of access makes of a mask. -/
def changedMask? (n : Nat) (text : List Char) : Option Nat := do
  let text := if text.getLast? = some ',' then text.dropLast else text
  if text.contains 't' then none
  else
    let steps ← (Chars.split ',' text).mapM fun clause =>
      if clause.isEmpty && !text.isEmpty then none else Mode.clause? clause
    return 0o777 - (Mode.apply 0 false steps.flatten (0o777 - n) &&& 0o777)

/-- Shows or sets the access that new files lack. -/
def setMask (args : List String) : Act Unit :=
  withSwitches "S" args fun s => do
    finish 0
    let n := (← get).disk.mask
    let change (m : Nat) : Act Unit := modify fun st => { st with disk := { st.disk with mask := m } }
    match s.operands with
    | [] =>
      if s.has 'S' then write 1 (accessLeft n)
      else write 1 (['0', Nat.digitChar (n / 64), Nat.digitChar (n / 8 % 8), Nat.digitChar (n % 8),
        '\n'])
    | text :: _ =>
      if text.toList.head?.any Char.isDigit then match Mode.octal? text.toList with
        | some m => change (m % 512)
        | none => giveUp ("Illegal number: " ++ text)
      else match changedMask? n text.toList with
        | some m => change m
        | none => giveUp ("Illegal mode: " ++ text)

/-- Definitions in the order that they are shown in, which goes by a number made of the name. -/
def inOrder (all : List (String × String)) : List (String × String) :=
  let place (name : String) : Nat :=
    (name.toList.foldl (fun n c => n + c.toNat) ((name.toList.headD ' ').toNat * 16)) % 39
  (List.range 39).flatMap fun i => all.filter fun (name, _) => place name = i

def showAlias (name text : String) : Act Unit :=
  write 1 (name ++ "=" ++ requoted text ++ "\n").toList

/-- Sets or shows what stands for a name where a command is expected. -/
def defineAliases (args : List String) : Act Unit := do
  finish 0
  if args.isEmpty then (inOrder (← get).aliases).forM fun (name, text) => showAlias name text
  args.forM fun arg => do
    let cs := arg.toList
    let known := (← get).aliases
    match cs.drop 1 |>.dropWhile (· != '=') with
    | '=' :: text =>
      let name := String.ofList (cs.take (cs.length - text.length - 1))
      let text := String.ofList text
      let changed := if known.any fun (n, _) => n = name then
          known.map fun (n, t) => (n, if n = name then text else t)
        else known ++ [(name, text)]
      modify fun st => { st with aliases := changed }
    | _ => match known.lookup arg with
      | some text => showAlias arg text
      | none =>
        write 2 ("alias: " ++ arg ++ " not found\n").toList
        finish 1

def forgetAliases (args : List String) : Act Unit :=
  withSwitches "a" args fun s => do
    finish 0
    if s.has 'a' then modify fun st => { st with aliases := [] }
    else s.operands.forM fun name => do
      let known := (← get).aliases
      if known.any fun (n, _) => n = name then
        modify fun st => { st with aliases := known.filter fun (n, _) => n != name }
      else
        write 2 ("unalias: " ++ name ++ " not found\n").toList
        finish 1

def builtinNames : List String :=
  [".", ":", "[", "alias", "bg", "break", "cd", "chdir", "command", "continue", "echo", "eval",
    "exec", "exit", "export", "false", "fg", "getopts", "hash", "jobs", "kill", "local", "printf",
    "pwd", "read", "readonly", "return", "set", "shift", "test", "times", "trap", "true", "type", "ulimit",
    "umask", "unalias", "unset", "wait"]

/-- Waits for commands in the background, which have all ended. -/
def awaitAll (args : List String) : Act Unit :=
  withSwitches "" args fun s => do
    finish 0
    let statuses := (← get).behind.reverse
    s.operands.forM fun text => do
      if ← hasJumped then return
      match Text.afterStart? "%" text with
      | some job =>
        match (Text.number? job).bind fun n => if n = 0 then none else statuses[n - 1]? with
        | some status => finish status
        | none => giveUp ("No such job: " ++ text)
      | none => numberOr text fun n => do
        finish (if n < 2 then 127 else (statuses[n - 2]?).getD 127)

/-- Looks for commands once more, or shows those that are remembered. -/
def lookUp (args : List String) : Act Unit :=
  withSwitches "r" args fun s => do
    finish 0
    if s.has 'r' then modify fun st => { st with tracked := [] }
    else if s.operands.isEmpty then Tracked.list
    else s.operands.forM fun name => do
      let st ← get
      if !builtinNames.contains name && !st.functions.contains name then
        Tracked.forget name
        match Program.locate (folders st) st.disk name with
        | .ok _ => Tracked.note name
        | .error _ => complain (name ++ ": not found") 1

/-- What a command name stands for, in the words of `type` or in short. -/
def describe (name : String) (short : Bool) : Act Unit := do
  let st ← get
  let isOwn := st.functions.contains name || builtinNames.contains name
  if !isOwn && !Token.reserved.contains name && (st.aliases.lookup name).isNone &&
      st.tracked.all (·.name != name) then Tracked.note name
  let answer : Option (String × String) :=
    if Token.reserved.contains name then some (name, " is a shell keyword")
    else match st.aliases.lookup name with
    | some text => some ("alias " ++ name ++ "=" ++ requoted text, " is an alias for " ++ text)
    | none =>
      if st.functions.contains name then some (name, " is a shell function")
      else if builtinNames.contains name then
        some (name, if Reader.specialNames.contains name then " is a special shell builtin"
          else " is a shell builtin")
      else if name.toList.contains '/' then
        if st.disk.exists (Program.path name) then some (name, " is " ++ name) else none
      else match st.tracked.find? (·.name = name) with
        | some t => some (t.file st, " is a tracked alias for " ++ t.file st)
        | none => match Program.locate (folders st) st.disk name with
          | .ok (file, _) => some (file, " is " ++ file)
          | .error _ => none
  match answer with
  | some (brief, words) => write 1 ((if short then brief else name ++ words) ++ "\n").toList
  | none =>
    if !short then write 1 (name ++ ": not found\n").toList
    finish 127

/-- Nothing is limited. -/
def limit (args : List String) : Act Unit :=
  withSwitches "HSatfdscmlpnvwr" args fun s => do
    finish 0
    match s.operands with
    | [] => write 1 "unlimited\n".toList
    | [text] =>
      if text != "unlimited" && (Text.number? text).isNone then giveUp "bad number"
    | _ => giveUp "too many arguments"

/-- Runs the lines of a file as part of the script. -/
def Engine.source (e : Engine) (args : List String) : Act Unit :=
  withSwitches "" args fun s => do match s.operands with
  | [] => finish 0
  | name :: _ =>
    let st ← get
    let read (file : String) := st.disk.read (Program.path file)
    let found := if name.toList.contains '/' then read name
      else ((Text.split ':' (folders st)).findSome? fun folder =>
        (read (folder ++ "/" ++ name)).toOption).elim (.error .notFound) .ok
    match found with
    | .error fault =>
      giveUp (if !name.toList.contains '/' then name ++ ": not found"
        else "cannot open " ++ name ++ ": " ++ openingTrouble fault "No such file")
    | .ok content =>
      set { st with calls := st.calls + 1 }
      doing (some name) (e.runText (Octets.ofBytes content) 1)
      modify fun after => { after with
        calls := st.calls
        line := st.line
        jump := if after.jump = some .fromFunction then none else after.jump }

/-- Commands that are the shell's own, by name; the program of that name is another matter. -/
def Engine.builtin? (e : Engine) (name : String) (args : List String) : Option (Act Unit) :=
  match name with
  | ":" => some (finish 0)
  | "exit" => some (exit args)
  | "return" => some (leaveFunction args)
  | "break" => some (leaveLoop .outOf args)
  | "continue" => some (leaveLoop .toNext args)
  | "shift" => some (shift args)
  | "export" => some («export» args)
  | "readonly" => some (fix args)
  | "local" => some (hideLocally args)
  | "unset" => some (forget args)
  | "set" => some (setAll args)
  | "cd" | "chdir" => some (changeFolder args)
  | "read" => some (readLine args)
  | "trap" => some (trap args)
  | "kill" => some (e.kill args)
  | "." => some (e.source args)
  | "eval" => some do
    let line := (← get).line
    e.runText (Text.join " " args).toList line
  | "type" => some do
    finish 0
    args.forM (describe · false)
  | "wait" => some (awaitAll args)
  | "getopts" => some (takeLetter args)
  | "umask" => some (setMask args)
  | "hash" => some (lookUp args)
  | "bg" | "fg" => some (giveUp "No current job")
  | "ulimit" => some (limit args)
  | "alias" => some (defineAliases args)
  | "unalias" => some (forgetAliases args)
  | "jobs" => some (withSwitches "lp" args fun _ => finish 0)
  | "times" => some do
    let line := "0m0.000000s 0m0.000000s\n"
    write 1 (line ++ line).toList
    finish 0
  | "pwd" => some (withSwitches "LP" args fun _ => do
    write 1 (Program.here (← get).disk ++ "\n").toList
    finish 0)
  | name =>
    if !Program.commonNames.contains name then none
    else some do
      let st ← get
      let p := st.process (← lead) args
      absorb (Program.run p ((Program.common? name true p).getD (pure ())))

end LayerCache.Shell
