import LayerCache.Shell.Program.Start
import LayerCache.Shell.State

/-! Options of the shell's own commands: letters in front of the operands, up to two dashes. -/
namespace LayerCache.Shell

structure Switches where
  given : List (Char × String) := []
  operands : List String := []

namespace Switches

def has (s : Switches) (c : Char) : Bool := s.given.any fun (d, _) => d = c

def give (c : Char) (value : String) (s : Switches) : Switches :=
  { s with given := (c, value) :: s.given }

/-- The letters of one argument. A letter with a colon behind it in `known` takes what follows it
as its value, and none is left then; the last letter may wait for the next argument. -/
def letters (known : List Char) :
    List Char → Except String (List (Char × String) × Option Char)
  | [] => .ok ([], none)
  | c :: rest => match known.dropWhile (· != c) with
    | _ :: ':' :: _ =>
      .ok (if rest.isEmpty then ([], some c) else ([(c, String.ofList rest)], none))
    | _ :: _ =>
      if c = ':' then .error "Illegal option -:"
      else (letters known rest).map fun (others, waiting) => ((c, "") :: others, waiting)
    | [] => .error ("Illegal option -" ++ String.singleton c)

def ofArguments (known : List Char) (waiting : Option Char) :
    List String → Except String Switches
  | [] => match waiting with
    | none => .ok {}
    | some c => .error ("No arg for -" ++ String.singleton c ++ " option")
  | a :: rest => match waiting, a.toList with
    | some c, _ => (ofArguments known none rest).map (give c a)
    | none, ['-', '-'] => .ok { operands := rest }
    | none, '-' :: c :: cs => do
      let (found, waiting) ← letters known (c :: cs)
      return found.foldr (fun (c, v) => give c v) (← ofArguments known waiting rest)
    | none, _ => .ok { operands := a :: rest }

end Switches

/-- Works with the options of a command, unless they are wrong. -/
def withSwitches (known : String) (args : List String) (work : Switches → Act Unit) : Act Unit :=
  match Switches.ofArguments known.toList none args with
  | .ok s => work s
  | .error text => giveUp text

end LayerCache.Shell

/-! Commands of the shell on its variables and options. -/
namespace LayerCache.Shell

/-- A text in quotes that reads back as itself: single ones, and double ones around those. -/
def requote : Nat → List Char → List Char
  | 0, _ => []
  | fuel + 1, cs =>
    let part := cs.takeWhile (· != '\'')
    let rest := cs.drop part.length
    let quotes := rest.takeWhile (· = '\'')
    '\'' :: part ++ '\'' :: if quotes.isEmpty then []
      else
        let after := rest.drop quotes.length
        '"' :: quotes ++ '"' :: if after.isEmpty then [] else requote fuel after

def requoted (text : String) : String := String.ofList (requote (text.length + 1) text.toList)

/-- The name and perhaps the value in an argument. -/
def nameAndValue (arg : String) : String × Option String :=
  match Program.binding? arg with
  | some (name, value) => (name, some value)
  | none => (arg, none)

/-- Works on variables by their names, each perhaps with a new value. -/
def withNames (args : List String) (work : String → Option String → Act Unit) : Act Unit := do
  finish 0
  args.forM fun arg => do
    if ← hasJumped then return
    let (name, value) := nameAndValue arg
    if Word.isName name then work name value
    else giveUp (name ++ ": bad variable name")

def mark (change : Variable → Variable) (name : String) (value : Option String) : Act Unit := do
  value.forM (setVariable name ·)
  modify fun st =>
    let marked := change ((st.vars.find? name).getD { value := none })
    { st with vars := st.vars.insert name marked }

/-- Shows variables of some kind as commands that mark them so. -/
def showMarked (command : String) (isSo : Variable → Bool) : Act Unit := do
  (← get).vars.pairs.forM fun (name, v) => do
    if isSo v then
      let value := v.value.elim "" fun text => "=" ++ requoted text
      write 1 (command ++ " " ++ name ++ value ++ "\n").toList

def «export» (args : List String) : Act Unit :=
  withSwitches "p" args fun s => do
    finish 0
    if s.has 'p' || s.operands.isEmpty then showMarked "export" Variable.exported
    else withNames s.operands (mark fun v => { v with exported := true })

def fix (args : List String) : Act Unit :=
  withSwitches "p" args fun s => do
    finish 0
    if s.has 'p' || s.operands.isEmpty then showMarked "readonly" Variable.fixed
    else withNames s.operands (mark fun v => { v with fixed := true })

def hideLocally (args : List String) : Act Unit := do
  if (← get).calls = 0 then giveUp "not in a function"
  else withNames args fun name value => do
    modify fun st => { st with hidden := match st.hidden with
      | frame :: outer => ((name, st.vars.find? name) :: frame) :: outer
      | [] => [] }
    value.forM (setVariable name ·)

def forgetVariable (name : String) : Act Unit := do
  let st ← get
  if (st.vars.find? name).any Variable.fixed then giveUp (name ++ ": is read only")
  else set { st.changed name with vars := st.vars.erase name }

def forget (args : List String) : Act Unit :=
  withSwitches "fv" args fun s => do
    finish 0
    let kind := (s.given.getLast?.map Prod.fst).getD ' '
    s.operands.forM fun name => do
      if ← hasJumped then return
      let st ← get
      if kind = 'f' then set { st with functions := st.functions.erase name }
      else if !Word.isName name then giveUp (name ++ ": bad variable name")
      else forgetVariable name

def optionNames : List (String × Char) :=
  [("errexit", 'e'), ("noglob", 'f'), ("ignoreeof", 'I'), ("interactive", 'i'), ("monitor", 'm'),
    ("noexec", 'n'), ("stdin", 's'), ("xtrace", 'x'), ("verbose", 'v'), ("vi", 'V'), ("emacs", 'E'),
    ("noclobber", 'C'), ("allexport", 'a'), ("notify", 'b'), ("nounset", 'u'), ("privileged", 'p'),
    ("nolog", 'l'), ("debug", 'd')]

/-- Shows which options are set, for reading or as commands that set them. -/
def showOptions (asCommands : Bool) : Act Unit := do
  if !asCommands then write 1 "Current option settings\n".toList
  let st ← get
  optionNames.forM fun (name, c) => write 1 (
    if asCommands then ("set " ++ (if st.has c then "-o " else "+o ") ++ name ++ "\n").toList
    else Chars.padRight 16 name.toList ++ (if st.has c then "on\n" else "off\n").toList)

def setOption (turnOn : Bool) (c : Char) : Act Unit := modify fun st =>
  let others := st.options.filter (· != c)
  { st with options := if turnOn then others ++ [c] else others }

/-- Options in front, and arguments behind them or behind two dashes. -/
def setOptions : Nat → List String → Act Unit
  | 0, _ => return
  | fuel + 1, args => do
    match args with
    | [] => return
    | "--" :: rest => modify fun st => { st with arguments := rest }
    | "-" :: rest => if !rest.isEmpty then modify fun st => { st with arguments := rest }
    | ["-o"] => showOptions false
    | ["+o"] => showOptions true
    | "-o" :: name :: rest | "+o" :: name :: rest => match optionNames.lookup name with
      | some c =>
        setOption (args.head? = some "-o") c
        setOptions fuel rest
      | none => giveUp ("Illegal option -o " ++ name)
    | a :: rest => match a.toList with
      | sign :: letters =>
        if sign != '-' && sign != '+' then modify fun st => { st with arguments := args }
        else match letters.find? fun c => !"efIimnsxvVECabuph".toList.contains c with
          | some c => giveUp ("Illegal option " ++ String.ofList [sign, c])
          | none =>
            letters.forM (setOption (sign = '-') ·)
            setOptions fuel rest
      | [] => modify fun st => { st with arguments := args }

def setAll (args : List String) : Act Unit := do
  finish 0
  if args.isEmpty then
    (← get).vars.pairs.forM fun (name, v) =>
      v.value.forM fun text => write 1 (name ++ "=" ++ requoted text ++ "\n").toList
  else setOptions (args.length + 1) args

end LayerCache.Shell
