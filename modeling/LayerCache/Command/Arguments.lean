import LayerCache.Environment
import LayerCache.Text.Lines

/-! The command line: which arguments make up a command, and which do not. Options may stand at any
level they are known at; the deeper one counts. -/
namespace LayerCache

inductive Command where
  | precompile
  | compile (env : Environment)
  | build (env : Environment)
  | clean
  | getSetting (key : String)
  | setSetting (key : String) (value : Bool)
  deriving DecidableEq, Repr

structure Globals where
  quiet : Bool
  verbose : Bool
  /-- The file or folder of a configuration, in place of a search for one. -/
  config : Option String
  deriving DecidableEq, Repr

/-- Why arguments are no command. -/
inductive Usage where
  | help
  | version
  | wrong
  deriving DecidableEq, Repr

namespace Arguments

inductive Kind where
  | switch
  | value (accepts : String → Bool)
  | tell (usage : Usage)

structure Flag where
  long : String
  short : Option Char
  kind : Kind

/-- What may stand at one level: flags, then either operands or the name of a command, each with
the names of the commands below it. -/
structure Level where
  flags : List Flag
  operands : List (String → Bool) := []
  commands : List (String × List String) := []

/-- What was found at one level. -/
structure Given where
  values : List (String × String) := []
  operands : List String := []

def Given.has (g : Given) (long : String) : Bool := g.values.any fun (name, _) => name == long

/-- A flag is given once at most. -/
def Given.add (g : Given) (long value : String) : Except Usage Given :=
  if g.has long then .error .wrong else .ok { g with values := g.values ++ [(long, value)] }

def looksLikeFlag (arg : String) : Bool := Text.startsWith arg "-" && arg != "-"

/-- The value of a flag: what was written with it, or the next argument. -/
def takeValue (attached : Option String) (rest : List String) :
    Except Usage (String × List String) :=
  match attached, rest with
  | some value, _ => .ok (value, rest)
  | none, next :: rest => if looksLikeFlag next then .error .wrong else .ok (next, rest)
  | none, [] => .error .wrong

def takeFlag (g : Given) (flag : Flag) (attached : Option String) (rest : List String) :
    Except Usage (Given × List String) := do
  match flag.kind with
  | .tell usage => throw (if attached.isSome then .wrong else usage)
  | .switch =>
    if attached.isSome then throw .wrong
    return (← g.add flag.long "", rest)
  | .value accepts =>
    let (value, rest) ← takeValue attached rest
    if !accepts value then throw .wrong
    return (← g.add flag.long value, rest)

/-- A long flag may carry its value behind an equals sign. -/
def takeLong (level : Level) (g : Given) (text : List Char) (rest : List String) :
    Except Usage (Given × List String) :=
  let name := text.takeWhile (· != '=')
  let attached := match text.drop name.length with
    | _ :: value => some (String.ofList value)
    | [] => none
  match level.flags.find? fun flag => flag.long == String.ofList name with
  | some flag => takeFlag g flag attached rest
  | none => .error .wrong

/-- Switches may share one dash; a flag with a value ends them and may have it behind it. -/
def takeShorts (level : Level) (g : Given) : List Char → List String →
    Except Usage (Given × List String)
  | [], rest => .ok (g, rest)
  | c :: cs, rest =>
    match level.flags.find? fun flag => flag.short == some c with
    | none => .error .wrong
    | some flag => match flag.kind, cs with
      | .value _, [] => takeFlag g flag none rest
      | .value _, '=' :: value => takeFlag g flag (some (String.ofList value)) rest
      | .value _, value => takeFlag g flag (some (String.ofList value)) rest
      | _, cs => match takeFlag g flag none rest with
        | .ok (g, rest) => takeShorts level g cs rest
        | .error usage => .error usage

def takeOperand (level : Level) (g : Given) (arg : String) : Except Usage Given :=
  match level.operands[g.operands.length]? with
  | some accepts =>
    if accepts arg then .ok { g with operands := g.operands ++ [arg] } else .error .wrong
  | none => .error .wrong

/-- Asking for help on something that is there: a command, by the way to it, or help itself. -/
def helpOn (commands : List (String × List String)) : List String → Usage
  | [] => .help
  | name :: rest => match commands.lookup name with
    | some below => helpOn (below.map (·, [])) rest
    | none => if name = "help" ∧ commands ≠ [] ∧ rest = [] then .help else .wrong

/-- Reads one level, up to the name of a command of the next one. -/
def scan (level : Level) : Nat → Given → List String →
    Except Usage (Given × Option (String × List String))
  | 0, _, _ => .error .wrong
  | _ + 1, g, [] => .ok (g, none)
  | fuel + 1, g, arg :: rest => do
    if arg = "--" then
      let g ← rest.foldlM (takeOperand level) g
      return (g, none)
    else if looksLikeFlag arg then
      let (g, rest) ← match arg.toList with
        | '-' :: '-' :: text => takeLong level g text rest
        | cs => takeShorts level g (cs.drop 1) rest
      scan level fuel g rest
    else if (level.commands.lookup arg).isSome then return (g, some (arg, rest))
    else if arg = "help" && !level.commands.isEmpty then throw (helpOn level.commands rest)
    else
      let g ← takeOperand level g arg
      scan level fuel g rest

def readLevel (level : Level) (args : List String) :
    Except Usage (Given × Option (String × List String)) := scan level (args.length + 1) {} args

def anyText : String → Bool := fun _ => true

def globalFlags : List Flag := [⟨"quiet", some 'q', .switch⟩, ⟨"verbose", some 'v', .switch⟩,
  ⟨"config", none, .value anyText⟩, ⟨"help", some 'h', .tell .help⟩]

def settingsCommands : List String := ["get", "set"]

def topLevel : Level :=
  { flags := globalFlags ++ [⟨"version", some 'V', .tell .version⟩]
    commands := [("precompile", []), ("compile", []), ("build", []), ("clean", []),
      ("settings", settingsCommands)] }

def plainLevel : Level := { flags := globalFlags }

def isEnvironment (text : String) : Bool := (Environment.parse text) matches .ok _

def buildLevel : Level :=
  { flags := globalFlags ++ [⟨"env", some 'e', .value isEnvironment⟩] }

def settingsLevel : Level := { flags := globalFlags, commands := settingsCommands.map (·, []) }

def getLevel : Level := { flags := globalFlags, operands := [anyText] }

def boolean? : String → Option Bool
  | "true" => some true
  | "false" => some false
  | _ => none

def setLevel : Level :=
  { flags := globalFlags, operands := [anyText, fun text => (boolean? text).isSome] }

/-- Production, unless another environment is named. -/
def environment (g : Given) : Environment :=
  match (g.values.lookup "env").map Environment.parse with
  | some (.ok env) => env
  | _ => .prod

/-- The flags of all levels together, the top one first. -/
def globals (levels : List Given) : Globals :=
  { quiet := levels.any (·.has "quiet"), verbose := levels.any (·.has "verbose")
    config := levels.reverse.findSome? fun g => g.values.lookup "config" }

def parseSetting (levels : List Given) (name : String) (args : List String) :
    Except Usage (Globals × Command) := do
  let (g, _) ← readLevel (if name = "get" then getLevel else setLevel) args
  match name, g.operands with
  | "get", [key] => return (globals (levels ++ [g]), .getSetting key)
  | "set", [key, value] =>
    return (globals (levels ++ [g]), .setSetting key ((boolean? value).getD false))
  | _, _ => throw .wrong

def parse (args : List String) : Except Usage (Globals × Command) := do
  match ← readLevel topLevel args with
  | (_, none) => throw .wrong
  | (top, some (name, args)) => match name with
    | "settings" => match ← readLevel settingsLevel args with
      | (_, none) => throw .wrong
      | (g, some (name, args)) => parseSetting [top, g] name args
    | "compile" =>
      let (g, _) ← readLevel buildLevel args
      return (globals [top, g], .compile (environment g))
    | "build" =>
      let (g, _) ← readLevel buildLevel args
      return (globals [top, g], .build (environment g))
    | "precompile" =>
      let (g, _) ← readLevel plainLevel args
      return (globals [top, g], .precompile)
    | _ =>
      let (g, _) ← readLevel plainLevel args
      return (globals [top, g], .clean)

end Arguments
end LayerCache
