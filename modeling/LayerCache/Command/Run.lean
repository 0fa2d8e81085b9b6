import LayerCache.Build.Worker
import LayerCache.Command.Arguments
import LayerCache.Compiler.External

/-! Running commands: what they print, what they return, and what they do to the disk. -/
namespace LayerCache

/-- What a command prints, and its exit code. -/
structure Command.Answer where
  code : Nat := 0
  output : List String := []
  notices : List String := []

open Command (Answer)

/-- A project with its configuration. -/
structure Project where
  config : Config
  layout : Layout

namespace Project

/-- The folder a command starts in. -/
def here (d : Disk) : Path := ⟨"/" ++ Text.join "/" d.here⟩

/-- The nearest folder with a configuration, from the given one upwards. -/
def findRoot (d : Disk) (start : Path) : Except String Path :=
  match start.ancestors.find? fun p => d.exists (p.joinName Config.fileName) with
  | some folder => .ok folder
  | none => .error
    ("could not find " ++ Config.fileName ++ " in " ++ start.text ++ " or any parent directory")

def root (d : Disk) (g : Globals) : Except String Path :=
  match g.config with
  | none => findRoot d (here d)
  | some text => .ok (if d.isFile ⟨text⟩ then (Path.mk text).parent.getD ⟨"."⟩ else ⟨text⟩)

def load (d : Disk) (g : Globals) : Except String Project := do
  let root ← root d g
  match Config.load d root with
  | .ok config => return ⟨config, .resolve root config⟩
  | .error e => throw e.message

/-- A compiler for commands that never compile. -/
def noCompiler : Service := fun _ _ => .fail (.rejected "no compiler configured" none)

def builder (p : Project) (service : Service) : Builder :=
  ⟨p.layout, service, .listed p.layout.bundles⟩

def compiler (p : Project) (programs : Programs) : Except String Service :=
  match p.config.compiler with
  | some spec => .ok (External.service programs spec)
  | none => .error ("no [compiler] table in " ++ Config.fileName)

def site (p : Project) (d : Disk) : Site := ⟨d, .file p.layout.settingsPath, []⟩

/-- A failure of the whole command. -/
def failed (notices : List String) (message : String) : Answer :=
  { code := 1, notices := notices ++ ["error: " ++ message] }

/-- Notices that a quiet command keeps to itself. -/
def unlessQuiet (g : Globals) (notices : List String) : List String :=
  if g.quiet then [] else notices

def count (n : Nat) (what : String) : String := toString n ++ " " ++ what

def preparationNotices (g : Globals) (p : Preparation) : List String :=
  unlessQuiet g (
    ["     Ignored " ++ count p.ignored "source(s), invalidated " ++
      count p.invalidated "artifact(s), removed " ++ count p.staleRemoved "stale file(s)"] ++
    (if p.failed = 0 then []
      else ["warning: " ++ count p.failed "artifact(s) could not be invalidated"]) ++
    if g.verbose then ["     Ignore list " ++ p.ignoreList.text] else [])

def summaryNotices (g : Globals) (name : String) (s : Summary) : List String :=
  unlessQuiet g [
    if s.ran then
      "    " ++ (if s.cancelled then "Cancelled" else "Finished") ++ " " ++ name ++ ": " ++
        count s.compiled "compiled, " ++ count s.skipped "skipped, " ++ count s.errors "error(s)"
    else "     Skipped compile (not a production build, or compile_to_cache is off)"]

def summaryCode (s : Summary) : Nat := if s.errors = 0 then 0 else 1

/-- A quiet command shows only the lines of failures. -/
def shownLines (g : Globals) (lines : List String) : List String :=
  if g.quiet then lines.filter fun line => Text.startsWith line "[ERROR]" else lines

def precompile (p : Project) (g : Globals) (d : Disk) : Answer × Disk :=
  let header := unlessQuiet g ["  Precompiling " ++ p.config.name]
  match (p.builder noCompiler).prepare d with
  | (.error e, d) => (failed header e.message, d)
  | (.ok done, d) => ({ notices := header ++ preparationNotices g done }, d)

def header (p : Project) (g : Globals) (verb : String) (env : Environment) : List String :=
  unlessQuiet g [verb ++ " " ++ p.config.name ++ " (" ++ env.name ++ ")"]

def compile (p : Project) (g : Globals) (service : Service) (env : Environment) (d : Disk) :
    Answer × Disk :=
  let header := p.header g "   Compiling" env
  match (p.builder service).compile env true .never (p.site d) with
  | (.error e, s) => (failed header e.message, s.disk)
  | (.ok done, s) =>
    ({ code := summaryCode done, output := shownLines g done.lines,
       notices := header ++ summaryNotices g p.config.name done }, s.disk)

def build (p : Project) (g : Globals) (service : Service) (env : Environment) (d : Disk) :
    Answer × Disk :=
  let header := p.header g "    Building" env
  let (delivery, _, s) := Worker.idle.run (p.builder service) env (fun _ => []) (p.site d)
  match delivery.result with
  | .error e => (failed header e.message, s.disk)
  | .ok report =>
    ({ code := summaryCode report.summary, output := shownLines g delivery.lines,
       notices := header ++ preparationNotices g report.preparation ++
         summaryNotices g p.config.name report.summary }, s.disk)

def clean (p : Project) (g : Globals) (d : Disk) : Answer × Disk :=
  match (p.builder noCompiler).clean d with
  | (.error e, d) => (failed [] e.message, d)
  | (.ok n, d) =>
    let notice := "     Removed " ++ count n "artifact(s) from " ++ p.layout.cache.text
    ({ notices := unlessQuiet g [notice] }, d)

def getSetting (p : Project) (key : String) (d : Disk) : Answer :=
  match SettingsFile.get d p.layout.settingsPath key with
  | .error e => failed [] e.message
  | .ok value => { output := [(value.map toString).getD "unset"] }

def setSetting (p : Project) (g : Globals) (key : String) (value : Bool) (d : Disk) :
    Answer × Disk :=
  let file := p.layout.settingsPath
  match SettingsFile.set d file key value with
  | (.error e, d) => (failed [] e.message, d)
  | (.ok (), d) =>
    let notice := "     Set " ++ key ++ " = " ++ toString value ++ " in " ++ file.text
    ({ notices := unlessQuiet g [notice] }, d)

/-- Gives a compiler to a command that needs one. -/
def withCompiler (p : Project) (programs : Programs) (d : Disk)
    (run : Service → Answer × Disk) : Answer × Disk :=
  match p.compiler programs with
  | .ok service => run service
  | .error message => (failed [] message, d)

end Project

namespace Command

def run (programs : Programs) (g : Globals) (c : Command) (d : Disk) : Answer × Disk :=
  match Project.load d g with
  | .error message => (Project.failed [] message, d)
  | .ok p => match c with
    | precompile => p.precompile g d
    | compile env => p.withCompiler programs d fun service => p.compile g service env d
    | build env => p.withCompiler programs d fun service => p.build g service env d
    | clean => p.clean g d
    | getSetting key => (p.getSetting key d, d)
    | setSetting key value => p.setSetting g key value d

/-- Runs the command that arguments make up. -/
def runArguments (programs : Programs) (args : List String) (d : Disk) : Answer × Disk :=
  match Arguments.parse args with
  | .ok (g, c) => run programs g c d
  | .error .help => ({}, d)
  | .error .version => ({ output := ["strata " ++ Builder.version] }, d)
  | .error .wrong => ({ code := 2, notices := ["error: wrong arguments"] }, d)

end Command
end LayerCache
