import LayerCache.Disk.Basic
import LayerCache.Disk.Fault
import LayerCache.Path
import LayerCache.Text.Ascii
import LayerCache.Toml.Decode
import LayerCache.Toml.Reader

/-! Why a configuration or the settings beside it cannot be used. -/
namespace LayerCache

inductive ConfigError where
  | disk (fault : Fault)
  /-- The text does not follow the format, or holds a value of the wrong kind. -/
  | malformed
  | missing (field : String)
  | notBareExtension (field extension : String)
  | sameExtensions
  | emptyRoot
  | notBoolean (key kind : String)
  | unwritableSettings (path : Path) (fault : Fault)
  deriving DecidableEq

namespace ConfigError

def malformedMessage : String := "failed to parse configuration: "

def invalid (text : String) : String := "validation error: " ++ text

def message : ConfigError → String
  | disk fault => "failed to read configuration: " ++ fault.message
  | malformed => malformedMessage
  | missing field => "missing required field: " ++ field
  | notBareExtension field extension =>
    invalid (field ++ " must be a bare extension, got '" ++ extension ++ "'")
  | sameExtensions => invalid "compile.source_ext and compile.artifact_ext must differ"
  | emptyRoot => invalid "sources.roots must not contain empty paths"
  | notBoolean key kind => invalid ("setting '" ++ key ++ "' must be a boolean, found " ++ kind)
  | unwritableSettings path fault =>
    "failed to write settings to " ++ path.text ++ ": " ++ fault.message

end ConfigError
end LayerCache

/-! The configuration of a project, as its file states it. -/
namespace LayerCache

structure Sources where
  /-- The folder whose artifacts pre-compilation invalidates. -/
  primary : String := "src"
  /-- The folder of generated sources, before every other root. -/
  generated : String := "src_generated"
  /-- The folder cleared of stray artifacts; the primary one if not given. -/
  staging : Option String := none
  roots : List String := ["src"]

structure Naming where
  sourceExt : String := "php"
  artifactExt : String := "phb"
  /-- Archive entries under this name are no units. -/
  reserved : String := "JPHP-INF/"
  entryPoints : List String := []

/-- An external command, run once per unit. -/
structure CommandSpec where
  command : String
  args : List String

structure BundleSpec where
  name : String
  vendor : String
  /-- None stands for every environment. -/
  envs : List Environment

def BundleSpec.appliesTo (b : BundleSpec) (env : Environment) : Bool :=
  b.envs.isEmpty || b.envs.contains env

structure Config where
  name : String
  version : String
  sources : Sources
  cacheDir : Option String
  naming : Naming
  compiler : Option CommandSpec
  archives : List String
  bundles : List BundleSpec

namespace Sources

def ofToml? (v : Toml) : Option Sources := do
  let member ← v.record? ["primary", "generated", "staging", "roots"]
  let standard : Sources := {}
  return {
    primary := ← Toml.defaulting Toml.text? standard.primary (member "primary")
    generated := ← Toml.defaulting Toml.text? standard.generated (member "generated")
    staging := ← Toml.optional Toml.text? (member "staging")
    roots := ← Toml.defaulting Toml.texts? standard.roots (member "roots") }

end Sources

namespace Naming

def ofToml? (v : Toml) : Option Naming := do
  let member ← v.record? ["source_ext", "artifact_ext", "metadata_prefix", "entry_points"]
  let standard : Naming := {}
  return {
    sourceExt := ← Toml.defaulting Toml.text? standard.sourceExt (member "source_ext")
    artifactExt := ← Toml.defaulting Toml.text? standard.artifactExt (member "artifact_ext")
    reserved := ← Toml.defaulting Toml.text? standard.reserved (member "metadata_prefix")
    entryPoints := ← Toml.defaulting Toml.texts? [] (member "entry_points") }

end Naming

def CommandSpec.ofToml? (v : Toml) : Option CommandSpec := do
  let member ← v.record? ["command", "args"]
  return {
    command := ← Toml.required Toml.text? (member "command")
    args := ← Toml.defaulting (Toml.list? Toml.text?) [] (member "args") }

def BundleSpec.ofToml? (v : Toml) : Option BundleSpec := do
  let member ← v.record? ["name", "vendor", "envs"]
  return {
    name := ← Toml.required Toml.text? (member "name")
    vendor := ← Toml.required Toml.text? (member "vendor")
    envs := ← Toml.defaulting (Toml.list? Environment.ofToml?) [] (member "envs") }

namespace Config

def fileName : String := "strata.toml"

def archiveOfToml? (v : Toml) : Option String := do
  let member ← v.record? ["path"]
  Toml.required Toml.text? (member "path")

def cacheDirOfToml? (v : Toml) : Option (Option String) := do
  let member ← v.record? ["dir"]
  Toml.optional Toml.text? (member "dir")

def projectOfToml? (v : Toml) : Option (String × String) := do
  let member ← v.record? ["name", "version"]
  return (← Toml.required Toml.text? (member "name"),
    ← Toml.defaulting Toml.text? "" (member "version"))

def ofFields? (fields : Toml.Fields) : Option Config := do
  let member (key : String) := Toml.fieldIn key fields
  let (name, version) ← Toml.required projectOfToml? (member "project")
  return {
    name, version
    sources := ← Toml.defaulting Sources.ofToml? {} (member "sources")
    cacheDir := ← Toml.defaulting cacheDirOfToml? none (member "cache")
    naming := ← Toml.defaulting Naming.ofToml? {} (member "compile")
    compiler := ← Toml.optional CommandSpec.ofToml? (member "compiler")
    archives := ← Toml.defaulting (Toml.list? archiveOfToml?) [] (member "archives")
    bundles := ← Toml.defaulting (Toml.list? BundleSpec.ofToml?) [] (member "bundles") }

/-- An extension is not empty and holds neither a dot nor a separator. -/
def checkExtension (field ending : String) : Except ConfigError Unit :=
  if ending = "" then .error (.missing field)
  else if ending.toList.any fun c => c == '.' || c == '/' || c == '\\' then
    .error (.notBareExtension field ending)
  else .ok ()

/-- The first rule a configuration breaks, in this order. -/
def check (c : Config) : Except ConfigError Unit := do
  if c.name = "" then throw (.missing "project.name")
  checkExtension "compile.source_ext" c.naming.sourceExt
  checkExtension "compile.artifact_ext" c.naming.artifactExt
  if Text.sameIgnoringCase c.naming.sourceExt c.naming.artifactExt then throw .sameExtensions
  match c.compiler with
  | some compiler => if Text.isBlank compiler.command then throw (.missing "compiler.command")
  | none => pure ()
  if c.sources.roots.any Text.isBlank then throw .emptyRoot

def parse (text : String) : Except ConfigError Config := do
  match (Toml.parse text).bind ofFields? with
  | none => throw .malformed
  | some config => do
    config.check
    return config

def load (d : Disk) (folder : Path) : Except ConfigError Config :=
  match d.readText (folder.joinName fileName) with
  | .error fault => .error (.disk fault)
  | .ok text => parse text

end Config
end LayerCache
