import LayerCache.Disk.Edit
import LayerCache.Project.Config
import LayerCache.Toml.Scalar
import LayerCache.Toml.Reader
import LayerCache.Toml.Writer

/-! Switches that users flip between builds, kept in memory or in a file of their own. The file is
read anew for every question, so that a change from outside is seen. -/
namespace LayerCache

namespace SettingsFile

def read (d : Disk) (file : Path) : Except ConfigError (Dict String Toml) :=
  match d.readText file with
  | .ok text => match (Toml.parse text).bind Toml.revealFields with
    | some fields => .ok (Dict.ofList fields)
    | none => .error .malformed
  | .error .notFound => .ok .empty
  | .error fault => .error (.disk fault)

def get (d : Disk) (file : Path) (key : String) : Except ConfigError (Option Bool) :=
  match read d file with
  | .error e => .error e
  | .ok table => match table.find? key with
    | none => .ok none
    | some (.bool b) => .ok (some b)
    | some v => .error (.notBoolean key v.kind)

def write (d : Disk) (file : Path) (table : Dict String Toml) :
    Except ConfigError Unit × Disk :=
  let (made, d) := match file.parent with
    | some folder => d.makeFolders folder
    | none => (.ok (), d)
  match made with
  | .error fault => (.error (.unwritableSettings file fault), d)
  | .ok () => match d.write file (Toml.render table).toUTF8 with
    | .ok d => (.ok (), d)
    | .error fault => (.error (.unwritableSettings file fault), d)

/-- Sets one key and keeps all others. -/
def set (d : Disk) (file : Path) (key : String) (value : Bool) : Except ConfigError Unit × Disk :=
  match read d file with
  | .error e => (.error e, d)
  | .ok table => write d file (table.insert key (.bool value))

end SettingsFile

/-- A place for settings: a table in memory, a file, or a table whose next reading breaks down. -/
inductive Settings where
  | memory (values : Dict String Bool)
  | file (path : Path)
  | broken (values : Dict String Bool) (failure : String)

namespace Settings

def compileToCache : String := "compile_to_cache"

def preset (value : Bool) : Settings := .memory (Dict.empty.insert compileToCache value)

def unset : Settings := .memory .empty

/-- A reading ends in an answer, an error, or a breakdown that no caller expects. -/
inductive Reading where
  | answer (value : Option Bool)
  | error (e : ConfigError)
  | breakdown (failure : String)

def get (s : Settings) (d : Disk) (key : String) : Reading × Settings :=
  match s with
  | memory values => (.answer (values.find? key), s)
  | file path => match SettingsFile.get d path key with
    | .ok value => (.answer value, s)
    | .error e => (.error e, s)
  | broken values failure => (.breakdown failure, .memory values)

def set (s : Settings) (d : Disk) (key : String) (value : Bool) :
    Except ConfigError Unit × Settings × Disk :=
  match s with
  | memory values => (.ok (), .memory (values.insert key value), d)
  | file path =>
    let (result, d) := SettingsFile.set d path key value
    (result, s, d)
  | broken _ _ => (.ok (), s, d)

end Settings
end LayerCache
