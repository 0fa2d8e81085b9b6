import LayerCache.Text.Ascii

/-! The environment a build runs for. Only production builds fill the cache. -/
namespace LayerCache

inductive Environment where
  | dev
  | test
  | prod
  deriving DecidableEq, Repr

namespace Environment

def name : Environment → String
  | dev => "dev"
  | test => "test"
  | prod => "prod"

instance : ToString Environment := ⟨name⟩

def all : List Environment := [dev, test, prod]

def isProduction : Environment → Bool
  | prod => true
  | _ => false

/-- The environment of an exact name, as files store it. -/
def ofName? (name : String) : Option Environment := all.find? fun e => e.name == name

theorem ofName?_name (e : Environment) : ofName? e.name = some e := by cases e <;> decide

/-- Why a name typed by a user is none. -/
structure Unknown where
  input : String

def Unknown.message (u : Unknown) : String :=
  "unknown build environment '" ++ u.input ++ "' (expected dev, test or prod)"

/-- Users may also write the long names, in any case and with blanks around. -/
def parse (input : String) : Except Unknown Environment :=
  match Text.lower (Text.trim input) with
  | "dev" | "development" => .ok dev
  | "test" => .ok test
  | "prod" | "production" => .ok prod
  | _ => .error ⟨input⟩

def describe : Environment → String
  | dev => "Dev"
  | test => "Test"
  | prod => "Prod"

end Environment
end LayerCache
