import LayerCache.Environment
import LayerCache.Toml.Basic

/-! What a configuration value says, read as a value of another type. -/
namespace LayerCache.Toml

def text? : Toml → Option String
  | text s => some s
  | _ => none

def list? {α : Type} (item? : Toml → Option α) : Toml → Option (List α)
  | array items => items.mapM item?
  | _ => none

/-- One text stands for a list of itself. -/
def texts? : Toml → Option (List String)
  | text s => some [s]
  | v => list? text? v

def fieldIn (key : String) : Fields → Option Toml
  | [] => none
  | (k, v) :: rest => if k = key then some v else fieldIn key rest

/-- The members of a record by key. An array gives them in the order of the keys; a date is taken
for a record of nothing known. -/
def record? (keys : List String) : Toml → Option (String → Option Toml)
  | table fields => some fun key => fieldIn key fields
  | array items => some fun key => items[keys.idxOf key]?
  | datetime _ => some fun _ => none
  | _ => none

/-- A member that must be there. -/
def required {α : Type} (value? : Toml → Option α) (member : Option Toml) : Option α :=
  member.bind value?

/-- A member that may be left out. -/
def optional {α : Type} (value? : Toml → Option α) (member : Option Toml) : Option (Option α) :=
  match member with
  | none => some none
  | some v => (value? v).map some

def defaulting {α : Type} (value? : Toml → Option α) (default : α) (member : Option Toml) :
    Option α := (optional value? member).map (·.getD default)

/-- The name of a constant, bare or as the only key over an empty collection. -/
def constant? : Toml → Option String
  | text s => some s
  | table [(key, table [])] => some key
  | table [(key, array [])] => some key
  | _ => none

end LayerCache.Toml

namespace LayerCache

def Environment.ofToml? (v : Toml) : Option Environment := do ofName? (← v.constant?)

end LayerCache
