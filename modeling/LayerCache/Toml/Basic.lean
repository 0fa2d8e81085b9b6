import LayerCache.Decimal.Binary64

/-! Dates and times of day as configuration files write them: a date, a time or both, and with
both an offset. -/
namespace LayerCache.Toml

structure Date where
  year : Nat
  month : Nat
  day : Nat
  deriving DecidableEq, Repr

structure Time where
  hour : Nat
  minute : Nat
  second : Nat
  nanosecond : Nat
  deriving DecidableEq, Repr

inductive Offset where
  | universal
  | minutes (behind : Bool) (count : Nat)
  deriving DecidableEq, Repr

structure Datetime where
  date : Option Date
  time : Option Time
  offset : Option Offset
  deriving DecidableEq, Repr

def daysIn (year month : Nat) : Nat :=
  if month = 2 then
    if year % 4 = 0 ∧ (year % 100 ≠ 0 ∨ year % 400 = 0) then 29 else 28
  else if month = 4 ∨ month = 6 ∨ month = 9 ∨ month = 11 then 30
  else 31

def padded (width n : Nat) : String :=
  let digits := Nat.repr n
  "".pushn '0' (width - digits.length) ++ digits

def Date.render (d : Date) : String :=
  padded 4 d.year ++ "-" ++ padded 2 d.month ++ "-" ++ padded 2 d.day

/-- A fraction is written to its last digit that is not zero. -/
def Time.render (t : Time) : String :=
  let fraction := ((padded 9 t.nanosecond).toList.reverse.dropWhile (· == '0')).reverse
  padded 2 t.hour ++ ":" ++ padded 2 t.minute ++ ":" ++ padded 2 t.second ++
    (if fraction.isEmpty then "" else "." ++ String.ofList fraction)

def Offset.render : Offset → String
  | universal => "Z"
  | minutes behind count =>
    (if behind then "-" else "+") ++ padded 2 (count / 60) ++ ":" ++ padded 2 (count % 60)

def Datetime.render (d : Datetime) : String :=
  (match d.date with | some date => date.render | none => "") ++
    (if d.date.isSome && d.time.isSome then "T" else "") ++
    (match d.time with | some time => time.render | none => "") ++
    (match d.offset with | some offset => offset.render | none => "")

end LayerCache.Toml

/-! Values of configuration files. Tables keep their keys in the order they were written. -/
namespace LayerCache

inductive Toml where
  | text (value : String)
  | integer (value : Int)
  | float (value : Binary64)
  | bool (value : Bool)
  | datetime (value : Toml.Datetime)
  | array (items : List Toml)
  | table (fields : List (String × Toml))

namespace Toml

abbrev Fields := List (String × Toml)

/-- The kind of a value, as messages name it. -/
def kind : Toml → String
  | text _ => "string"
  | integer _ => "integer"
  | float _ => "float"
  | bool _ => "boolean"
  | datetime _ => "datetime"
  | array _ => "array"
  | table _ => "table"

def isTable : Toml → Bool
  | table _ => true
  | _ => false

/-- An array of tables alone, and of at least one: it has a form of its own. -/
def rows? : Toml → Option (List Fields)
  | array (item :: items) => (item :: items).mapM fun
    | table fields => some fields
    | _ => none
  | _ => none

end Toml
end LayerCache
