import LayerCache.Shell.Calendar.Format
import LayerCache.Shell.Rules.State

/-! Functions that are always there, on values. -/
namespace LayerCache.Rules
namespace Functions

open Act

/-- The part of a text from a place on. Places before its beginning make the part longer. -/
def part (cs : List Char) (start : Int) (length? : Option Int) : List Char :=
  let length? := length?.map fun n => if start < 0 then n - start else n
  let rest := cs.drop (start - 1).toNat
  match length? with
  | some n => rest.take n.toNat
  | none => rest

/-- Where a text begins within another one; the first place is one. -/
def place (sought : List Char) : Nat → List Char → Nat
  | _, [] => 0
  | n, c :: rest => if sought.isPrefixOf (c :: rest) then n else place sought (n + 1) rest

/-- The next number of a row that looks accidental. -/
def draw (seed : UInt64) : UInt64 := seed * 6364136223846793005 + 1442695040888963407

def chanceOf (seed : UInt64) : Float := (seed >>> 11).toFloat / 9007199254740992.0

/-- The time that six numbers tell, in seconds. -/
def timeOf (cs : List Char) : Int :=
  let numbers := (Divider.words cs.length cs).map fun w => (Chars.int? w).getD 0
  match numbers with
  | year :: month :: day :: hour :: minute :: second :: _ =>
    let month := month - 1
    let days := Calendar.dayNumber (year + month.fdiv 12) (month.fmod 12 + 1) 1 + (day - 1)
    days * Calendar.daySeconds + hour * 3600 + minute * 60 + second
  | _ => -1

def usualTimeForm : String := "%c"

def system (s : Setting) (command : List Char) : Act Value := do
  flushAll
  let (_, ending) ← runCommand s (String.ofList command) none false
  return .ofNat (statusOf ending)

/-- Sends off what waits at one place, or at all. -/
def flushNamed (name? : Option (List Char)) : Act Value := do
  match name? with
  | none =>
    flushAll
    return .number 0.0
  | some [] =>
    flushAll
    return .number 0.0
  | some name => match (← get).outlets.find? fun o => o.name.toList = name with
    | some o =>
      flush o
      return .number 0.0
    | none => return .number (-1.0)

/-- Changes what chance starts from, and gives what it started from before. -/
def reseed (seed : Value) : Act Value := do
  let before := (← get).seed
  modify fun m => { m with seed, chance := seed.toFloat.toBits }
  return before

def apply (s : Setting) (f : Known) (args : List Value) : Act Value := do
  let now := Value.number (Figure.ofInt (← get).effects.disk.clock)
  let first := args.headD .unset
  let x := first.toFloat
  match f, args with
  | .substr, [v, start] =>
    return .text (part (← asText v) (Figure.clamp start.toFloat) none)
  | .substr, [v, start, length] =>
    return .text (part (← asText v) (Figure.clamp start.toFloat) (some (Figure.clamp length.toFloat)))
  | .index, [v, sought] =>
    let (cs, sought) := (← asText v, ← asText sought)
    return .ofNat (if sought.isEmpty then 1 else place sought 1 cs)
  | .length, _ => return .ofNat (← asText first).length
  | .sin, _ => return .number x.sin
  | .cos, _ => return .number x.cos
  | .atan2, [_, y] => return .number (Float.atan2 x y.toFloat)
  | .exp, _ => return .number x.exp
  | .log, _ => return .number x.log
  | .sqrt, _ => return .number x.sqrt
  | .int, _ => return .number (if x < 0.0 then x.ceil else x.floor)
  | .rand, _ =>
    modify fun m => { m with chance := draw m.chance }
    return .number (chanceOf (← get).chance)
  | .srand, [] => reseed now
  | .srand, _ => reseed first
  | .toLower, _ => return .text ((← asText first).map Char.toLower)
  | .toUpper, _ => return .text ((← asText first).map Char.toUpper)
  | .system, _ => system s (← asText first)
  | .close, _ => return .number (Figure.ofInt (← close s (String.ofList (← asText first))))
  | .flush, [] => flushNamed none
  | .flush, _ => flushNamed (some (← asText first))
  | .systemTime, _ => return now
  | .makeTime, _ => return .number (Figure.ofInt (timeOf (← asText first)))
  | .formatTime, _ =>
    let form ← if args.isEmpty then pure usualTimeForm.toList else asText first
    let seconds := Figure.clamp ((args[1]?).getD now).toFloat
    return .text (Calendar.write ⟨seconds, 0⟩ (String.ofList form))
  | _, _ => return .unset

end Functions
end LayerCache.Rules
