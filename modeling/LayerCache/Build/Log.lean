/-! What happened to each unit of a build: a list of events, their counts, and the lines a
listener hears. A skipped unit is not heard of. -/
namespace LayerCache

inductive Outcome where
  | compiled
  | skipped
  | error
  deriving DecidableEq, Repr

def Outcome.name : Outcome → String
  | compiled => "compiled"
  | skipped => "skipped"
  | error => "error"

/-- The message is the source's name, the reason of a skip or the text of a failure. -/
structure Event where
  unit : String
  outcome : Outcome
  message : String
  deriving DecidableEq, Repr

structure Log where
  events : List Event
  compiled : Nat
  skipped : Nat
  errors : Nat
  /-- Whether somebody listens. -/
  heard : Bool
  lines : List String
  deriving DecidableEq, Repr

namespace Log

def start (heard : Bool) : Log := ⟨[], 0, 0, 0, heard, []⟩

def say (log : Log) (line : String) : Log :=
  if log.heard then { log with lines := log.lines ++ [line] } else log

def push (log : Log) (event : Event) : Log := { log with events := log.events ++ [event] }

def compileLine (name : String) : String := ":compile " ++ name

def errorLine (unit message context : String) : String :=
  "[ERROR] Unable to compile '" ++ unit ++ "', " ++ message ++ ", " ++ context

def addCompiled (log : Log) (unit name : String) : Log :=
  ({ log with compiled := log.compiled + 1 }.say (compileLine name)).push ⟨unit, .compiled, name⟩

def addSkipped (log : Log) (unit reason : String) : Log :=
  { log with skipped := log.skipped + 1 }.push ⟨unit, .skipped, reason⟩

def addError (log : Log) (unit message context : String) : Log :=
  ({ log with errors := log.errors + 1 }.say (errorLine unit message context)).push
    ⟨unit, .error, message⟩

/-- Hands the events over; the counts go on. -/
def take (log : Log) : List Event × Log := (log.events, { log with events := [] })

def describe (log : Log) : String :=
  "BuildLog \x7b compiled: " ++ toString log.compiled ++ ", skipped: " ++ toString log.skipped ++
    ", errors: " ++ toString log.errors ++ ", silent: " ++ toString (!log.heard) ++ " \x7d"

end Log
end LayerCache
