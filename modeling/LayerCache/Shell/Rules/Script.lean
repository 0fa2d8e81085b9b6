import LayerCache.Shell.Regex.Basic
import LayerCache.Shell.Rules.Value

/-! Scripts of rules: patterns that pick records, and what is done with those. -/
namespace LayerCache.Rules

inductive Sign where
  | plus
  | minus
  | times
  | divide
  | remainder
  | power
  deriving DecidableEq, Repr

inductive Relation where
  | less
  | lessOrEqual
  | equal
  | notEqual
  | greater
  | greaterOrEqual
  deriving DecidableEq, Repr

/-- Functions that are always there. -/
inductive Known where
  | length
  | substr
  | index
  | split
  | sub
  | gsub
  | matching
  | sprintf
  | sin
  | cos
  | atan2
  | exp
  | log
  | sqrt
  | int
  | rand
  | srand
  | toLower
  | toUpper
  | system
  | close
  | flush
  | systemTime
  | makeTime
  | formatTime
  deriving DecidableEq, Repr

/-- What is read from: the records, a file, or a command. -/
inductive From where
  | records
  | file
  | command
  deriving DecidableEq, Repr

inductive Expr where
  | number (x : Float)
  | text (cs : List Char)
  | regex (r : Regex)
  | name (n : String)
  | element (table : String) (index : List Expr)
  | field (place : Expr)
  | assign (goal : Expr) (value : Expr)
  | change (sign : Sign) (goal : Expr) (value : Expr)
  /-- Counts up or down, and gives the value there is before or after that. -/
  | step (sign : Sign) (before : Bool) (goal : Expr)
  | choose (test first second : Expr)
  | or (a b : Expr)
  | and (a b : Expr)
  | within (index : List Expr) (table : String)
  | matches_ (negated : Bool) (text pattern : Expr)
  | compare (r : Relation) (a b : Expr)
  | join (a b : Expr)
  | calculate (sign : Sign) (a b : Expr)
  | not (a : Expr)
  | negate (a : Expr)
  | affirm (a : Expr)
  | known (f : Known) (args : List Expr)
  | call (f : String) (args : List Expr)
  | getLine (source : From) (name : Option Expr) (goal : Option Expr)
  /-- In parentheses, where a place is no longer one. Several values mean something in few places. -/
  | group (parts : List Expr)
  deriving Inhabited

/-- Where output goes to, if not to the usual place. -/
inductive Target where
  | file
  | ending
  | command
  deriving DecidableEq, Repr

inductive Statement where
  | block (parts : List Statement)
  | expr (e : Expr)
  | print (args : List Expr) (goal : Option (Target × Expr))
  | printf (args : List Expr) (goal : Option (Target × Expr))
  | branch (test : Expr) (yes : Statement) (no : Option Statement)
  | while (test : Expr) (body : Statement)
  | doWhile (body : Statement) (test : Expr)
  | for (start test step : Option Expr) (body : Statement)
  | forEach (name table : String) (body : Statement)
  | next
  | nextFile
  | exit (status : Option Expr)
  | return (value : Option Expr)
  | break
  | continue
  | delete (table : String) (index : Option (List Expr))
  deriving Inhabited

inductive Pick where
  | always
  | matching (e : Expr)
  | between (first last : Expr)

structure Routine where
  parameters : List String
  body : Statement
  deriving Inhabited

structure Script where
  begins : List Statement := []
  rules : List (Pick × Option Statement) := []
  ends : List Statement := []
  routines : List (String × Routine) := []

end LayerCache.Rules
