import LayerCache.Disk.Attributes
import LayerCache.Shell.Program.Options

/-! Conditions on texts, numbers and files, given as arguments within scripts. -/
namespace LayerCache.Program.Condition

inductive Operator where
  | unary
  | binary
  | negation
  | opening
  | closing
  | conjunction
  | disjunction
  deriving DecidableEq, Repr

def unaryNames : List String :=
  ["-n", "-z", "-e", "-f", "-d", "-r", "-w", "-x", "-s", "-L", "-h", "-c", "-b", "-p", "-S", "-t",
    "-u", "-g", "-k", "-O", "-G"]

def binaryNames : List String :=
  ["=", "!=", "<", ">", "-eq", "-ne", "-lt", "-le", "-gt", "-ge", "-nt", "-ot", "-ef"]

/-- What a text means where an operator may stand. -/
def operator? (text : String) : Option Operator :=
  if unaryNames.contains text then some .unary
  else if binaryNames.contains text then some .binary
  else [("!", .negation), ("(", .opening), (")", .closing), ("-a", .conjunction),
    ("-o", .disjunction)].lookup text

/-- Whether what stands behind a unary operator makes a text of it. -/
def standsAlone : List String → Bool
  | [] => true
  | [_] => false
  | next :: _ => operator? next = some .binary

/-- The operator at the head of the arguments, if it is one there. -/
def lex : List String → Option Operator
  | [] => none
  | text :: rest => match operator? text with
    | some .unary => if standsAlone rest then none else some .unary
    | some .opening => if rest.isEmpty then none else some .opening
    | other => other

def number (text : String) : Except String Int :=
  match Chars.int? (text.toList.dropWhile (· = ' ')) with
  | some n => .ok n
  | none => .error ("Illegal number: " ++ text)

/-- Whether an entry is there with some of the bits of its access set. -/
def permits (d : Disk) (file : Path) (bits : Nat) : Bool :=
  match d.stat file with
  | .ok (place, entry) => d.modeOf place entry &&& bits != 0
  | .error _ => false

def isPipe (d : Disk) (file : Path) : Bool :=
  match d.stat file with
  | .ok (place, _) => (d.traits.find? place).any Traits.isPipe
  | .error _ => false

def unary (d : Disk) (name operand : String) : Except String Bool :=
  let file := path operand
  match name with
  | "-n" => .ok (operand != "")
  | "-z" => .ok (operand == "")
  | "-e" | "-r" | "-w" | "-O" | "-G" => .ok (d.exists file)
  | "-f" => .ok (d.isFile file && !isPipe d file)
  | "-d" => .ok (d.isFolder file)
  | "-x" => .ok (permits d file 0o111)
  | "-u" => .ok (permits d file 0o4000)
  | "-g" => .ok (permits d file 0o2000)
  | "-k" => .ok (permits d file 0o1000)
  | "-p" => .ok (isPipe d file)
  | "-s" => .ok ((d.read file).toOption.any (·.size != 0) || d.isFolder file)
  | "-c" => .ok (d.stat file matches .ok (_, .device _))
  | "-L" | "-h" => .ok (d.find .self file matches .ok (.taken _ (.link _)))
  | "-t" => (number operand).map fun _ => false
  | _ => .ok false

def age (d : Disk) (name : String) : Option (List Int) :=
  (d.stat (path name)).toOption.map fun (place, entry) => d.ageOf place entry

def binary (d : Disk) (left name right : String) : Except String Bool :=
  let compare (holds : Int → Int → Bool) : Except String Bool := do
    return holds (← number left) (← number right)
  match name with
  | "=" | "==" => .ok (left == right)
  | "!=" => .ok (left != right)
  | "<" => .ok (decide (left < right))
  | ">" => .ok (decide (right < left))
  | "-eq" => compare (· == ·)
  | "-ne" => compare (· != ·)
  | "-lt" => compare fun a b => a < b
  | "-le" => compare fun a b => a ≤ b
  | "-gt" => compare fun a b => b < a
  | "-ge" => compare fun a b => b ≤ a
  | "-nt" => .ok (match age d left, age d right with
    | some a, some b => Disk.isNewer a b
    | some _, none => true
    | _, _ => false)
  | "-ot" => .ok (match age d left, age d right with
    | some a, some b => Disk.isNewer b a
    | none, some _ => true
    | _, _ => false)
  | _ => .ok (match d.stat (path left), d.stat (path right) with
    | .ok (a, _), .ok (b, _) => d.areSame a b
    | _, _ => false)

abbrev Reading := Except String (Bool × List String)

/-- Readers start at the head and leave the last argument they used at the head. -/
def comparison (d : Disk) : List String → Reading
  | left :: name :: right :: rest => do return (← binary d left name right, right :: rest)
  | _ :: name :: [] => .error (name ++ ": argument expected")
  | rest => .ok (false, rest)

mutual

def primary (d : Disk) : Nat → Option Operator → List String → Reading
  | 0, _, rest => .ok (false, rest)
  | _ + 1, _, [] => .ok (false, [])
  | fuel + 1, some .opening, _ :: rest =>
    if lex rest = some .closing then .ok (false, rest)
    else match disjunction d fuel (lex rest) rest with
      | .ok (holds, _ :: ")" :: rest) => .ok (holds, ")" :: rest)
      | .ok _ => .error "closing paren expected"
      | .error flaw => .error flaw
  | _ + 1, some .unary, name :: rest => match rest with
    | [] => .error (name ++ ": argument expected")
    | operand :: more => (unary d name operand).map (·, operand :: more)
  | _ + 1, _, text :: rest =>
    if lex rest = some .binary then comparison d (text :: rest)
    else .ok (text != "", text :: rest)

def negation (d : Disk) : Nat → Option Operator → List String → Reading
  | 0, _, rest => .ok (false, rest)
  | fuel + 1, some .negation, text :: rest =>
    let result := if rest.isEmpty then .ok (false, [text])
      else negation d fuel (lex rest) rest
    match result with
    | .ok (holds, rest) => .ok (!holds, rest)
    | .error flaw => .error flaw
  | fuel + 1, o, rest => primary d fuel o rest

def conjunction (d : Disk) : Nat → Option Operator → List String → Reading
  | 0, _, rest => .ok (false, rest)
  | fuel + 1, o, rest => match negation d fuel o rest with
    | .ok (holds, last :: sign :: rest) =>
      if lex (sign :: rest) = some .conjunction then
        match conjunction d fuel (lex rest) rest with
        | .ok (others, rest) => .ok (holds && others, rest)
        | .error flaw => .error flaw
      else .ok (holds, last :: sign :: rest)
    | other => other

def disjunction (d : Disk) : Nat → Option Operator → List String → Reading
  | 0, _, rest => .ok (false, rest)
  | fuel + 1, o, rest => match conjunction d fuel o rest with
    | .ok (holds, last :: sign :: rest) =>
      if lex (sign :: rest) = some .disjunction then
        match disjunction d fuel (lex rest) rest with
        | .ok (others, rest) => .ok (holds || others, rest)
        | .error flaw => .error flaw
      else .ok (holds, last :: sign :: rest)
    | other => other

end

/-- Whether arguments hold; few arguments are read by their number first. -/
def holds (d : Disk) (args : List String) : Except String Bool := do
  let isBinary := args.length = 3 && ((args[1]?).bind operator?) = some .binary
  let (turned, rest) :=
    if isBinary || (args.length != 3 && args.length != 4) then (false, args)
    else if args.head? = some "(" && args.getLast? = some ")" then (false, args.tail.dropLast)
    else if args.head? = some "!" then (true, args.tail)
    else (false, args)
  if rest.isEmpty then return turned
  else
    let start := if isBinary then none else lex rest
    match ← disjunction d (4 * rest.length + 8) start rest with
    | (_, text :: _ :: _) => throw (text ++ ": unexpected operator")
    | (result, _) => return result != turned

end Condition

/-- The bracketed spelling wants its closing bracket. -/
def test (p : Process) (bracketed : Bool) : Work Unit := do
  if bracketed && p.args.getLast? != some "]" then complain p "missing ]" 2
  else
    match Condition.holds (← get).disk (if bracketed then p.args.dropLast else p.args) with
    | .ok true => finish 0
    | .ok false => finish 1
    | .error flaw => complain p flaw 2

end LayerCache.Program
