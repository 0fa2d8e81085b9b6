import LayerCache.Shell.Program.Condition

/-! Conditions that are programs of their own. Few arguments are read by their number first; more of
them are terms joined by words. -/
namespace LayerCache.Program.Assertion

/-- The arguments from some place on, all that there are, and what closes them. -/
structure Rest where
  args : List String
  all : List String
  closing : Option String

abbrev Judge := StateT Rest (Except String)

def isBinary (text : String) : Bool :=
  ["=", "==", "!=", "-nt", "-ot", "-ef", "-eq", "-ne", "-lt", "-le", "-gt", "-ge"].contains text

/-- One letter behind a dash. -/
def isSwitch (text : String) : Bool := text.length = 2 && Text.startsWith text "-"

def beyond {α : Type} : Judge α := do
  throw ("missing argument after " ++ quoted ((← get).all.getLastD ""))

def skip (n : Nat) : Judge Unit := modify fun r => { r with args := r.args.drop n }

/-- Goes on to the next argument, which has to be there. -/
def advance : Judge Unit := do
  skip 1
  if (← get).args.isEmpty then beyond

def isSpace (c : Char) : Bool := c = ' ' || ('\t' ≤ c && c ≤ '\r')

def integer (text : String) : Except String Int :=
  let inner := (text.toList.dropWhile isSpace).reverse.dropWhile isSpace
  match Chars.int? inner.reverse with
  | some n => .ok n
  | none => .error ("invalid integer " ++ quoted text)

def unaryLetters : List Char := "erwxNOGfdsScbpLhugktnz".toList

def unary (d : Disk) : Judge Bool := do
  match (← get).args with
  | name :: rest =>
    if !unaryLetters.contains (name.toList.getLastD ' ') then
      throw (quoted name ++ ": unary operator expected")
    match rest with
    | [] => beyond
    | operand :: _ =>
      skip 2
      if name = "-t" then
        let _ ← integer operand
        return false
      else Condition.unary d name operand
  | [] => beyond

/-- An operand that is a number, or the length of a text. -/
def measure (isLength : Bool) (text : String) : Except String Int :=
  if isLength then .ok text.length else integer text

/-- Two operands with a sign between them; the length of a text may stand for a number. -/
def binary (d : Disk) (leftIsLength : Bool) : Judge Bool := do
  if leftIsLength then skip 1
  match (← get).args with
  | left :: sign :: right :: rest =>
    let rightIsLength := right = "-l" && !rest.isEmpty
    let right := if rightIsLength then rest.headD "" else right
    skip (if rightIsLength then 4 else 3)
    let isOfFiles := ["-nt", "-ot", "-ef"].contains sign
    if isOfFiles && (leftIsLength || rightIsLength) then throw (sign ++ " does not accept -l")
    if isOfFiles || !Text.startsWith sign "-" then Condition.binary d left sign right
    else
      let a ← measure leftIsLength left
      let b ← measure rightIsLength right
      return match sign with
        | "-eq" => a = b
        | "-ne" => a ≠ b
        | "-lt" => a < b
        | "-le" => a ≤ b
        | "-gt" => b < a
        | _ => b ≤ a
  | _ => beyond

def one : Judge Bool := do
  let text := (← get).args.headD ""
  skip 1
  return text != ""

def two (d : Disk) : Judge Bool := do
  match (← get).args with
  | "!" :: _ =>
    skip 1
    return !(← one)
  | text :: _ => if isSwitch text then unary d else beyond
  | [] => beyond

/-- The arguments up to a closing parenthesis, or all if there are many. -/
def countInside (args : List String) : Nat :=
  let inside := (args.drop 1).takeWhile (· != ")")
  if inside.length < 4 then inside.length + 1 else args.length

mutual

def three (d : Disk) : Nat → Judge Bool
  | 0 => beyond
  | fuel + 1 => do
    match (← get).args with
    | first :: second :: third :: _ =>
      if isBinary second then binary d false
      else if first = "!" then
        advance
        return !(← two d)
      else if first = "(" && third = ")" then
        skip 1
        let holds ← one
        skip 1
        return holds
      else if second = "-a" || second = "-o" then either d fuel
      else throw (quoted second ++ ": binary operator expected")
    | _ => beyond

/-- So many arguments. -/
def several (d : Disk) : Nat → Nat → Judge Bool
  | 0, _ => beyond
  | fuel + 1, count => do
    let args := (← get).args
    match count with
    | 1 => one
    | 2 => two d
    | 3 => three d fuel
    | 4 =>
      if args.head? = some "!" then
        advance
        return !(← three d fuel)
      else if args.head? = some "(" && args[3]? = some ")" then
        skip 1
        let holds ← two d
        skip 1
        return holds
      else either d fuel
    | _ => either d fuel

def term (d : Disk) : Nat → Judge Bool
  | 0 => beyond
  | fuel + 1 => do
    let args := (← get).args
    match args with
    | [] => beyond
    | "!" :: _ =>
      advance
      return !(← term d fuel)
    | "(" :: _ =>
      advance
      let holds ← several d fuel (countInside (args.drop 1))
      match ((← get).args.head?).or (← get).closing with
      | none => throw "')' expected"
      | some ")" =>
        skip 1
        return holds
      | some other => throw ("')' expected, found " ++ quoted other)
    | first :: rest =>
      if first = "-l" && 4 ≤ args.length && (args[2]?).any isBinary then binary d true
      else if 3 ≤ args.length && rest.head?.any isBinary then binary d false
      else if isSwitch first then unary d
      else one

def both (d : Disk) : Nat → Judge Bool
  | 0 => beyond
  | fuel + 1 => do
    let holds ← term d fuel
    if (← get).args.head? = some "-a" then
      skip 1
      let others ← both d fuel
      return holds && others
    else return holds

def either (d : Disk) : Nat → Judge Bool
  | 0 => beyond
  | fuel + 1 => do
    if (← get).args.isEmpty then beyond
    let holds ← both d fuel
    if (← get).args.head? = some "-o" then
      skip 1
      if (← get).args.isEmpty then beyond
      let others ← either d fuel
      return holds || others
    else return holds

end

/-- Whether arguments hold. -/
def holds (d : Disk) (args : List String) (closing : Option String) : Except String Bool := do
  if args.isEmpty then return false
  match ← (several d (4 * args.length + 8) args.length).run ⟨args, args, closing⟩ with
  | (holds, ⟨[], _, _⟩) => return holds
  | (_, ⟨extra :: _, _, _⟩) => throw ("extra argument " ++ quoted extra)

end Assertion

/-- A condition as a program; the bracketed spelling wants its closing bracket. -/
def assert (p : Process) (bracketed : Bool) : Work Unit := do
  if bracketed && p.args.getLast? != some "]" then complain p ("missing " ++ quoted "]") 2
  else
    let args := if bracketed then p.args.dropLast else p.args
    match Assertion.holds (← get).disk args (if bracketed then some "]" else none) with
    | .ok true => finish 0
    | .ok false => finish 1
    | .error flaw => complain p flaw 2

end LayerCache.Program
