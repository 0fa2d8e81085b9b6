import LayerCache.Shell.Rules.Token

/-! Expressions of rules read from their words. -/
namespace LayerCache.Rules

/-- What is wrong with a script, and the line in which it is. -/
structure Flaw where
  line : Nat
  message : String

namespace Reader

structure State where
  rest : List Lexeme
  line : Nat := 1
  parens : Nat := 0
  braces : Nat := 0
  loops : Nat := 0
  inRoutine : Bool := false
  /-- Records are at hand, so that one may go on to the next. -/
  inRule : Bool := false
  /-- Names of routines and of variables that were met. -/
  routines : List String := []
  names : List String := []
  /-- Calls of routines, with how many values they give and the line. -/
  calls : List (String × Nat × Nat) := []

abbrev Read := StateT State (Except Flaw)

def fail {α : Type} (message : String) : Read α := do throw ⟨(← get).line, message⟩

def next? : Read (Option Token) := return (← get).rest.head?.map Lexeme.token

def skip : Read Unit := modify fun s => match s.rest with
  | [] => s
  | _ :: rest => { s with rest, line := ((rest.head?).map Lexeme.line).getD (s.line + 1) }

/-- The next word is wrong. -/
def wrong {α : Type} : Read α := do
  let s ← get
  match s.rest.head?.map Lexeme.token with
  | none => fail (if 0 < s.parens then "missing ) near end of file"
      else if 0 < s.braces then "missing \x7d near end of file"
      else "syntax error at or near end of file")
  | some (.flaw message) => fail message
  | some t =>
    let ends := ["end of line", ";", "\x7d"].contains t.shown
    fail ((if ends && 0 < s.parens then "missing ) near " else "syntax error at or near ") ++
      t.shown)

def isSign (t : Option Token) (s : String) : Bool :=
  match t with
  | some (.sign u) => s = u
  | _ => false

def isKeyword (t : Option Token) (k : String) : Bool :=
  match t with
  | some (.keyword u) => k = u
  | _ => false

def nextIs (s : String) : Read Bool := return isSign (← next?) s

def keywordIs (k : String) : Read Bool := return isKeyword (← next?) k

/-- Takes a sign that has to come next. -/
def sign (s : String) : Read Unit := do
  if ← nextIs s then skip else wrong

def skipNewlines : Nat → Read Unit
  | 0 => pure ()
  | fuel + 1 => do
    match ← next? with
    | some .newline =>
      skip
      skipNewlines fuel
    | _ => pure ()

def eatNewlines : Read Unit := do skipNewlines ((← get).rest.length + 1)

def takeName : Read String := do
  match ← next? with
  | some (.name n _) =>
    skip
    return n
  | _ => wrong

def isPlace : Expr → Bool
  | .name _ | .element .. | .field _ => true
  | _ => false

def assignments : List (String × Option Sign) :=
  [("=", none), ("+=", some .plus), ("-=", some .minus), ("*=", some .times),
    ("/=", some .divide), ("%=", some .remainder), ("^=", some .power)]

def relations : List (String × Relation) :=
  [("<", .less), ("<=", .lessOrEqual), ("==", .equal), ("!=", .notEqual), (">", .greater),
    (">=", .greaterOrEqual)]

def signOf? (table : List (String × α)) : Option Token → Option α
  | some (.sign s) => table.lookup s
  | _ => none

/-- Whether a word may begin an operand behind another one. -/
def startsOperand : Option Token → Bool
  | some (.number ..) | some (.text ..) | some (.regex _) | some (.name ..) | some (.known ..) =>
    true
  | some (.sign s) => ["(", "$", "!", "++", "--"].contains s
  | _ => false

def patternOf (cs : List Char) : Read Regex := do
  match Pattern.parse cs with
  | .ok r => return r
  | .error flaw => fail ("regular expression compile failed (" ++ flaw.message ++ ")\n" ++
      String.ofList cs)

/-- A text in the place of a pattern is one. -/
def asPattern : Expr → Read Expr
  | .text cs => return .regex (← patternOf cs)
  | e => return e

/-- The values a function is given, where patterns among them are taken as such. -/
def withPatterns (f : Known) (args : List Expr) : Read (List Expr) := do
  match f, args with
  | .sub, e :: rest | .gsub, e :: rest => return (← asPattern e) :: rest
  | .matching, [text, e] => return [text, ← asPattern e]
  | .split, [text, table, e] =>
    let isLong : Bool := match e with
      | .text cs => 1 < cs.length
      | _ => false
    return [text, table, ← if isLong then asPattern e else pure e]
  | _, args => return args

/-- How many values a function takes. -/
def arity : Known → Nat × Nat
  | .length => (0, 1)
  | .substr => (2, 3)
  | .index | .matching | .atan2 => (2, 2)
  | .split => (2, 3)
  | .sub | .gsub => (2, 3)
  | .sprintf => (1, 1000)
  | .rand | .systemTime => (0, 0)
  | .srand | .flush => (0, 1)
  | .formatTime => (0, 3)
  | _ => (1, 1)

/-- How tightly operators bind, from the loosest on. -/
inductive Rank where
  | or
  | and
  | within
  | matching
  | comparing
  | assigning
  | joining
  | adding
  | multiplying
  | unary
  deriving DecidableEq, Repr

namespace Rank

def next : Rank → Rank
  | or => and
  | and => within
  | within => matching
  | matching => comparing
  | comparing => assigning
  | assigning => joining
  | joining => adding
  | adding => multiplying
  | multiplying | unary => unary

/-- What the signs of a rank make of two operands. Where output may go elsewhere, signs for larger
values do not compare. -/
def makes (larger : Bool) : Rank → List (String × (Expr → Expr → Expr))
  | or => [("||", .or)]
  | and => [("&&", .and)]
  | matching => [("~", .matches_ false), ("!~", .matches_ true)]
  | comparing => (relations.filter fun (_, r) =>
      larger || (r != .greater && r != .greaterOrEqual)).map fun (s, r) => (s, .compare r)
  | adding => [("+", .calculate .plus), ("-", .calculate .minus)]
  | multiplying =>
    [("*", .calculate .times), ("/", .calculate .divide), ("%", .calculate .remainder)]
  | _ => []

end Rank

mutual

/-- An expression; with `larger` a sign for that compares. -/
def expr (fuel : Nat) (larger : Bool) : Read Expr :=
  match fuel with
  | 0 => wrong
  | fuel + 1 => do
    let test ← ranked fuel .or larger
    if ← nextIs "?" then
      skip
      eatNewlines
      let first ← expr fuel larger
      eatNewlines
      sign ":"
      eatNewlines
      let second ← expr fuel larger
      return .choose test first second
    else return test

/-- Operands of one rank and tighter ones. -/
def ranked (fuel : Nat) (rank : Rank) (larger : Bool) : Read Expr :=
  match fuel with
  | 0 => wrong
  | fuel + 1 => do
    match rank with
    | .unary => unary fuel
    | .assigning =>
      let first ← ranked fuel .joining larger
      if !isPlace first then return first
      match signOf? assignments (← next?) with
      | some change =>
        skip
        eatNewlines
        let value ← expr fuel larger
        return match change with
          | some s => .change s first value
          | none => .assign first value
      | none => return first
    | rank =>
      let first ← ranked fuel rank.next larger
      rankedFrom fuel rank larger first

/-- Further operands behind a first one. -/
def rankedFrom (fuel : Nat) (rank : Rank) (larger : Bool) (first : Expr) : Read Expr :=
  match fuel with
  | 0 => wrong
  | fuel + 1 => do
    match rank with
    | .within =>
      if ← keywordIs "in" then
        skip
        let table ← takeName
        let index := match first with
          | .group parts => parts
          | e => [e]
        rankedFrom fuel rank larger (.within index table)
      else return first
    | .joining =>
      if startsOperand (← next?) && !(first matches .group (_ :: _ :: _)) then
        let second ← ranked fuel rank.next larger
        rankedFrom fuel rank larger (.join first second)
      else return first
    | rank =>
      match signOf? (rank.makes larger) (← next?) with
      | some make =>
        skip
        if rank = .or || rank = .and then eatNewlines
        let second ← ranked fuel rank.next larger
        let second ← if rank = .matching then asPattern second else pure second
        rankedFrom fuel rank larger (make first second)
      | none => return first

def unary (fuel : Nat) : Read Expr :=
  match fuel with
  | 0 => wrong
  | fuel + 1 => do
    match signOf? [("!", Expr.not), ("-", .negate), ("+", .affirm)] (← next?) with
    | some make =>
      skip
      let e ← unary fuel
      return make e
    | none =>
      let e ← power fuel
      piped fuel e

/-- Lines taken from a command. -/
def piped (fuel : Nat) (first : Expr) : Read Expr :=
  match fuel with
  | 0 => wrong
  | fuel + 1 => do
    let rest := (← get).rest
    if isSign (rest.head?.map Lexeme.token) "|" &&
        isKeyword ((rest.drop 1).head?.map Lexeme.token) "getline" then
      skip
      skip
      let place ← place? fuel
      piped fuel (.getLine .command (some first) place)
    else return first

def power (fuel : Nat) : Read Expr :=
  match fuel with
  | 0 => wrong
  | fuel + 1 => do
    let base ← stepped fuel
    if ← nextIs "^" then
      skip
      let isSigned := (signOf? [("!", ()), ("-", ()), ("+", ())] (← next?)).isSome
      let exponent ← if isSigned then unary fuel else power fuel
      return .calculate .power base exponent
    else return base

def stepped (fuel : Nat) : Read Expr :=
  match fuel with
  | 0 => wrong
  | fuel + 1 => do
    let e ← operand fuel
    match signOf? [("++", Sign.plus), ("--", .minus)] (← next?) with
    | some s =>
      if isPlace e then
        skip
        return .step s false e
      else return e
    | none => return e

/-- A place that a line may be put into. -/
def place? (fuel : Nat) : Read (Option Expr) :=
  match fuel with
  | 0 => return none
  | fuel + 1 => do
    match ← next? with
    | some (.name _ false) => return some (← operand fuel)
    | some (.sign "$") => return some (← operand fuel)
    | _ => return none

def operand (fuel : Nat) : Read Expr :=
  match fuel with
  | 0 => wrong
  | fuel + 1 => do
    match ← next? with
    | some (.number x _) =>
      skip
      return .number x
    | some (.text cs _) =>
      skip
      return .text cs
    | some (.regex cs) =>
      let r ← patternOf cs
      skip
      return .regex r
    | some (.name n isCall) =>
      skip
      let s ← get
      if (← nextIs "(") && (isCall && !s.names.contains n || s.routines.contains n) then
        modify fun s => { s with routines := n :: s.routines }
        let args ← arguments fuel
        modify fun s => { s with calls := s.calls ++ [(n, args.length, s.line)] }
        return .call n args
      else if ← nextIs "[" then
        skip
        let index ← list fuel true
        sign "]"
        return .element n index
      else
        modify fun s => { s with names := if s.names.contains n then s.names else n :: s.names }
        return .name n
    | some (.known f n) =>
      skip
      if f = .length && !(← nextIs "(") then return .known f []
      let args ← arguments fuel
      let (least, most) := arity f
      if args.length < least || most < args.length then
        fail ("wrong number of arguments in call to " ++ n)
      return .known f (← withPatterns f args)
    | some (.sign "(") =>
      match ← grouped fuel with
      | [e] => return if isPlace e then .group [e] else e
      | parts => if ← keywordIs "in" then return .group parts else wrong
    | some (.sign "$") =>
      skip
      return .field (← fieldPlace fuel)
    | some (.sign "++") => return .step .plus true (← stepPlace fuel)
    | some (.sign "--") => return .step .minus true (← stepPlace fuel)
    | some (.keyword "getline") =>
      skip
      let place ← place? fuel
      if ← nextIs "<" then
        skip
        let name ← power fuel
        return .getLine .file (some name) place
      else return .getLine .records none place
    | _ => wrong

/-- What is counted up or down, behind the sign for that. -/
def stepPlace (fuel : Nat) : Read Expr :=
  match fuel with
  | 0 => wrong
  | fuel + 1 => do
    skip
    match ← next? with
    | some (.name ..) | some (.sign "$") =>
      let e ← operand fuel
      if isPlace e then return e else wrong
    | _ => wrong

/-- The number of a field. -/
def fieldPlace (fuel : Nat) : Read Expr :=
  match fuel with
  | 0 => wrong
  | fuel + 1 => do
    match signOf? [("!", Expr.not), ("-", .negate), ("+", .affirm)] (← next?) with
    | some make =>
      skip
      return make (← fieldPlace fuel)
    | none => operand fuel

/-- Expressions in parentheses. -/
def grouped (fuel : Nat) : Read (List Expr) :=
  match fuel with
  | 0 => wrong
  | fuel + 1 => do
    skip
    modify fun s => { s with parens := s.parens + 1 }
    let parts ← list fuel true
    sign ")"
    modify fun s => { s with parens := s.parens - 1 }
    return parts

/-- Expressions with commas between them. -/
def list (fuel : Nat) (larger : Bool) : Read (List Expr) :=
  match fuel with
  | 0 => wrong
  | fuel + 1 => do
    let first ← expr fuel larger
    if ← nextIs "," then
      skip
      eatNewlines
      return first :: (← list fuel larger)
    else return [first]

def arguments (fuel : Nat) : Read (List Expr) :=
  match fuel with
  | 0 => wrong
  | fuel + 1 => do
    sign "("
    modify fun s => { s with parens := s.parens + 1 }
    let args ← if ← nextIs ")" then pure [] else list fuel true
    sign ")"
    modify fun s => { s with parens := s.parens - 1 }
    return args

end

end Reader
end LayerCache.Rules
