import LayerCache.Shell.Token
import LayerCache.Text.Ascii

/-! Sums in scripts: whole numbers of 64 bits, variables that hold them, and assignments. -/
namespace LayerCache.Shell

inductive Sum where
  | number (n : Int)
  | value (name : String)
  | unary (operator : String) (a : Sum)
  | binary (operator : String) (a b : Sum)
  | choice (test yes no : Sum)
  /-- Sets a variable to a sum, or to what an operator makes of its value and the sum. -/
  | set (name operator : String) (a : Sum)
  deriving Repr

namespace Sum

inductive Token where
  | number (n : Int)
  | name (text : String)
  | operator (text : String)
  deriving DecidableEq, Repr

def operators : List String :=
  ["<<=", ">>=", "||", "&&", "==", "!=", "<=", ">=", "<<", ">>", "*=", "/=", "%=", "+=", "-=", "&=",
    "^=", "|=", "=", "<", ">", "+", "-", "*", "/", "%", "&", "^", "|", "!", "~", "?", ":", "(", ")"]

def digitValue (c : Char) : Nat :=
  if c.isDigit then c.toNat - '0'.toNat
  else if c.isAlpha then c.toLower.toNat - 'a'.toNat + 10
  else 36

/-- A number with a base shown by what it begins with: zero for eight, zero and x for sixteen. -/
def number? (cs : List Char) : Option Nat :=
  let (base, digits) : Nat × List Char := match cs with
    | '0' :: 'x' :: rest | '0' :: 'X' :: rest => (16, rest)
    | '0' :: rest => (8, '0' :: rest)
    | cs => (10, cs)
  if digits.isEmpty || digits.any fun c => base ≤ digitValue c then none
  else some (digits.foldl (fun n c => base * n + digitValue c) 0)

/-- A number with a sign, as variables hold it; a text of blanks is zero. -/
def ofText? (text : String) : Option Int :=
  let cs := (text.toList.dropWhile (· = ' ')).reverse.dropWhile (· = ' ') |>.reverse
  match cs with
  | [] => some 0
  | '-' :: rest => (number? rest).map fun n => -(n : Int)
  | '+' :: rest => (number? rest).map Int.ofNat
  | cs => (number? cs).map Int.ofNat

def tokens : Nat → List Char → Option (List Token)
  | 0, _ => some []
  | _ + 1, [] => some []
  | fuel + 1, c :: rest =>
    if c = ' ' || c = '\t' || c = '\n' then tokens fuel rest
    else if c.isDigit then do
      let chars := (c :: rest).takeWhile Word.isNameChar
      return .number (← number? chars) :: (← tokens fuel ((c :: rest).drop chars.length))
    else if Word.isNameStart c then do
      let chars := (c :: rest).takeWhile Word.isNameChar
      return .name (String.ofList chars) :: (← tokens fuel ((c :: rest).drop chars.length))
    else do
      let text ← operators.find? fun o => o.toList.isPrefixOf (c :: rest)
      return .operator text :: (← tokens fuel ((c :: rest).drop text.length))

/-- How tightly an operator of two sides binds. -/
def tightness (operator : String) : Option Nat :=
  [("||", 1), ("&&", 2), ("|", 3), ("^", 4), ("&", 5), ("==", 6), ("!=", 6), ("<", 7), ("<=", 7),
    (">", 7), (">=", 7), ("<<", 8), (">>", 8), ("+", 9), ("-", 9), ("*", 10), ("/", 10),
    ("%", 10)].lookup operator

/-- The operator within one that sets a variable. -/
def setter? (operator : String) : Option String :=
  if ["=", "*=", "/=", "%=", "+=", "-=", "<<=", ">>=", "&=", "^=", "|="].contains operator then
    some (String.ofList operator.toList.dropLast)
  else none

inductive Flaw where
  | expecting (what : String)
  | divisionByZero
  /-- A variable holds no number. -/
  | illegalNumber (text : String)
  deriving DecidableEq, Repr

def Flaw.message (expression : String) : Flaw → String
  | expecting what => "arithmetic expression: expecting " ++ what ++ ": \"" ++ expression ++ "\""
  | divisionByZero => "arithmetic expression: division by zero: \"" ++ expression ++ "\""
  | illegalNumber text => "Illegal number: " ++ text

abbrev Parsed := Except Flaw (Sum × List Token)

mutual

def primary : Nat → List Token → Parsed
  | 0, _ => .error (.expecting "primary")
  | fuel + 1, tokens => match tokens with
    | .number n :: rest => .ok (.number n, rest)
    | .name text :: rest => .ok (.value text, rest)
    | .operator "(" :: rest => match whole fuel rest with
      | .ok (a, .operator ")" :: rest) => .ok (a, rest)
      | .ok _ => .error (.expecting "')'")
      | .error flaw => .error flaw
    | .operator o :: rest =>
      if ["!", "~", "-", "+"].contains o then match primary fuel rest with
        | .ok (a, rest) => .ok (.unary o a, rest)
        | .error flaw => .error flaw
      else .error (.expecting "primary")
    | [] => .error (.expecting "primary")

/-- Operators at least so tight, from left to right. -/
def operands : Nat → Nat → Sum → List Token → Parsed
  | 0, _, a, tokens => .ok (a, tokens)
  | fuel + 1, least, a, tokens => match tokens with
    | .operator o :: rest => match (tightness o).filter (least ≤ ·) with
      | none => .ok (a, tokens)
      | some level => match primary fuel rest with
        | .error flaw => .error flaw
        | .ok (b, rest) => match operands fuel (level + 1) b rest with
          | .error flaw => .error flaw
          | .ok (b, rest) => operands fuel least (.binary o a b) rest
    | _ => .ok (a, tokens)

def whole : Nat → List Token → Parsed
  | 0, _ => .error (.expecting "primary")
  | fuel + 1, tokens =>
    let setting : Option (String × String × List Token) := match tokens with
      | .name name :: .operator o :: rest => (setter? o).map (name, ·, rest)
      | _ => none
    match setting with
    | some (name, o, rest) => match whole fuel rest with
      | .ok (a, rest) => .ok (.set name o a, rest)
      | .error flaw => .error flaw
    | none => match primary fuel tokens with
      | .error flaw => .error flaw
      | .ok (a, rest) => match operands fuel 1 a rest with
        | .error flaw => .error flaw
        | .ok (test, .operator "?" :: rest) => match whole fuel rest with
          | .ok (yes, .operator ":" :: rest) => match whole fuel rest with
            | .ok (no, rest) => .ok (.choice test yes no, rest)
            | .error flaw => .error flaw
          | .ok _ => .error (.expecting "':'")
          | .error flaw => .error flaw
        | other => other

end

def parse (text : List Char) : Except Flaw Sum :=
  match tokens (text.length + 1) text with
  | none => .error (.expecting "EOF")
  | some all => match whole (8 * all.length + 8) all with
    | .ok (a, []) => .ok a
    | .ok _ => .error (.expecting "EOF")
    | .error flaw => .error flaw

/-- Numbers go round at 64 bits. -/
def wrap (n : Int) : Int := n.bmod (Nat.pow 2 64)

def ofBool (b : Bool) : Int := if b then 1 else 0

/-- The bits of a number as a natural one. -/
def bits (n : Int) : Nat := (n % (Nat.pow 2 64 : Nat)).toNat

def compute (operator : String) (a b : Int) : Except Flaw Int :=
  match operator with
  | "+" => .ok (wrap (a + b))
  | "-" => .ok (wrap (a - b))
  | "*" => .ok (wrap (a * b))
  | "/" => if b = 0 then .error .divisionByZero else .ok (wrap (a.tdiv b))
  | "%" => if b = 0 then .error .divisionByZero else .ok (a.tmod b)
  | "<<" => .ok (wrap (a * (Nat.pow 2 (bits b % 64) : Nat)))
  | ">>" => .ok (a.fdiv (Nat.pow 2 (bits b % 64) : Nat))
  | "&" => .ok (wrap (bits a &&& bits b : Nat))
  | "|" => .ok (wrap (bits a ||| bits b : Nat))
  | "^" => .ok (wrap (bits a ^^^ bits b : Nat))
  | "==" => .ok (ofBool (a == b))
  | "!=" => .ok (ofBool (a != b))
  | "<" => .ok (ofBool (a < b))
  | "<=" => .ok (ofBool (a ≤ b))
  | ">" => .ok (ofBool (b < a))
  | ">=" => .ok (ofBool (b ≤ a))
  | _ => .ok b

/-- Variables that a sum has set, the latest first. -/
abbrev Settings := List (String × Int)

/-- What a sum comes to with the values that `lookup` gives to variables. -/
def evaluate (lookup : String → Except Flaw Int) :
    Sum → Settings → Except Flaw (Int × Settings)
  | .number n, made => .ok (wrap n, made)
  | .value name, made => match made.lookup name with
    | some n => .ok (n, made)
    | none => (lookup name).map (·, made)
  | .unary o a, made => do
    let (n, made) ← evaluate lookup a made
    return (match o with
      | "!" => ofBool (n == 0)
      | "~" => -n - 1
      | "-" => wrap (-n)
      | _ => n, made)
  | .binary o a b, made => do
    let (m, made) ← evaluate lookup a made
    if o = "&&" && m = 0 then return (0, made)
    if o = "||" && m != 0 then return (1, made)
    let (n, made) ← evaluate lookup b made
    if o = "&&" || o = "||" then return (ofBool (n != 0), made)
    return (← compute o m n, made)
  | .choice test yes no, made => do
    let (n, made) ← evaluate lookup test made
    if n = 0 then evaluate lookup no made else evaluate lookup yes made
  | .set name o a, made => do
    let (n, made) ← evaluate lookup a made
    let old ← if o = "" then .ok 0 else match made.lookup name with
      | some n => .ok n
      | none => lookup name
    let n ← compute o old n
    return (n, (name, n) :: made)

end Sum
end LayerCache.Shell
