import LayerCache.Shell.Program.Options
import LayerCache.Shell.Regex.Reader

/-! Expressions whose operators and operands are arguments. -/
namespace LayerCache.Program.Expression

inductive Value where
  | number (n : Int)
  | text (s : String)
  deriving DecidableEq, Repr

namespace Value

def toText : Value → String
  | number n => toString n
  | text s => s

/-- A text counts as a number if it is one; a sign may only be a minus. -/
def ofInteger? (s : String) : Option Int := if Text.startsWith s "+" then none else Text.int? s

def toInt? : Value → Option Int
  | number n => some n
  | text s => ofInteger? s

/-- Nothing, or zero. -/
def isNull (v : Value) : Bool := v = .text "" || v.toInt? = some 0

end Value

def ofBool (b : Bool) : Value := .number (if b then 1 else 0)

/-- What a pattern anchored in front takes: the text of its group, or the number of characters. -/
def matched (text pattern : String) : Except String Value :=
  match Regex.parse .basic pattern.toList with
  | .error flaw => .error flaw.message
  | .ok r =>
    let t : Subject := ⟨text.toList.toArray, false⟩
    let grouped := pattern.toList.zip pattern.toList.tail |>.contains ('\\', '(')
    .ok (match Regex.matchAt t r 0 with
      | some m => if grouped then .text (String.ofList (m.text t 1)) else .number m.stop
      | none => if grouped then .text "" else .number 0)

def compare (sign : String) (order : Ordering) : Bool :=
  match sign with
  | "<" => order == .lt
  | "<=" => order != .gt
  | ">" => order == .gt
  | ">=" => order != .lt
  | "!=" => order != .eq
  | _ => order == .eq

def orderOf (left right : String) : Ordering :=
  match Value.ofInteger? left, Value.ofInteger? right with
  | some a, some b => Ord.compare a b
  | _, _ => if left < right then .lt else if right < left then .gt else .eq

def calculate (sign : String) (left right : Value) : Except String Value :=
  match left.toInt?, right.toInt? with
  | some a, some b =>
    if (sign = "/" || sign = "%") && b = 0 then .error "division by zero"
    else .ok (.number (match sign with
      | "+" => a + b
      | "-" => a - b
      | "*" => a * b
      | "/" => a.tdiv b
      | _ => a.tmod b))
  | _, _ => .error "non-integer argument"

def apply (sign : String) (left right : Value) : Except String Value :=
  match sign with
  | "|" => .ok (if !left.isNull then left else if right.isNull then .number 0 else right)
  | "&" => .ok (if left.isNull || right.isNull then .number 0 else left)
  | ":" => matched left.toText right.toText
  | "+" | "-" | "*" | "/" | "%" => calculate sign left right
  | _ => .ok (ofBool (compare sign (orderOf left.toText right.toText)))

def place (text chars : String) : Nat :=
  (text.toList.findIdx? chars.toList.contains).elim 0 (· + 1)

/-- So many characters from a place on, which is counted from one. -/
def part (text : String) (start size : Value) : String :=
  match start.toInt?, size.toInt? with
  | some i, some n =>
    if 0 < i && 0 < n then String.ofList ((text.toList.drop (i.toNat - 1)).take n.toNat) else ""
  | _, _ => ""

/-- The arguments from some place on; the one used last is kept for messages. -/
structure Rest where
  last : String
  args : List String

abbrev Eval := StateT Rest (Except String)

def next? : Eval (Option String) := return (← get).args.head?

def skip : Eval Unit := modify fun r => match r.args with
  | [] => r
  | a :: args => ⟨a, args⟩

def take : Eval String := do
  match (← get).args with
  | [] => throw ("syntax error: missing argument after " ++ quoted (← get).last)
  | a :: _ =>
    skip
    return a

/-- Signs that join operands, from the loosest on. -/
def levels : List (List String) :=
  [["|"], ["&"], ["<", "<=", "=", "==", "!=", ">=", ">"], ["+", "-"], ["*", "/", "%"], [":"]]

/-- Whether an operand behind another one still counts. -/
def counts (sign : String) (left : Value) (isUsed : Bool) : Bool :=
  isUsed && (if sign = "|" then left.isNull else if sign = "&" then !left.isNull else true)

mutual

/-- A function of operands, an expression in parentheses, or a text. -/
def operand : Nat → Bool → Eval Value
  | 0, _ => throw "syntax error"
  | fuel + 1, isUsed => do
    match ← take with
    | "+" => return .text (← take)
    | "length" => return .number (← operand fuel isUsed).toText.length
    | "match" =>
      let text ← operand fuel isUsed
      let pattern ← operand fuel isUsed
      if isUsed then matched text.toText pattern.toText else return text
    | "index" =>
      let text ← operand fuel isUsed
      let chars ← operand fuel isUsed
      return .number (place text.toText chars.toText)
    | "substr" =>
      let text ← operand fuel isUsed
      let start ← operand fuel isUsed
      let size ← operand fuel isUsed
      return .text (part text.toText start size)
    | "(" =>
      let v ← level fuel levels isUsed
      match ← next? with
      | some ")" =>
        skip
        return v
      | some other => throw ("syntax error: expecting ')' instead of " ++ quoted other)
      | none => throw ("syntax error: expecting ')' after " ++ quoted (← get).last)
    | ")" => throw "syntax error: unexpected ')'"
    | text => return .text text

/-- Operands joined by the signs of a level, from left to right. -/
def level : Nat → List (List String) → Bool → Eval Value
  | 0, _, _ => throw "syntax error"
  | fuel + 1, [], isUsed => operand fuel isUsed
  | fuel + 1, signs :: tighter, isUsed => do
    let first ← level fuel tighter isUsed
    more fuel signs tighter isUsed first

def more : Nat → List String → List (List String) → Bool → Value → Eval Value
  | 0, _, _, _, _ => throw "syntax error"
  | fuel + 1, signs, tighter, isUsed, left => do
    match ← next? with
    | none => return left
    | some sign =>
      if !signs.contains sign then return left
      skip
      let right ← level fuel tighter (counts sign left isUsed)
      let isLogical := sign = "|" || sign = "&"
      let v ← if isUsed || isLogical then apply sign left right else pure left
      more fuel signs tighter isUsed v

end

def evaluate (args : List String) : Except String Value :=
  match (level (12 * args.length + 24) levels true).run ⟨"", args⟩ with
  | .ok (v, ⟨_, []⟩) => .ok v
  | .ok (_, ⟨_, next :: _⟩) => .error ("syntax error: unexpected argument " ++ quoted next)
  | .error flaw => .error flaw

end Expression

def expr (p : Process) : Work Unit :=
  match if p.args.head? = some "--" then p.args.drop 1 else p.args with
  | [] => askForHelp p "missing operand" 2
  | args => match Expression.evaluate args with
    | .error flaw => complain p flaw 2
    | .ok v => do
      printLine v.toText.toList
      finish (if v.isNull then 1 else 0)

end LayerCache.Program
