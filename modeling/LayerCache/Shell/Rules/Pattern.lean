import LayerCache.Shell.Regex.Reader

/-! Regular expressions within rules. Signs are bare, and a backslash makes them plain or stands for
a character, also within brackets. -/
namespace LayerCache.Rules.Pattern

inductive Flaw where
  | missingOperand
  | missingClosing
  | repeatedStart
  | badSet
  | badBounds
  deriving DecidableEq, Repr

def Flaw.message : Flaw → String
  | missingOperand => "missing operand"
  | missingClosing => "missing ')'"
  | repeatedStart => "syntax error ^* or ^+"
  | badSet => "bad class -- [], [^] or ["
  | badBounds => "bad interval expression"

def octal (cs : List Char) : Nat := cs.foldl (fun n c => n * 8 + (c.toNat - 48)) 0

def isOctal (c : Char) : Bool := '0' ≤ c && c ≤ '7'

def hexValue (cs : List Char) : Nat :=
  cs.foldl (fun n c => n * 16 + (if c.isDigit then c.toNat - 48 else c.toLower.toNat - 87)) 0

def isHex (c : Char) : Bool := c.isDigit || ('a' ≤ c.toLower && c.toLower ≤ 'f')

def named : List (Char × Char) :=
  [('n', '\n'), ('t', '\t'), ('f', '\x0c'), ('r', '\x0d'), ('b', '\x08'), ('v', '\x0b'),
    ('a', '\x07')]

/-- A character that is spelt behind a backslash, and what follows it. -/
def escape? : List Char → Option (Char × List Char)
  | [] => none
  | c :: rest =>
    if isOctal c then
      let digits := ((c :: rest).take 3).takeWhile isOctal
      some (Char.ofNat (octal digits % 256), (c :: rest).drop digits.length)
    else if c = 'x' && rest.head?.any isHex then
      let digits := (rest.take 2).takeWhile isHex
      some (Char.ofNat (hexValue digits), rest.drop digits.length)
    else (named.lookup c).map (·, rest)

/-- The character behind a backslash, whatever it is. -/
def escaped (cs : List Char) : Char × List Char :=
  (escape? cs).getD (match cs with
    | c :: rest => (c, rest)
    | [] => ('\\', []))

def member (cs : List Char) : Option (Char × List Char) :=
  match cs with
  | [] => none
  | '\\' :: rest => some (escaped rest)
  | c :: rest => some (c, rest)

/-- The ranges of a set up to its closing bracket, which may come first as a member. -/
def members : Nat → Bool → List Char → Except Flaw (List (Char × Char) × List Char)
  | 0, _, _ => .error .badSet
  | fuel + 1, isFirst, cs => match cs with
    | [] => .error .badSet
    | ']' :: rest => if isFirst then range fuel cs else .ok ([], rest)
    | '[' :: ':' :: rest => match Regex.takeClass rest with
      | some (ranges, rest) => (members fuel false rest).map fun (others, rest) =>
          (ranges ++ others, rest)
      | none => range fuel cs
    | _ => range fuel cs
where
  range (fuel : Nat) (cs : List Char) : Except Flaw (List (Char × Char) × List Char) :=
    match member cs with
    | none => .error .badSet
    | some (low, rest) =>
      let (high, rest) := match rest with
        | '-' :: next :: more =>
          if next = ']' then (low, rest) else (member (next :: more)).getD (low, rest)
        | _ => (low, rest)
      (members fuel false rest).map fun (others, rest) =>
        ((if high < low then (high, low) else (low, high)) :: others, rest)

/-- A number of times between braces, if that is what they hold. -/
def bounds? (cs : List Char) : Option (Except Flaw (Nat × Option Nat × List Char)) :=
  let inside := cs.takeWhile (· != '\x7d')
  let rest := cs.drop inside.length
  let low := inside.takeWhile Char.isDigit
  let number (ds : List Char) : Nat := ds.foldl (fun n c => n * 10 + (c.toNat - 48)) 0
  match rest, inside.drop low.length with
  | _ :: rest, [] => if low.isEmpty then none else some (.ok (number low, some (number low), rest))
  | _ :: rest, ',' :: high =>
    if !high.all Char.isDigit || (low.isEmpty && high.isEmpty) then none
    else if high.isEmpty then some (.ok (number low, none, rest))
    else if number high < number low then some (.error .badBounds)
    else some (.ok (number low, some (number high), rest))
  | _, _ => none

/-- Repetitions behind a piece. -/
def repeated (r : Regex) : Nat → List Char → Except Flaw (Regex × List Char)
  | 0, cs => .ok (r, cs)
  | fuel + 1, cs => match cs with
    | '*' :: rest => again 0 none rest fuel
    | '+' :: rest => again 1 none rest fuel
    | '?' :: rest => again 0 (some 1) rest fuel
    | '\x7b' :: rest => match bounds? rest with
      | some (.ok (least, most, rest)) => again least most rest fuel
      | some (.error flaw) => .error flaw
      | none => .ok (r, cs)
    | _ => .ok (r, cs)
where
  again (least : Nat) (most : Option Nat) (rest : List Char) (fuel : Nat) :
      Except Flaw (Regex × List Char) :=
    if r matches .atStart then .error .repeatedStart
    else repeated (.many r least most) fuel rest

mutual

/-- Branches with bars between them. -/
def branches : Nat → Nat → List Char → Except Flaw (Regex × List Char)
  | 0, _, _ => .error .missingOperand
  | fuel + 1, depth, cs => do
    let (first, rest) ← pieces fuel depth true cs
    match rest with
    | '|' :: rest =>
      let (others, rest) ← branches fuel depth rest
      return (.either first others, rest)
    | _ => return (first, rest)

/-- Pieces one behind the other; there has to be one. -/
def pieces : Nat → Nat → Bool → List Char → Except Flaw (Regex × List Char)
  | 0, _, _, _ => .error .missingOperand
  | fuel + 1, depth, isFirst, cs =>
    let isOver := match cs with
      | [] => true
      | c :: _ => c = '|' || (c = ')' && 0 < depth)
    if isOver then if isFirst then .error .missingOperand else .ok (.empty, cs)
    else do
      let (r, rest) ← piece fuel depth cs
      let (r, rest) ← repeated r fuel rest
      let (others, rest) ← pieces fuel depth false rest
      return (.both r others, rest)

def piece : Nat → Nat → List Char → Except Flaw (Regex × List Char)
  | 0, _, _ => .error .missingOperand
  | fuel + 1, depth, cs => match cs with
    | [] => .error .missingOperand
    | ['('] => .error .missingClosing
    | '(' :: rest => do
      let (r, rest) ← branches fuel (depth + 1) rest
      match rest with
      | ')' :: rest => return (r, rest)
      | _ => throw .missingClosing
    | '*' :: _ | '+' :: _ | '?' :: _ => .error .missingOperand
    | '.' :: rest => .ok (.one .all, rest)
    | '^' :: rest => .ok (.atStart, rest)
    | '$' :: rest => .ok (.atEnd, rest)
    | '[' :: rest => do
      let (negated, rest) := match rest with
        | '^' :: rest => (true, rest)
        | _ => (false, rest)
      let (ranges, rest) ← members (rest.length + 1) true rest
      return (.one ⟨ranges, negated⟩, rest)
    | '\\' :: rest =>
      let (c, rest) := escaped rest
      .ok (.one (.single c), rest)
    | c :: rest => .ok (.one (.single c), rest)

end

def parse (cs : List Char) : Except Flaw Regex :=
  if cs.isEmpty then .ok .empty
  else (branches (4 * cs.length + 8) 0 cs).bind fun (r, rest) =>
    if rest.isEmpty then .ok r else .error .missingClosing

end LayerCache.Rules.Pattern
