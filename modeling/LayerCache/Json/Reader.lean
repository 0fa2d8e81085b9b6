import LayerCache.Json.Basic

/-! Reading JSON. A value ends before the rest that is returned; white space is blanks, tabs and
line ends only. The steps left bound the nesting and are never short for a whole text. -/
namespace LayerCache.Json

def isSpace (c : Char) : Bool := c == ' ' || c == '\n' || c == '\t' || c == '\r'

def skipSpace (cs : List Char) : List Char := cs.dropWhile isSpace

def hexValue (c : Char) : Option Nat :=
  let n := c.toNat
  if '0'.toNat ≤ n && n ≤ '9'.toNat then some (n - '0'.toNat)
  else if 'a'.toNat ≤ n && n ≤ 'f'.toNat then some (n - 'a'.toNat + 10)
  else if 'A'.toNat ≤ n && n ≤ 'F'.toNat then some (n - 'A'.toNat + 10)
  else none

def hex4 (a b c d : Char) : Option Nat := do
  let a ← hexValue a
  let b ← hexValue b
  let c ← hexValue c
  let d ← hexValue d
  return ((a * 16 + b) * 16 + c) * 16 + d

def isHighHalf (n : Nat) : Bool := 0xd800 ≤ n && n < 0xdc00

def isLowHalf (n : Nat) : Bool := 0xdc00 ≤ n && n < 0xe000

def joinHalves (high low : Nat) : Char :=
  Char.ofNat (0x10000 + (high - 0xd800) * 0x400 + (low - 0xdc00))

def escaped : Char → Option Char
  | '"' => some '"'
  | '\\' => some '\\'
  | '/' => some '/'
  | 'b' => some (Char.ofNat 8)
  | 'f' => some (Char.ofNat 12)
  | 'n' => some '\n'
  | 'r' => some '\r'
  | 't' => some '\t'
  | _ => none

/-- A text read so far, if all of it stands for characters, and what follows it. -/
abbrev Quoted := Option (List Char) × List Char

def consChar (c : Char) : Option Quoted → Option Quoted
  | some (cs, rest) => some (cs.map (c :: ·), rest)
  | none => none

/-- Spoils the text when half a surrogate pair was left waiting. -/
def afterHalf (high : Option Nat) : Option Quoted → Option Quoted
  | some (cs, rest) => some (if high.isSome then none else cs, rest)
  | none => none

/-- The text up to the closing quote. `high` is the first half of a surrogate pair just read. -/
def readQuoted (high : Option Nat) : List Char → Option Quoted
  | [] => none
  | '"' :: rest => afterHalf high (some (some [], rest))
  | '\\' :: 'u' :: a :: b :: c :: d :: rest =>
    match hex4 a b c d with
    | none => none
    | some n =>
      if isHighHalf n then afterHalf high (readQuoted (some n) rest)
      else if isLowHalf n then
        match high with
        | some h => consChar (joinHalves h n) (readQuoted none rest)
        | none => afterHalf (some n) (readQuoted none rest)
      else afterHalf high (consChar (Char.ofNat n) (readQuoted none rest))
  | '\\' :: c :: rest =>
    match escaped c with
    | none => none
    | some e => afterHalf high (consChar e (readQuoted none rest))
  | c :: rest =>
    if c.toNat < 0x20 || c == '\\' then none
    else afterHalf high (consChar c (readQuoted none rest))

def readText (cs : List Char) : Option (Option String × List Char) :=
  (readQuoted none cs).map fun (read, rest) => (read.map String.ofList, rest)

def isDigit (c : Char) : Bool := '0'.toNat ≤ c.toNat && c.toNat ≤ '9'.toNat

def digitsValue (cs : List Char) : Nat := cs.foldl (fun n c => n * 10 + (c.toNat - '0'.toNat)) 0

/-- Digits without a needless zero in front. -/
def readDigits (cs : List Char) : Option (List Char × List Char) :=
  match cs with
  | '0' :: rest => match rest with
    | c :: _ => if isDigit c then none else some (['0'], rest)
    | [] => some (['0'], [])
  | c :: _ => if isDigit c then some (cs.takeWhile isDigit, cs.dropWhile isDigit) else none
  | [] => none

/-- At least one digit. -/
def dropDigits (cs : List Char) : Option (List Char) :=
  match cs with
  | c :: _ => if isDigit c then some (cs.dropWhile isDigit) else none
  | [] => none

def dropFraction : List Char → Option (List Char)
  | '.' :: rest => dropDigits rest
  | cs => some cs

def dropExponent : List Char → Option (List Char)
  | c :: rest =>
    if c == 'e' || c == 'E' then
      match rest with
      | s :: more => if s == '+' || s == '-' then dropDigits more else dropDigits rest
      | [] => none
    else some (c :: rest)
  | [] => some []

def readNumber (cs : List Char) : Option (Json × List Char) := do
  let (signed, unsigned) := match cs with
    | '-' :: rest => (true, rest)
    | _ => (false, cs)
  let (digits, rest) ← readDigits unsigned
  let after ← dropFraction rest
  let after ← dropExponent after
  if signed || after.length ≠ rest.length then return (otherNumber, after)
  else return (count (digitsValue digits), after)

mutual

def readValue : Nat → List Char → Option (Json × List Char)
  | 0, _ => none
  | steps + 1, cs =>
    match skipSpace cs with
    | 'n' :: 'u' :: 'l' :: 'l' :: rest => some (null, rest)
    | 't' :: 'r' :: 'u' :: 'e' :: rest => some (bool true, rest)
    | 'f' :: 'a' :: 'l' :: 's' :: 'e' :: rest => some (bool false, rest)
    | '"' :: rest => (readText rest).map fun (value, rest) => (text value, rest)
    | '[' :: rest => match skipSpace rest with
      | ']' :: rest => some (array [], rest)
      | _ => (readItems steps rest).map fun (items, rest) => (array items, rest)
    | '\x7b' :: rest => match skipSpace rest with
      | '\x7d' :: rest => some (object [], rest)
      | _ => (readFields steps rest).map fun (fields, rest) => (object fields, rest)
    | other => readNumber other

/-- Items up to the closing bracket; at least one. -/
def readItems : Nat → List Char → Option (List Json × List Char)
  | 0, _ => none
  | steps + 1, cs =>
    match readValue steps cs with
    | none => none
    | some (item, rest) => match skipSpace rest with
      | ',' :: rest => (readItems steps rest).map fun (items, rest) => (item :: items, rest)
      | ']' :: rest => some ([item], rest)
      | _ => none

/-- Fields up to the closing brace; at least one. -/
def readFields : Nat → List Char → Option (List (Option String × Json) × List Char)
  | 0, _ => none
  | steps + 1, cs =>
    match skipSpace cs with
    | '"' :: rest => match readText rest with
      | none => none
      | some (key, rest) => match skipSpace rest with
        | ':' :: rest => match readValue steps rest with
          | none => none
          | some (value, rest) => match skipSpace rest with
            | ',' :: rest =>
              (readFields steps rest).map fun (fields, rest) => ((key, value) :: fields, rest)
            | '\x7d' :: rest => some ([(key, value)], rest)
            | _ => none
        | _ => none
    | _ => none

end

/-- The one value of a whole text. -/
def parse (s : String) : Option Json :=
  match readValue (2 * s.toList.length + 2) s.toList with
  | some (value, rest) => if (skipSpace rest).isEmpty then some value else none
  | none => none

end LayerCache.Json
