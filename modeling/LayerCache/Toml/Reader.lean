import LayerCache.Toml.Document
import LayerCache.Toml.Scalar
import LayerCache.Toml.Quoted

/-! Reading a configuration text: key lines under headers. Steps left are counted from the length
of the text, so they never run out before the text does. -/
namespace LayerCache.Toml

namespace Reader

abbrev Chars := List Char

def skipBlanks (cs : Chars) : Chars := cs.dropWhile fun c => c == ' ' || c == '\t'

/-- Blanks, line ends and whole comments. -/
def skipLines (comment : Bool) : Chars → Option Chars
  | [] => some []
  | '\n' :: rest => skipLines false rest
  | '\r' :: '\n' :: rest => skipLines false rest
  | c :: rest =>
    if comment then (if Quoted.isPlain c then skipLines true rest else none)
    else if c == ' ' || c == '\t' then skipLines false rest
    else if c == '#' then skipLines true rest
    else some (c :: rest)

/-- The rest of a line that may hold only blanks and a comment. -/
def endLine (cs : Chars) : Option Chars :=
  let cs := match skipBlanks cs with
    | '#' :: rest => rest.dropWhile Quoted.isPlain
    | cs => cs
  match cs with
  | [] => some []
  | '\n' :: rest => some rest
  | '\r' :: '\n' :: rest => some rest
  | _ => none

def isBare (c : Char) : Bool := c.isAlphanum || c == '-' || c == '_'

def simpleKey (cs : Chars) : Option (String × Chars) :=
  match cs with
  | '"' :: rest => (Quoted.basic rest).map fun (key, rest) => (String.ofList key, rest)
  | '\'' :: rest => (Quoted.literal rest).map fun (key, rest) => (String.ofList key, rest)
  | _ =>
    let key := cs.takeWhile isBare
    if key.isEmpty then none else some (String.ofList key, cs.dropWhile isBare)

/-- Keys with dots between; blanks may stand around each. -/
def keys : Nat → Chars → Option (List String × Chars)
  | 0, _ => none
  | steps + 1, cs => do
    let (key, rest) ← simpleKey (skipBlanks cs)
    match skipBlanks rest with
    | '.' :: rest => do
      let (more, rest) ← keys steps rest
      return (key :: more, rest)
    | rest => return ([key], rest)

/-- Longer keys and deeper values are refused. -/
def deepest : Nat := 79

/-- A dotted key as the path before its last part, that part, and the rest. -/
def key (cs : Chars) : Option (List String × String × Chars) := do
  let (parts, rest) ← keys (cs.length + 1) cs
  if deepest < parts.length then none
  else return (parts.dropLast, ← parts.getLast?, rest)

def simple (cs : Chars) : Option (Toml × Chars) :=
  match cs with
  | '"' :: _ => (Quoted.read cs).map fun (s, rest) => (.text (String.ofList s), rest)
  | '\'' :: _ => (Quoted.read cs).map fun (s, rest) => (.text (String.ofList s), rest)
  | 't' :: 'r' :: 'u' :: 'e' :: rest => some (.bool true, rest)
  | 'f' :: 'a' :: 'l' :: 's' :: 'e' :: rest => some (.bool false, rest)
  | _ => Scalar.numeral cs

/-- The items of an array up to its bracket; a comma may follow the last. -/
def items (value : Chars → Option (Toml × Chars)) : Nat → Chars → Option (List Toml × Chars)
  | 0, _ => none
  | steps + 1, cs =>
    match skipLines false cs with
    | some (']' :: rest) => some ([], rest)
    | some cs => do
      let (item, rest) ← value cs
      match skipLines false rest with
      | some (']' :: rest) => return ([item], rest)
      | some (',' :: rest) => do
        let (more, rest) ← items value steps rest
        return (item :: more, rest)
      | _ => none
    | none => none

def assignment (value : Chars → Option (Toml × Chars)) (cs : Chars) :
    Option (List String × String × Toml × Chars) := do
  let (path, last, rest) ← key cs
  match rest with
  | '=' :: rest => do
    let (v, rest) ← value (skipBlanks rest)
    return (path, last, v, rest)
  | _ => none

/-- The assignments of an inline table up to its brace; no comma follows the last. -/
def members (value : Chars → Option (Toml × Chars)) : Nat → Chars → Items → Option (Items × Chars)
  | 0, _, _ => none
  | steps + 1, cs, made => do
    let (path, last, v, rest) ← assignment value cs
    let made ← define path last v made
    match skipBlanks rest with
    | '\x7d' :: rest => return (made, rest)
    | ',' :: rest => members value steps rest made
    | _ => none

/-- A value with at most the given depth of arrays and inline tables. -/
def value : Nat → Chars → Option (Toml × Chars)
  | 0, cs => simple cs
  | depth + 1, cs =>
    match cs with
    | '[' :: rest => do
      let (read, rest) ← items (value depth) (rest.length + 1) rest
      return (.array read, rest)
    | '\x7b' :: rest => match skipBlanks rest with
      | '\x7d' :: rest => some (.table [], rest)
      | rest => do
        let (made, rest) ← members (value depth) (rest.length + 1) rest []
        return (.table (closeItems made), rest)
    | _ => simple cs

/-- Lines under the header whose table is open. -/
def lines : Nat → List String → Chars → Items → Option Items
  | 0, _, _, _ => none
  | steps + 1, header, cs, made =>
    match skipBlanks cs with
    | [] => some made
    | '\n' :: rest => lines steps header rest made
    | '\r' :: '\n' :: rest => lines steps header rest made
    | '#' :: rest => do lines steps header (← endLine ('#' :: rest)) made
    | '[' :: '[' :: rest => do
      let (path, last, rest) ← key rest
      match rest with
      | ']' :: ']' :: rest => do
        let made ← within false (fun _ => openRow last) path false made
        lines steps (path ++ [last]) (← endLine rest) made
      | _ => none
    | '[' :: rest => do
      let (path, last, rest) ← key rest
      match rest with
      | ']' :: rest => do
        let made ← within false (fun _ => openTable last) path false made
        lines steps (path ++ [last]) (← endLine rest) made
      | _ => none
    | cs => do
      let (path, last, v, rest) ← assignment (value deepest) cs
      let made ← within false (fun _ => define path last v) header false made
      lines steps header (← endLine rest) made

end Reader

/-- A byte order mark in front is passed over. -/
def parse (s : String) : Option Fields := do
  let cs := match s.toList with
    | c :: rest => if c.toNat = 0xfeff then rest else c :: rest
    | [] => []
  return closeItems (← Reader.lines (cs.length + 1) [] cs [])

end LayerCache.Toml
