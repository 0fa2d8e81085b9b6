import LayerCache.Json.Reader

/-! Texts between quotes. Basic ones know escapes, literal ones none; tripled quotes let a text run
over several lines, whose line ends all become line feeds. -/
namespace LayerCache.Toml.Quoted

/-- Control characters other than the tab must be escaped, and literal texts cannot hold them. -/
def isPlain (c : Char) : Bool := c == '\t' || (0x20 ≤ c.toNat && c.toNat ≠ 0x7f)

def scalar (n : Nat) : Option Char := if h : n.isValidChar then some ⟨n.toUInt32, by
  simpa [UInt32.isValidChar, Nat.toUInt32, UInt32.toNat_ofNat, Nat.mod_eq_of_lt
    (show n < 4294967296 by cases h <;> omega)] using h⟩ else none

def escaped : Char → Option Char
  | 'b' => some (Char.ofNat 8)
  | 't' => some '\t'
  | 'n' => some '\n'
  | 'f' => some (Char.ofNat 12)
  | 'r' => some '\r'
  | '"' => some '"'
  | '\\' => some '\\'
  | _ => none

abbrev Read := Option (List Char × List Char)

def cons (c : Char) : Read → Read
  | some (cs, rest) => some (c :: cs, rest)
  | none => none

def consScalar (n : Option Nat) (r : Read) : Read :=
  match n.bind scalar with
  | some c => cons c r
  | none => none

def hex8 (a b c d e f g h : Char) : Option Nat := do
  return (← Json.hex4 a b c d) * 65536 + (← Json.hex4 e f g h)

/-- Up to the closing quote. -/
def basic : List Char → Read
  | [] => none
  | '"' :: rest => some ([], rest)
  | '\\' :: 'u' :: a :: b :: c :: d :: rest => consScalar (Json.hex4 a b c d) (basic rest)
  | '\\' :: 'U' :: a :: b :: c :: d :: e :: f :: g :: h :: rest =>
    consScalar (hex8 a b c d e f g h) (basic rest)
  | '\\' :: c :: rest => match escaped c with
    | some e => cons e (basic rest)
    | none => none
  | c :: rest => if isPlain c && c != '\\' then cons c (basic rest) else none

def literal : List Char → Read
  | [] => none
  | '\'' :: rest => some ([], rest)
  | c :: rest => if isPlain c then cons c (literal rest) else none

/-- Up to two quotes may stand before the three that close. -/
def closing (quote : Char) : List Char → Option (List Char × List Char)
  | a :: b :: c :: d :: e :: rest =>
    if a == quote && b == quote && c == quote then
      if d == quote && e == quote then some ([quote, quote], rest)
      else if d == quote then some ([quote], e :: rest)
      else some ([], d :: e :: rest)
    else none
  | [a, b, c, d] =>
    if a == quote && b == quote && c == quote then
      if d == quote then some ([quote], []) else some ([], [d])
    else none
  | [a, b, c] => if a == quote && b == quote && c == quote then some ([], []) else none
  | _ => none

/-- What a backslash at a line's end swallows: blanks and line ends, and at least one of these. -/
inductive Swallow where
  | no
  /-- Before the first line end. -/
  | line
  | lines
  deriving DecidableEq

def basicLines (state : Swallow) (cs : List Char) : Read :=
  match cs, state with
  | [], _ => none
  | '\n' :: rest, .no => cons '\n' (basicLines .no rest)
  | '\n' :: rest, _ => basicLines .lines rest
  | '\r' :: '\n' :: rest, .no => cons '\n' (basicLines .no rest)
  | '\r' :: '\n' :: rest, _ => basicLines .lines rest
  | ' ' :: rest, .line => basicLines .line rest
  | '\t' :: rest, .line => basicLines .line rest
  | _ :: _, .line => none
  | ' ' :: rest, .lines => basicLines .lines rest
  | '\t' :: rest, .lines => basicLines .lines rest
  | '\\' :: 'u' :: a :: b :: c :: d :: rest, _ =>
    consScalar (Json.hex4 a b c d) (basicLines .no rest)
  | '\\' :: 'U' :: a :: b :: c :: d :: e :: f :: g :: h :: rest, _ =>
    consScalar (hex8 a b c d e f g h) (basicLines .no rest)
  | '\\' :: '\n' :: rest, _ => basicLines .lines rest
  | '\\' :: '\r' :: '\n' :: rest, _ => basicLines .lines rest
  | '\\' :: ' ' :: rest, _ => basicLines .line rest
  | '\\' :: '\t' :: rest, _ => basicLines .line rest
  | '\\' :: c :: rest, _ => match escaped c with
    | some e => cons e (basicLines .no rest)
    | none => none
  | c :: rest, _ =>
    match closing '"' (c :: rest) with
    | some done => some done
    | none => if isPlain c && c != '\\' then cons c (basicLines .no rest) else none

def literalLines (cs : List Char) : Read :=
  match cs with
  | [] => none
  | '\n' :: rest => cons '\n' (literalLines rest)
  | '\r' :: '\n' :: rest => cons '\n' (literalLines rest)
  | c :: rest =>
    match closing '\'' (c :: rest) with
    | some done => some done
    | none => if isPlain c then cons c (literalLines rest) else none

/-- A line end right after the opening quotes is not part of the text. -/
def dropLineEnd : List Char → List Char
  | '\n' :: rest => rest
  | '\r' :: '\n' :: rest => rest
  | cs => cs

/-- A text value of any of the four forms. -/
def read : List Char → Read
  | '"' :: '"' :: '"' :: rest => basicLines .no (dropLineEnd rest)
  | '"' :: rest => basic rest
  | '\'' :: '\'' :: '\'' :: rest => literalLines (dropLineEnd rest)
  | '\'' :: rest => literal rest
  | _ => none

end LayerCache.Toml.Quoted
