import LayerCache.Shell.Rules.Pattern
import LayerCache.Shell.Rules.Script

/-! The words of a script of rules. Whether a slash divides or begins a pattern depends on the word
before it. -/
namespace LayerCache.Rules

inductive Token where
  | number (x : Float) (shown : List Char)
  | text (cs : List Char) (shown : List Char)
  | regex (cs : List Char)
  /-- A name; one that a parenthesis follows at once may be that of a routine. -/
  | name (n : String) (isCall : Bool)
  | keyword (k : String)
  | known (f : Known) (n : String)
  | sign (s : String)
  | newline
  | flaw (message : String)
  deriving Inhabited

structure Lexeme where
  token : Token
  line : Nat
  deriving Inhabited

namespace Token

def keywords : List String :=
  ["BEGIN", "END", "if", "else", "while", "for", "do", "in", "break", "continue", "next",
    "nextfile", "exit", "return", "delete", "print", "printf", "getline", "function"]

def knownNames : List (String × Known) :=
  [("length", .length), ("substr", .substr), ("index", .index), ("split", .split), ("sub", .sub),
    ("gsub", .gsub), ("match", .matching), ("sprintf", .sprintf), ("sin", .sin), ("cos", .cos),
    ("atan2", .atan2), ("exp", .exp), ("log", .log), ("sqrt", .sqrt), ("int", .int),
    ("rand", .rand), ("srand", .srand), ("tolower", .toLower), ("toupper", .toUpper),
    ("system", .system), ("close", .close), ("fflush", .flush), ("systime", .systemTime),
    ("mktime", .makeTime), ("strftime", .formatTime)]

/-- Signs, longer ones before those that they begin with. -/
def signs : List String :=
  ["||", "&&", "!~", "==", "!=", "<=", ">=", ">>", "++", "--", "+=", "-=", "*=", "/=", "%=", "^=",
    "~", "<", ">", "=", "+", "-", "*", "/", "%", "^", "!", "?", ":", "(", ")", "[", "]", "\x7b",
    "\x7d", ",", ";", "$", "|"]

/-- How a word is shown where it is wrong. -/
def shown : Token → String
  | number _ cs | text _ cs => String.ofList cs
  | regex cs => String.ofList ('/' :: cs ++ ['/'])
  | name n _ | known _ n | keyword n | sign n => n
  | newline => "end of line"
  | flaw message => message

/-- Behind these a slash divides. -/
def endsValue : Option Token → Bool
  | some (number ..) | some (text ..) | some (regex _) | some (name ..) => true
  | some (known .length _) | some (keyword "getline") => true
  | some (sign s) => [")", "]", "$", "++", "--"].contains s
  | _ => false

def isNameStart (c : Char) : Bool := c.isAlpha || c = '_'

def isNamePart (c : Char) : Bool := c.isAlphanum || c = '_'

/-- A text up to its closing quote, as it stands there, and what follows. -/
def quoted? : List Char → Option (List Char × List Char)
  | [] | '\n' :: _ => none
  | '"' :: rest => some ([], rest)
  | '\\' :: c :: rest => (quoted? rest).map fun (raw, rest) => ('\\' :: c :: raw, rest)
  | c :: rest => (quoted? rest).map fun (raw, rest) => (c :: raw, rest)

/-- What stands behind backslashes in a text. Those that mean nothing stay. -/
def unescape : Nat → List Char → List Char
  | 0, cs => cs
  | fuel + 1, cs => match cs with
    | [] => []
    | '\\' :: '\n' :: rest => unescape fuel rest
    | '\\' :: '"' :: rest => '"' :: unescape fuel rest
    | '\\' :: '\\' :: rest => '\\' :: unescape fuel rest
    | '\\' :: rest => match Pattern.escape? rest with
      | some (c, rest) => c :: unescape fuel rest
      | none => '\\' :: unescape fuel rest
    | c :: rest => c :: unescape fuel rest

/-- A pattern up to its closing slash, which may stand within brackets. -/
def pattern? : Nat → Bool → List Char → Option (List Char × List Char)
  | 0, _, _ => none
  | fuel + 1, inside, cs =>
    let more (taken : List Char) (inside : Bool) (rest : List Char) :
        Option (List Char × List Char) :=
      (pattern? fuel inside rest).map fun (raw, rest) => (taken ++ raw, rest)
    match cs with
    | [] | '\n' :: _ => none
    | '\\' :: '\n' :: rest => more [] inside rest
    | '\\' :: c :: rest => more ['\\', c] inside rest
    | '/' :: rest => if inside then more ['/'] true rest else some ([], rest)
    | '[' :: '^' :: ']' :: rest => if inside then more ['['] true ('^' :: ']' :: rest)
        else more ['[', '^', ']'] true rest
    | '[' :: ']' :: rest => if inside then more ['['] true (']' :: rest)
        else more ['[', ']'] true rest
    | '[' :: ':' :: rest =>
      if inside then (Regex.takeNamed ':' rest).bind fun (inner, rest) =>
        more ('[' :: ':' :: inner ++ [':', ']']) true rest
      else more ['['] true (':' :: rest)
    | '[' :: rest => more ['['] true rest
    | ']' :: rest => more [']'] false rest
    | c :: rest => more [c] inside rest

def runaway (what : String) (mark : Char) (rest : List Char) : Token :=
  .flaw ("runaway " ++ what ++ " " ++
    String.ofList (mark :: (rest.takeWhile (· != '\n')).take 10) ++ " ...")

/-- A number at the head of a text, if there is one. -/
def number? (cs : List Char) : Option (Token × List Char) :=
  match Program.Decimals.takeDecimal? cs with
  | some (d, rest) =>
    let shown := cs.take (cs.length - rest.length)
    some (.number (Figure.ofExact (.ofDecimal .double false d)) shown, rest)
  | none => none

/-- The next word, which is none of blanks and comments. -/
def take (before : Option Token) (c : Char) (rest : List Char) : Token × List Char :=
  let cs := c :: rest
  if c = '"' then match quoted? rest with
    | some (raw, rest) =>
      (.text (unescape (raw.length + 1) raw) ('"' :: raw ++ ['"']), rest)
    | none => (runaway "string constant" '"' rest, [])
  else if c = '/' && !endsValue before then
    match pattern? (rest.length + 1) false rest with
    | some (raw, rest) => (.regex raw, rest)
    | none => (runaway "regular expression" '/' rest, [])
  else if c.isDigit || (c = '.' && rest.head?.any Char.isDigit) then
    (number? cs).getD (.flaw "", [])
  else if isNameStart c then
    let word := cs.takeWhile isNamePart
    let n := String.ofList word
    let rest := cs.drop word.length
    if keywords.contains n then (.keyword n, rest)
    else match knownNames.lookup n with
      | some f => (.known f n, rest)
      | none => (.name n (rest.head? = some '('), rest)
  else match signs.find? fun s => s.toList.isPrefixOf cs with
    | some s => (.sign s, cs.drop s.length)
    | none => (.flaw ("unexpected character '" ++ String.singleton c ++ "'"), [])

/-- All words, with their lines; parentheses and braces that close nothing are told apart. Behind such
a brace the end of a line is a word that is never left out. -/
def lex : Nat → Nat → Option Token → Int → Int → List Char → List Lexeme × List (Nat × String)
  | 0, _, _, _, _, _ => ([], [])
  | fuel + 1, line, before, parens, braces, cs =>
    let emit (t : Token) (line next : Nat) (parens braces : Int) (rest : List Char) :=
      let (others, flaws) := lex fuel next (some t) parens braces rest
      (⟨t, line⟩ :: others, flaws)
    match cs with
    | [] => ([], [])
    | '\n' :: rest => emit .newline line (line + 1) parens braces rest
    | '\\' :: '\n' :: rest => lex fuel (line + 1) before parens braces rest
    | '\\' :: '\x0d' :: '\n' :: rest => lex fuel (line + 1) before parens braces rest
    | '#' :: rest => lex fuel line before parens braces (rest.dropWhile (· != '\n'))
    | c :: rest =>
      if c = ' ' || ('\t' ≤ c && c ≤ '\x0d') then lex fuel line before parens braces rest
      else
        let (t, rest) := take before c rest
        match t with
        | .sign "(" => emit t line line (parens + 1) braces rest
        | .sign ")" =>
          if parens = 0 then
            let (others, flaws) := lex fuel line before parens braces rest
            (others, (line, "extra ')'") :: flaws)
          else emit t line line (parens - 1) braces rest
        | .sign "\x7b" => emit t line line parens (braces + 1) rest
        | .sign "\x7d" =>
          if braces = 0 then
            let (others, flaws) := lex fuel line before parens braces rest
            let others := match others with
              | ⟨.newline, line⟩ :: others => ⟨.sign "end of line", line⟩ :: others
              | others => others
            (others, (line, "extra '\x7d'") :: flaws)
          else emit t line line parens (braces - 1) rest
        | .flaw _ => ([⟨t, line⟩], [])
        | _ => emit t line line parens braces rest

end Token
end LayerCache.Rules
