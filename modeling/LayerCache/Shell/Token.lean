import LayerCache.Text.Lines

/-! Scripts of a command language: commands with words and redirected streams, joined into lists,
pipes, conditions, loops and functions. Words stand for arguments once values are put in. -/
namespace LayerCache.Shell

/-- How a redirection opens a file. -/
inductive Opening where
  | read
  | write
  /-- Writes even to a file that is to be kept. -/
  | overwrite
  | append
  | both
  deriving DecidableEq, Repr

mutual

/-- A part of a word. Only plain text may hold patterns; values in quotes are not split. -/
inductive Piece where
  | plain (c : Char)
  | quoted (text : List Char)
  | value (name : String) (use : Use) (inQuotes : Bool)
  /-- What a script puts out. -/
  | output (s : Script) (inQuotes : Bool)
  /-- What a sum comes to. -/
  | sum (expression : List Piece) (inQuotes : Bool)
  /-- Makes no sense, which is noticed when it is reached. -/
  | malformed

/-- What is made of a value. -/
inductive Use where
  | whole
  | length
  /-- A word instead of a value that is missing, or that is there, by the sign. -/
  | instead (sign : Char) (orEmpty : Bool) (w : List Piece)
  /-- The value without the part at one end that a pattern matches. -/
  | without (fromEnd longest : Bool) (pattern : List Piece)

inductive Redirect where
  | file (stream : Nat) (opening : Opening) (w : List Piece)
  /-- The stream whose number a word gives, or none for a dash. -/
  | same (stream : Nat) (w : List Piece)
  /-- Text that stands in the script. -/
  | text (stream : Nat) (w : List Piece)

inductive Script where
  | command (line : Nat) (sets : List (String × List Piece)) (words : List (List Piece))
      (redirects : List Redirect)
  | redirected (line : Nat) (s : Script) (redirects : List Redirect)
  | sequence (parts : List Script)
  | both (first second : Script)
  | either (first second : Script)
  | negated (s : Script)
  | piped (left right : Script)
  | background (s : Script)
  | subshell (line : Nat) (s : Script)
  | choice (test yes no : Script)
  /-- Goes on as long as the test succeeds, or as long as it fails. -/
  | loop (whileFails : Bool) (test body : Script)
  | each (line : Nat) (name : String) (words : List (List Piece)) (body : Script)
  | select (line : Nat) (w : List Piece) (cases : List (List (List Piece) × Script))
  | function (name : String) (body : Script)

end

abbrev Word := List Piece

def Script.nothing : Script := .sequence []

end LayerCache.Shell

/-! The tokens of scripts, and the text they are read from. -/
namespace LayerCache.Shell

inductive Token where
  | finish
  | newline
  | mark (text : String)
  | redirect (stream : Nat) (text : String)
  | word (w : Word)

/-- Why a text is no script, with the line where that was noticed. -/
structure Flaw where
  line : Nat
  text : String
  deriving DecidableEq, Repr

structure Source where
  rest : List Char
  line : Nat := 1
  /-- Lines that were taken out of the text below the current one. -/
  late : Nat := 0
  /-- A token that was given back. -/
  held : Option Token := none
  /-- Texts that stand for names of commands. -/
  aliases : List (String × String) := []
  /-- Names whose texts are being read, with the length of what follows these. -/
  live : List (String × Nat) := []
  /-- A text that ended in a blank has what follows it looked up too; the length of that. -/
  onward : Option Nat := none

abbrev Reader := StateT Source (Except Flaw)

namespace Word

/-- A word written without any quotes, which may then be a reserved one. -/
def plainText? (w : Word) : Option String :=
  (w.mapM fun
    | Piece.plain c => some c
    | _ => none).map String.ofList

def isNameStart (c : Char) : Bool := c.isAlpha || c = '_'

def isNameChar (c : Char) : Bool := c.isAlphanum || c = '_'

def isName (text : String) : Bool :=
  text.toList.head?.any isNameStart && text.toList.all isNameChar

/-- A word that sets a variable: a name, an equals sign and a value. -/
def assignment? (w : Word) : Option (String × Word) := do
  let name := w.takeWhile fun
    | .plain c => isNameChar c
    | _ => false
  match w.drop name.length with
  | .plain '=' :: value =>
    let name ← plainText? name
    guard (isName name)
    return (name, value)
  | _ => none

/-- The parts of a word between its colons. -/
def betweenColons : Word → List Word
  | [] => [[]]
  | p :: rest => match p, betweenColons rest with
    | .plain ':', parts => [] :: parts
    | p, first :: parts => (p :: first) :: parts
    | p, [] => [[p]]

end Word

namespace Token

def reserved : List String :=
  ["!", "case", "do", "done", "elif", "else", "esac", "fi", "for", "if", "in", "then", "until",
    "while", "\x7b", "\x7d"]

def reserved? : Token → Option String
  | .word w => (Word.plainText? w).filter reserved.contains
  | _ => none

def isWord (t : Token) (text : String) : Bool := t.reserved? = some text

/-- A word without quotes that is not reserved. -/
def plainWord? : Token → Option String
  | .word w => (Word.plainText? w).filter fun text => !reserved.contains text
  | _ => none

/-- Whether a list of commands ends in front of a token. -/
def endsList : Token → Bool
  | .finish => true
  | .mark text => text = ")" || text = ";;"
  | t => t.reserved?.any ["do", "done", "elif", "else", "esac", "fi", "then", "\x7d"].contains

def inQuotes (text : String) : String := "\"" ++ text ++ "\""

/-- A token as messages name it; reserved words count as such where `words` says so. -/
def shown (words : Bool) : Token → String
  | .finish => "end of file"
  | .newline => "newline"
  | .mark text => inQuotes text
  | .redirect _ _ => "redirection"
  | t => match if words then t.reserved? else none with
    | some text => inQuotes text
    | none => "word"

end Token

namespace Source

def wrong {α : Type} (text : String) : Reader α := do throw ⟨(← get).line, "Syntax error: " ++ text⟩

def unexpected {α : Type} (t : Token) (words : Bool := true) (expected : String := "") : Reader α :=
  wrong (t.shown words ++ " unexpected" ++
    if expected = "" then "" else " (expecting " ++ Token.inQuotes expected ++ ")")

/-- Passes over characters and counts the lines among them. -/
def advance (n : Nat) : Reader Unit := modify fun s =>
  let passed := (s.rest.take n).count '\n'
  { s with
    rest := s.rest.drop n
    line := if passed = 0 then s.line else s.line + passed + s.late
    late := if passed = 0 then s.late else 0 }

/-- How many characters lie before the next token: blanks, joints of lines, and a comment. -/
def gap : List Char → Nat
  | '\\' :: '\n' :: rest => gap rest + 2
  | ' ' :: rest | '\t' :: rest => gap rest + 1
  | '#' :: rest => (rest.takeWhile (· != '\n')).length + 1
  | _ => 0

def marks : List String := ["&&", "||", ";;", ";", "|", "&", "(", ")"]

def redirects : List String := ["<<-", "<<", "<>", "<&", "<", ">>", ">&", ">|", ">"]

/-- The first of some texts that stands next. -/
def standsNext? (texts : List String) (cs : List Char) : Option String :=
  texts.find? fun t => t.toList.isPrefixOf cs

/-- A redirection may carry the number of its stream as a digit. -/
def takeRedirect? : Reader (Option Token) := do
  let rest := (← get).rest
  let digit := (rest.head?.filter Char.isDigit).map fun c => c.toNat - '0'.toNat
  let width := if digit.isSome then 1 else 0
  match standsNext? redirects (rest.drop width) with
  | none => return none
  | some text =>
    advance (width + text.length)
    return some (.redirect (digit.getD (if Text.startsWith text "<" then 0 else 1)) text)

def giveBack (t : Token) : Reader Unit := modify fun s => { s with held := some t }

/-- Takes the lines of a text that stands in the script out of those below the current line, up to
one that holds the delimiter alone. -/
def takeDocument (delimiter : List Char) (stripsTabs : Bool) : Reader (List Char) :=
  modifyGet fun s =>
    let line := s.rest.takeWhile (· != '\n')
    let below := Chars.wholeLines ((s.rest.drop line.length).drop 1)
    let strip (l : List Char) := if stripsTabs then l.dropWhile (· = '\t') else l
    let body := below.takeWhile fun l => Chars.bare (strip l) != delimiter
    (body.flatMap strip, { s with
      rest := line ++ '\n' :: (below.drop (body.length + 1)).flatten
      late := s.late + body.length + 1 })

/-- Puts the text that stands for a name in place of it, unless it stands in that text itself. -/
def substitute (t : Token) : Reader Bool := do
  let s ← get
  match if s.aliases.isEmpty then none else t.plainWord? with
  | none => return false
  | some name => match s.aliases.lookup name with
    | none => return false
    | some text =>
      let left := s.rest.length
      if s.live.any fun (n, length) => n = name && length ≤ left then return false
      else
        let blank := text.toList.getLast?.any fun c => c = ' ' || c = '\t'
        set { s with
          rest := text.toList ++ s.rest
          live := (name, left) :: s.live.filter fun (_, length) => length ≤ left
          onward := if blank then some left else s.onward }
        return true

/-- Whether the next token stands behind a text that has it looked up too. -/
def startsBehind : Reader Bool := modifyGet fun s =>
  match if s.held.isSome then none else s.onward with
  | none => (false, s)
  | some length =>
    if s.rest.length - gap s.rest ≤ length then (true, { s with onward := none }) else (false, s)

/-- Does something on another text, with the lines counted from here. -/
def apart {α : Type} (text : List Char) (work : Reader α) (line : Option Nat := none) :
    Reader α := do
  let s ← get
  match work.run { rest := text, line := line.getD s.line, aliases := s.aliases } with
  | .ok (a, _) => return a
  | .error flaw => throw flaw

end Source
end LayerCache.Shell
