import LayerCache.Shell.Token

/-! Reading scripts. Words and scripts hold each other, so all readers share their fuel, which
bounds the nesting; a script of so many characters nests no deeper. -/
namespace LayerCache.Shell.Reader

open Source

/-- Where the text of a word stands. -/
inductive Setting where
  | bare
  | braces
  | quotes
  | quotedBraces
  | document
  | sum
  deriving DecidableEq

namespace Setting

def inQuotes (k : Setting) : Bool := k != .bare && k != .braces

/-- Whether a character ends the text; sums also watch their parentheses. -/
def ends (k : Setting) (depth : Nat) (c : Char) : Bool :=
  match k with
  | .bare => " \t\n;&|<>()".toList.contains c
  | .braces | .quotedBraces => c = '\x7d'
  | .quotes => c = '"'
  | .document => false
  | .sum => c = ')' && depth = 0

/-- Characters that a backslash quotes here. -/
def quotable (k : Setting) (c : Char) : Bool :=
  !k.inQuotes || c = '$' || c = '\x60' || c = '\\' ||
    (c = '"' && k != .document) || (c = '\x7d' && k = .quotedBraces)

def unfinished {α : Type} (k : Setting) : Reader α :=
  match k with
  | .braces => wrong "Missing '\x7d'"
  | .sum => wrong "Missing '))'"
  | _ => wrong "Unterminated quoted string"

end Setting

/-- The text of a command between backquotes, with the backslashes that quote there removed. -/
def backquoted (inQuotes : Bool) : List Char → Option (List Char × Nat)
  | [] => none
  | '\x60' :: _ => some ([], 1)
  | '\\' :: c :: rest => (backquoted inQuotes rest).map fun (text, n) =>
    (if c = '\n' then text
      else if c = '$' || c = '\x60' || c = '\\' || (c = '"' && inQuotes) then c :: text
      else '\\' :: c :: text, n + 2)
  | c :: rest => (backquoted inQuotes rest).map fun (text, n) => (c :: text, n + 1)

def isSpecial (c : Char) : Bool := "@*#?-$!".toList.contains c

/-- The name of a value in braces: letters, digits, or a sign. -/
def braceName (cs : List Char) : List Char :=
  match cs with
  | c :: _ =>
    if c.isDigit then cs.takeWhile Char.isDigit
    else if Word.isNameStart c then cs.takeWhile Word.isNameChar
    else if isSpecial c then [c]
    else []
  | [] => []

/-- A name behind the sign for the length of its value, with the closing brace. -/
def lengthOf? : List Char → Option String
  | '#' :: rest =>
    let name := braceName rest
    if !name.isEmpty && (rest.drop name.length).head? = some '\x7d' then some (String.ofList name)
    else none
  | _ => none

/-- The text that ends a document, and whether any of it is quoted. -/
def delimiterOf (w : Word) : List Char × Bool :=
  (w.flatMap fun
    | .plain c => [c]
    | .quoted text => text
    | .value name _ _ => '$' :: name.toList
    | _ => [], w.any fun p => p matches .quoted _)

def specialNames : List String :=
  [":", ".", "break", "continue", "eval", "exec", "exit", "export", "readonly", "return", "set",
    "shift", "times", "trap", "unset"]

mutual

/-- Pieces up to the end of the text, the last one first in `done`. -/
def pieces : Nat → Setting → Nat → List Piece → Reader Word
  | 0, k, _, _ => k.unfinished
  | fuel + 1, k, depth, done => do
    match (← get).rest with
    | [] => if k = .bare || k = .document then return done.reverse else k.unfinished
    | '\\' :: '\n' :: _ =>
      advance 2
      pieces fuel k depth done
    | c :: rest =>
      if k.ends depth c then return done.reverse
      advance 1
      match c with
      | '\\' => match rest with
        | [] => return (.quoted [c] :: done).reverse
        | next :: _ =>
          if k.quotable next then
            advance 1
            pieces fuel k depth (.quoted [next] :: done)
          else pieces fuel k depth (.quoted [c] :: done)
      | '$' =>
        let piece ← dollar fuel k.inQuotes
        pieces fuel k depth (piece :: done)
      | '\x60' => match backquoted k.inQuotes rest with
        | none => wrong "EOF in backquote substitution"
        | some (text, width) =>
          let s ← apart text (list fuel true []) (some 1)
          advance width
          pieces fuel k depth (.output s k.inQuotes :: done)
      | c =>
        if k.inQuotes then
          if c = '"' && (k = .quotedBraces || k = .sum) then pieces fuel k depth done
          else
            let depth := if k != .sum then depth else if c = '(' then depth + 1
              else if c = ')' then depth - 1 else depth
            pieces fuel k depth (.quoted [c] :: done)
        else if c = '\'' then
          let text := rest.takeWhile (· != '\'')
          advance text.length
          if (rest.drop text.length).isEmpty then Setting.quotes.unfinished
          advance 1
          pieces fuel k depth (.quoted text :: done)
        else if c = '"' then
          let inner ← pieces fuel .quotes 0 []
          advance 1
          pieces fuel k depth (inner.reverse ++ .quoted [] :: done)
        else pieces fuel k depth (.plain c :: done)

/-- What follows a dollar sign. -/
def dollar : Nat → Bool → Reader Piece
  | 0, _ => wrong "Missing '\x7d'"
  | fuel + 1, inQuotes => do
    match (← get).rest with
    | '\x7b' :: _ =>
      advance 1
      braced fuel inQuotes
    | '(' :: '(' :: _ =>
      advance 2
      let w ← pieces fuel .sum 0 []
      if (← get).rest.take 2 != [')', ')'] then Setting.sum.unfinished
      advance 2
      return .sum w inQuotes
    | '(' :: _ =>
      advance 1
      let s ← list fuel true []
      expectMark fuel true ")"
      return .output s inQuotes
    | c :: rest =>
      if c.isDigit || isSpecial c then
        advance 1
        return .value (String.singleton c) .whole inQuotes
      else if Word.isNameStart c then
        let name := (c :: rest).takeWhile Word.isNameChar
        advance name.length
        return .value (String.ofList name) .whole inQuotes
      else return if inQuotes then .quoted ['$'] else .plain '$'
    | [] => return if inQuotes then .quoted ['$'] else .plain '$'

/-- A value in braces, read behind the opening one. -/
def braced : Nat → Bool → Reader Piece
  | 0, _ => wrong "Missing '\x7d'"
  | fuel + 1, inQuotes => do
    let cs := (← get).rest
    let inner : Setting := if inQuotes then .quotedBraces else .braces
    match lengthOf? cs with
    | some name =>
      advance (name.length + 2)
      return .value name .length inQuotes
    | none =>
      let chars := braceName cs
      advance chars.length
      let name := String.ofList chars
      let instead (sign : Char) (orEmpty : Bool) (width : Nat) : Reader Piece := do
        advance width
        let w ← pieces fuel inner 0 []
        advance 1
        return .value name (.instead sign orEmpty w) inQuotes
      let without (fromEnd longest : Bool) (width : Nat) : Reader Piece := do
        advance width
        let w ← pieces fuel .braces 0 []
        advance 1
        return .value name (.without fromEnd longest w) inQuotes
      let bad : Reader Piece := do
        discard (pieces fuel inner 0 [])
        advance 1
        return .malformed
      let isSign (c : Char) : Bool := "-+?=".toList.contains c
      if chars.isEmpty then bad
      else match cs.drop chars.length with
        | '\x7d' :: _ =>
          advance 1
          return .value name .whole inQuotes
        | ':' :: c :: _ => if isSign c then instead c true 2 else bad
        | '%' :: '%' :: _ => without true true 2
        | '%' :: _ => without true false 1
        | '#' :: '#' :: _ => without false true 2
        | '#' :: _ => without false false 1
        | c :: _ => if isSign c then instead c false 1 else bad
        | [] => inner.unfinished

/-- The next token. -/
def token : Nat → Reader Token
  | 0 => return .finish
  | fuel + 1 => do
    match (← get).held with
    | some t =>
      modify fun s => { s with held := none }
      return t
    | none =>
      advance (gap (← get).rest)
      let rest := (← get).rest
      match rest with
      | [] => return .finish
      | '\n' :: _ =>
        advance 1
        return .newline
      | rest => match ← takeRedirect? with
        | some t => return t
        | none => match standsNext? marks rest with
          | some text =>
            advance text.length
            return .mark text
          | none => return .word (← pieces fuel .bare 0 [])

/-- The next token that is no line feed. -/
def tokenAfterLines : Nat → Reader Token
  | 0 => return .finish
  | fuel + 1 => do
    match ← token fuel with
    | .newline => tokenAfterLines fuel
    | t => return t

/-- The next token where a command may begin. -/
def head : Nat → Reader Token
  | 0 => return .finish
  | fuel + 1 => do
    let t ← token fuel
    if ← substitute t then head fuel else return t

/-- The next token but line feeds where a command may begin. -/
def headAfterLines : Nat → Reader Token
  | 0 => return .finish
  | fuel + 1 => do
    match ← head fuel with
    | .newline => headAfterLines fuel
    | t => return t

/-- The next token within a command. -/
def argument : Nat → Bool → Reader Token
  | 0, _ => return .finish
  | fuel + 1, looksUp => do
    let behind ← startsBehind
    let t ← token fuel
    if looksUp || behind then
      if ← substitute t then argument fuel true else return t
    else return t

/-- With `words` a reserved word in the way is named as such. -/
def expectMark : Nat → Bool → String → Reader Unit
  | 0, words, text => unexpected .finish words text
  | fuel + 1, words, text => do
    match ← token fuel with
    | .mark other => if other != text then unexpected (.mark other) words text
    | t => unexpected t words text

def expectWord : Nat → String → Reader Unit
  | 0, text => unexpected .finish true text
  | fuel + 1, text => do
    let t ← tokenAfterLines fuel
    if !t.isWord text then unexpected t true text

/-- Commands one after the other. They end in front of a closing token, which may not come first
unless `mayEnd` says so. -/
def list : Nat → Bool → List Script → Reader Script
  | 0, _, _ => unexpected .finish
  | fuel + 1, mayEnd, done => do
    let t ← headAfterLines fuel
    giveBack t
    if t matches .finish || (mayEnd && t.endsList) then return .sequence done.reverse
    let s ← chain fuel
    match ← token fuel with
    | .mark "&" => list fuel true (.background s :: done)
    | .mark ";" | .newline => list fuel true (s :: done)
    | t =>
      giveBack t
      return .sequence (s :: done).reverse

/-- Commands that wait for the success or failure of what stands before them. -/
def chain : Nat → Reader Script
  | 0 => unexpected .finish
  | fuel + 1 => do links fuel (← pipe fuel)

def links : Nat → Script → Reader Script
  | 0, first => return first
  | fuel + 1, first => do
    match ← token fuel with
    | .mark "&&" =>
      giveBack (← headAfterLines fuel)
      links fuel (.both first (← pipe fuel))
    | .mark "||" =>
      giveBack (← headAfterLines fuel)
      links fuel (.either first (← pipe fuel))
    | t =>
      giveBack t
      return first

def pipe : Nat → Reader Script
  | 0 => unexpected .finish
  | fuel + 1 => do
    let t ← head fuel
    if t.isWord "!" then return .negated (← piped fuel)
    else
      giveBack t
      piped fuel

def piped : Nat → Reader Script
  | 0 => unexpected .finish
  | fuel + 1 => do
    let first ← command fuel
    match ← token fuel with
    | .mark "|" =>
      giveBack (← headAfterLines fuel)
      return .piped first (← piped fuel)
    | t =>
      giveBack t
      return first

def command : Nat → Reader Script
  | 0 => unexpected .finish
  | fuel + 1 => do
    let t ← head fuel
    let line := (← get).line
    match t, t.reserved? with
    | _, some "if" => redirected fuel line (← choice fuel)
    | _, some "while" => redirected fuel line (← loop fuel false)
    | _, some "until" => redirected fuel line (← loop fuel true)
    | _, some "for" => redirected fuel line (← each fuel line)
    | _, some "case" => redirected fuel line (← select fuel line)
    | _, some "\x7b" =>
      let s ← list fuel false []
      expectWord fuel "\x7d"
      redirected fuel line s
    | .mark "(", _ =>
      let s ← list fuel false []
      expectMark fuel true ")"
      redirected fuel line (.subshell line s)
    | .word w, none =>
      giveBack (.word w)
      simple fuel line [] [] []
    | .redirect n text, _ =>
      giveBack (.redirect n text)
      simple fuel line [] [] []
    | t, _ => unexpected t

/-- Redirections behind a command of several parts. -/
def redirected : Nat → Nat → Script → Reader Script
  | 0, _, s => return s
  | fuel + 1, line, s => do
    match ← redirections fuel [] with
    | [] => return s
    | found => return .redirected line s found

def redirections : Nat → List Redirect → Reader (List Redirect)
  | 0, done => return done.reverse
  | fuel + 1, done => do
    match ← token fuel with
    | .redirect n text => redirections fuel ((← redirect fuel n text) :: done)
    | t =>
      giveBack t
      return done.reverse

/-- A redirection, read behind its operator. -/
def redirect : Nat → Nat → String → Reader Redirect
  | 0, _, _ => unexpected .finish
  | fuel + 1, stream, text => do
    match ← token fuel with
    | .word w => match text with
      | "<" => return .file stream .read w
      | "<>" => return .file stream .both w
      | ">" => return .file stream .write w
      | ">|" => return .file stream .overwrite w
      | ">>" => return .file stream .append w
      | "<&" | ">&" => return .same stream w
      | text =>
        let (delimiter, isQuoted) := delimiterOf w
        let body ← takeDocument delimiter (text = "<<-")
        if isQuoted then return .text stream [.quoted body]
        else return .text stream (← apart body (pieces fuel .document 0 []))
    | t => unexpected t false

/-- A command of words, with the parts read so far in turned order. -/
def simple : Nat → Nat → List (String × Word) → List Word → List Redirect → Reader Script
  | 0, _, _, _, _ => unexpected .finish
  | fuel + 1, line, sets, words, redirects => do
    match ← argument fuel (words.isEmpty && !sets.isEmpty) with
    | .word w => match if words.isEmpty then Word.assignment? w else none with
      | some set => simple fuel line (set :: sets) words redirects
      | none => simple fuel line sets (w :: words) redirects
    | .redirect n text => simple fuel line sets words ((← redirect fuel n text) :: redirects)
    | t => match t, words, sets.isEmpty && redirects.isEmpty with
      | .mark "(", [w], true =>
        expectMark fuel false ")"
        match Word.plainText? w with
        | some name =>
          if !Word.isName name || specialNames.contains name then wrong "Bad function name"
          giveBack (← tokenAfterLines fuel)
          return .function name (← command fuel)
        | none => wrong "Bad function name"
      | t, _, _ =>
        giveBack t
        return .command line sets.reverse words.reverse redirects.reverse

/-- What follows `if` or `elif`, up to and with the closing word. -/
def choice : Nat → Reader Script
  | 0 => unexpected .finish
  | fuel + 1 => do
    let test ← list fuel false []
    expectWord fuel "then"
    let yes ← list fuel false []
    let t ← tokenAfterLines fuel
    if t.isWord "elif" then return .choice test yes (← choice fuel)
    else if t.isWord "else" then
      let no ← list fuel false []
      expectWord fuel "fi"
      return .choice test yes no
    else
      giveBack t
      expectWord fuel "fi"
      return .choice test yes .nothing

def loop : Nat → Bool → Reader Script
  | 0, _ => unexpected .finish
  | fuel + 1, whileFails => do
    let test ← list fuel false []
    expectWord fuel "do"
    let body ← list fuel false []
    expectWord fuel "done"
    return .loop whileFails test body

def words : Nat → List Word → Reader (List Word × Token)
  | 0, done => return (done.reverse, .finish)
  | fuel + 1, done => do
    match ← token fuel with
    | .word w => words fuel (w :: done)
    | t => return (done.reverse, t)

def each : Nat → Nat → Reader Script
  | 0, _ => unexpected .finish
  | fuel + 1, line => do
    match ← token fuel with
    | .word w => match (Word.plainText? w).filter Word.isName with
      | none => wrong "Bad for loop variable"
      | some name =>
        let t ← tokenAfterLines fuel
        let items ← if t.isWord "in" then do
            let (items, t) ← words fuel []
            if !(t matches .newline | .mark ";") then unexpected t
            pure items
          else do
            if !(t matches .mark ";") then giveBack t
            pure [[.value "@" .whole true]]
        expectWord fuel "do"
        let body ← list fuel false []
        expectWord fuel "done"
        return .each line name items body
    | _ => wrong "Bad for loop variable"

def select : Nat → Nat → Reader Script
  | 0, _ => unexpected .finish
  | fuel + 1, line => do
    match ← token fuel with
    | .word w =>
      expectWord fuel "in"
      return .select line w (← cases fuel [])
    | t => unexpected t true "word"

def cases : Nat → List (List Word × Script) → Reader (List (List Word × Script))
  | 0, _ => unexpected .finish
  | fuel + 1, done => do
    let t ← tokenAfterLines fuel
    if t.isWord "esac" then return done.reverse
    let t ← if t matches .mark "(" then token fuel else pure t
    let patterns ← patterns fuel t []
    let body ← list fuel true []
    let t ← tokenAfterLines fuel
    if t.isWord "esac" then return ((patterns, body) :: done).reverse
    else match t with
      | .mark ";;" => cases fuel ((patterns, body) :: done)
      | t => unexpected t true ";;"

/-- Patterns between bars, up to the closing parenthesis. -/
def patterns : Nat → Token → List Word → Reader (List Word)
  | 0, _, _ => unexpected .finish
  | fuel + 1, t, done => do
    let w := match t with
      | .word w => w
      | _ => []
    match ← token fuel with
    | .mark "|" => patterns fuel (← token fuel) (w :: done)
    | .mark ")" => return (w :: done).reverse
    | t => unexpected t false ")"

end

/-- Commands up to the end of a line, or nothing at the end of the text. -/
def line? (fuel : Nat) : Nat → List Script → Reader (Option Script)
  | 0, _ => return none
  | steps + 1, done => do
    match ← head fuel with
    | .newline => return some (.sequence done.reverse)
    | .finish =>
      giveBack .finish
      return if done.isEmpty then none else some (.sequence done.reverse)
    | t =>
      giveBack t
      let s ← chain fuel
      match ← token fuel with
      | .mark "&" => line? fuel steps (.background s :: done)
      | .mark ";" => line? fuel steps (s :: done)
      | .newline => return some (.sequence (s :: done).reverse)
      | .finish =>
        giveBack .finish
        return some (.sequence (s :: done).reverse)
      | t => unexpected t

/-- Fuel that no text of a length uses up. -/
def fuelFor (text : List Char) : Nat := 12 * text.length + 100

end LayerCache.Shell.Reader
