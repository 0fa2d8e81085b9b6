import LayerCache.Shell.Editor.Script
import LayerCache.Shell.Regex.Reader
import LayerCache.Text.Ascii
import LayerCache.Text.Lines

/-! Characters written as escapes in scripts. -/
namespace LayerCache.Editor

/-- Where a text stands: in some places a character that an escape stands for needs one itself. -/
inductive Setting where
  | pattern
  | replacement
  | lines
  deriving DecidableEq, Repr

def letterEscapes : List (Char × Nat) :=
  [('a', 7), ('f', 12), ('n', 10), ('r', 13), ('t', 9), ('v', 11)]

def digitValue (c : Char) : Nat :=
  if c.isDigit then c.toNat - '0'.toNat else c.toLower.toNat - 'a'.toNat + 10

def isDigitIn (base : Nat) (c : Char) : Bool :=
  (c.isDigit || ('a' ≤ c.toLower && c.toLower ≤ 'f')) && digitValue c < base

/-- Letters that begin a number, with its base and its most digits. -/
def numberEscapes : List (Char × Nat × Nat) := [('d', 10, 3), ('o', 8, 3), ('x', 16, 2)]

/-- A character as it is written where it means itself. -/
def Setting.quote (s : Setting) (c : Char) : List Char :=
  if s = .replacement && (c = '&' || c = '\\') then ['\\', c] else [c]

/-- A control character behind `\c`, and what follows. -/
def takeControl : List Char → Option (Char × List Char)
  | '\\' :: '\\' :: rest => some (Char.ofNat 28, rest)
  | '\\' :: _ => none
  | c :: rest => some (Char.ofNat (Nat.xor c.toUpper.toNat 64), rest)
  | [] => none

/-- Escapes for single characters resolved, unless one stands within another. -/
def resolve (s : Setting) : Nat → List Char → Option (List Char)
  | 0, _ => some []
  | _ + 1, [] => some []
  | fuel + 1, '\\' :: c :: rest =>
    match letterEscapes.lookup c, numberEscapes.lookup c with
    | some n, _ =>
      if c = 'n' && s != .lines then (resolve s fuel rest).map ('\\' :: c :: ·)
      else (resolve s fuel rest).map (Char.ofNat n :: ·)
    | none, some (base, most) =>
      let digits := (rest.take most).takeWhile (isDigitIn base)
      let n := digits.foldl (fun n d => base * n + digitValue d) 0
      let now := if digits.isEmpty then [c] else s.quote (Char.ofNat (n % 256))
      (resolve s fuel (rest.drop digits.length)).map (now ++ ·)
    | none, none =>
      if c = 'c' && rest.isEmpty then some (s.quote '\\')
      else if c = 'c' then
        (takeControl rest).bind fun (c, rest) => (resolve s fuel rest).map (s.quote c ++ ·)
      else (resolve s fuel rest).map ('\\' :: c :: ·)
  | fuel + 1, c :: rest => (resolve s fuel rest).map (c :: ·)

/-- Backslashes taken away from what they stand in front of. -/
def unquote : List Char → List Char
  | '\\' :: c :: rest => c :: unquote rest
  | c :: rest => c :: unquote rest
  | [] => []

end LayerCache.Editor

/-! Reading scripts, which come in parts: arguments and files. -/
namespace LayerCache.Editor

abbrev Read := StateT (List Char) (Except Flaw)

def flawed {α : Type} (text : String) : Read α := do throw ⟨text, .left (← get).length⟩

def isBlank (c : Char) : Bool := c = ' ' || c = '\t'

def isSpace (c : Char) : Bool := c = ' ' || ('\t' ≤ c && c ≤ '\r')

def next? : Read (Option Char) := modifyGet fun cs => (cs.head?, cs.tail)

def skipBlanks : Read Unit := modify (List.dropWhile isBlank)

def peek? : Read (Option Char) := do return (← get).head?

def afterBlanks? : Read (Option Char) := do
  skipBlanks
  peek?

def skip : Read Unit := modify List.tail

def number? : Read (Option Nat) := modifyGet Regex.takeNumber

/-- Whether a delimiter may stand next, or where in a set of characters this is. -/
inductive Bracketing where
  | outside
  /-- Right behind the opening bracket, or its circumflex. -/
  | opening
  | opened
  | inside
  /-- Within a named element that ends with a mark. -/
  | named (mark : Char)
  | closing
  deriving DecidableEq, Repr

def Bracketing.step (b : Bracketing) (c : Char) (ahead : Option Char) : Bracketing :=
  let inner : Bracketing :=
    if c = '[' then match ahead with
      | some m => if m = ':' || m = '.' || m = '=' then .named m else .inside
      | none => .inside
    else .inside
  match b with
  | .outside => if c = '[' then .opening else .outside
  | .opening => if c = '^' then .opened else if c = ']' then .inside else inner
  | .opened => if c = ']' then .inside else inner
  | .inside => if c = ']' then .outside else inner
  | .named m => if c = m && ahead = some ']' then .closing else .named m
  | .closing => .inside

/-- Text up to a delimiter. Backslashes stay, save those in front of the delimiter and of line
feeds; in a pattern, a delimiter in a set of characters is one of them. -/
def takeDelimited (delimiter : Char) (isPattern : Bool) (b : Bracketing) :
    List Char → Option (List Char) × List Char
  | [] => (none, [])
  | '\\' :: c :: rest =>
    if delimiter = '\\' && b = .outside then (some [], c :: rest)
    else
      let next := if isPattern && b != .outside then (b.step '\\' (some c)).step c rest.head? else b
      let (text, rest) := takeDelimited delimiter isPattern next rest
      let kept :=
        if c = '\n' then [c]
        else if c = delimiter && b = .outside && (isPattern || c != '&') then [c]
        else if c = 'n' && isPattern then ['\n']
        else ['\\', c]
      (text.map (kept ++ ·), rest)
  | c :: rest =>
    if c = '\n' then (none, c :: rest)
    else if c = delimiter && b = .outside then (some [], rest)
    else
      let b := if isPattern then b.step c rest.head? else b
      let (text, rest) := takeDelimited delimiter isPattern b rest
      (text.map (c :: ·), rest)

def delimited (delimiter : Char) (isPattern : Bool) (otherwise : String) : Read (List Char) := do
  match takeDelimited delimiter isPattern .outside (← get) with
  | (some text, rest) =>
    set rest
    return text
  | (none, rest) =>
    set rest
    flawed otherwise

def resolved (s : Setting) (text : List Char) : Read (List Char) :=
  match resolve s (text.length + 1) text with
  | some text => pure text
  | none => flawed "recursive escaping after \\c not allowed"

/-- How patterns are read. -/
structure Dialect where
  extended : Bool := false
  /-- Lines in a text end in something else than line feeds. -/
  otherEnding : Bool := false
  /-- Nothing is run, and no other file is read or written. -/
  isolated : Bool := false

/-- Marks behind a pattern: letters match in either case, and lines have ends of their own. -/
structure Marks where
  fold : Bool := false
  lines : Bool := false

def compile (d : Dialect) (m : Marks) (text : List Char) : Read (Option Pattern) := do
  if text.isEmpty then
    if m.fold || m.lines then flawed "cannot specify modifiers on empty regexp" else return none
  else
    let grammar : Regex.Grammar := if d.extended then .sedExtended else .sed
    let grammar := { grammar with
      lineAnchors := m.lines && !d.otherEnding, lineSets := m.lines }
    match Regex.parse grammar text with
    | .ok regex => return some ⟨regex, m.fold⟩
    | .error .bareClass => throw ⟨Regex.Flaw.message .bareClass, .nowhere⟩
    | .error flaw => flawed flaw.message

def marks : Nat → Marks → Read Marks
  | 0, m => return m
  | fuel + 1, m => do match ← afterBlanks? with
    | some 'I' => do
      skip
      marks fuel { m with fold := true }
    | some 'M' => do
      skip
      marks fuel { m with lines := true }
    | _ => return m

def matching (d : Dialect) (delimiter : Char) : Read Spot := do
  let text ← delimited delimiter true "unterminated address regex"
  let text ← resolved .pattern text
  return .matching (← compile d (← marks ((← get).length + 1) {}) text)

/-- An address, if one stands there. -/
def spot? (d : Dialect) : Read (Option Spot) := do
  match ← peek? with
  | some '$' => do
    skip
    return some .last
  | some '/' => do
    skip
    return some (← matching d '/')
  | some '\\' => do
    skip
    match ← next? with
    | none => flawed "unterminated address regex"
    | some delimiter => return some (← matching d delimiter)
  | some c =>
    if !c.isDigit then return none
    else
      let first := (← number?).getD 0
      if (← afterBlanks?) != some '~' then return some (.line first)
      skip
      skipBlanks
      match ← number? with
      | none | some 0 => return some (.line first)
      | some step => return some (.every first step)
  | none => return none

/-- The number behind a sign. -/
def countAfterSign : Read Nat := do
  skip
  skipBlanks
  return (← number?).getD 0

def stop (d : Dialect) : Read Stop := do
  match ← afterBlanks? with
  | some '+' => return .after (← countAfterSign)
  | some '~' => return .atMultiple (← countAfterSign)
  | _ => match ← spot? d with
    | some s => return .at s
    | none => do
      skip
      flawed "unexpected \x60,'"

def selection (d : Dialect) : Read Selection := do
  match ← peek? with
  | some '+' | some '~' => do
    discard countAfterSign
    flawed "invalid usage of +N or ~N as first address"
  | _ => pure ()
  let some first ← spot? d | return .all
  if (← afterBlanks?) = some ',' then
    skip
    let last ← stop d
    skipBlanks
    match first, last with
    | .line 0, .at (.matching _) => return .range first last
    | .line 0, _ => skip; flawed "invalid usage of line address 0"
    | _, _ => return .range first last
  else match first with
    | .line 0 => skip; flawed "invalid usage of line address 0"
    | _ => return .at first

/-- The rest of the line. -/
def fileName : Read String := do
  skipBlanks
  let name := (← get).takeWhile (· != '\n')
  modify (·.drop name.length)
  if name.isEmpty then flawed "missing filename in r/R/w/W commands"
  else return String.ofList name

def labelName : Read String := do
  skipBlanks
  let name := (← get).takeWhile fun c => !isSpace c && c != ';' && c != '\x7d'
  modify (·.drop name.length)
  return String.ofList name

/-- Only a semicolon, a closing brace, a comment or the end of the line may follow. -/
def ended {α : Type} (a : α) : Read α := do
  match ← afterBlanks? with
  | none | some '\x7d' | some '#' => return a
  | some ';' | some '\n' => do
    skip
    return a
  | some _ => do
    skip
    flawed "extra characters after command"

/-- The pieces of a replacement; `text` is what stands in front, the latest character first. -/
def pieces (casing saved : Casing) (text : List Char) : List Char → List Piece
  | [] => if text.isEmpty then [] else [⟨text.reverse, none, casing⟩]
  | '&' :: rest => ⟨text.reverse, some 0, casing⟩ :: pieces saved saved [] rest
  | '\\' :: c :: rest =>
    let piece : Piece := ⟨text.reverse, none, casing⟩
    match c with
    | 'L' => piece :: pieces ⟨Char.toLower, none⟩ ⟨Char.toLower, none⟩ [] rest
    | 'U' => piece :: pieces ⟨Char.toUpper, none⟩ ⟨Char.toUpper, none⟩ [] rest
    | 'E' => piece :: pieces {} {} [] rest
    | 'l' => piece :: pieces { saved with first := some Char.toLower } saved [] rest
    | 'u' => piece :: pieces { saved with first := some Char.toUpper } saved [] rest
    | 'n' => pieces casing saved ('\n' :: text) rest
    | c =>
      if c.isDigit then
        { piece with group := some (c.toNat - '0'.toNat) } :: pieces saved saved [] rest
      else pieces casing saved (c :: text) rest
  | c :: rest => pieces casing saved (c :: text) rest

structure Flags where
  marks : Marks := {}
  nth : Option Nat := none
  all : Bool := false
  prints : Bool := false
  executes : Bool := false
  printsFirst : Bool := false
  file : Option String := none

def flags : Nat → Flags → Read Flags
  | 0, f => return f
  | fuel + 1, f => do match ← peek? with
    | none | some '\x7d' | some '#' => return f
    | some c =>
      if c.isDigit then
        if f.nth.isSome then
          skip
          flawed "multiple number options to \x60s' command"
        match ← number? with
        | some 0 => flawed "number option to \x60s' command may not be zero"
        | n => flags fuel { f with nth := n }
      else
        skip
        match c with
        | '\n' | ';' => return f
        | ' ' | '\t' => flags fuel f
        | 'i' | 'I' => flags fuel { f with marks := { f.marks with fold := true } }
        | 'm' | 'M' => flags fuel { f with marks := { f.marks with lines := true } }
        | 'e' => flags fuel { f with executes := true, printsFirst := f.prints }
        | 'p' =>
          if f.prints then flawed "multiple \x60p' options to \x60s' command"
          else flags fuel { f with prints := true }
        | 'g' =>
          if f.all then flawed "multiple \x60g' options to \x60s' command"
          else flags fuel { f with all := true }
        | 'w' => return { f with file := some (← fileName) }
        | '\r' =>
          if (← peek?) = some '\n' then
            skip
            return f
          else
            skip
            flawed "unknown option to \x60s'"
        | _ => flawed "unknown option to \x60s'"

def groupsOf : Regex → Nat
  | .group n r => max n (groupsOf r)
  | .both a b | .either a b => max (groupsOf a) (groupsOf b)
  | .many r _ _ _ => groupsOf r
  | _ => 0

def mostGroup (pieces : List Piece) : Nat :=
  pieces.foldl (fun n piece => max n (piece.group.getD 0)) 0

/-- What may not be done in isolation. -/
def outward (d : Dialect) : Read Unit :=
  if d.isolated then flawed "e/r/w commands disabled in sandbox mode" else pure ()

def substitution (d : Dialect) : Read Action := do
  let unended := "unterminated \x60s' command"
  let some delimiter ← next? | flawed unended
  let text ← resolved .pattern (← delimited delimiter true unended)
  let replacement ← resolved .replacement (← delimited delimiter false unended)
  let pieces := pieces {} {} [] replacement
  let f ← flags ((← get).length + 1) {}
  if f.executes || f.file.isSome then outward d
  let pattern ← compile d f.marks text
  if pattern.any fun p => groupsOf p.regex < mostGroup pieces then
    flawed ("invalid reference \\" ++ toString (mostGroup pieces) ++ " on \x60s' command's RHS")
  else return .substitute {
    pattern, pieces, nth := f.nth.getD 1, all := f.all, prints := f.prints && !f.printsFirst,
    executes := f.executes, printsFirst := f.printsFirst, file := f.file }

def translation : Read Action := do
  let unended := "unterminated \x60y' command"
  let some delimiter ← next? | flawed unended
  let plain (text : List Char) : Read (List Char) := do
    return (unquoted (← resolved .replacement text))
  let source ← plain (← delimited delimiter false unended)
  let target ← plain (← delimited delimiter false unended)
  if source.length != target.length then
    flawed "strings for \x60y' command are different lengths"
  else ended (.translate source target)
where
  unquoted : List Char → List Char
    | '\\' :: 'n' :: rest => '\n' :: unquoted rest
    | '\\' :: c :: rest => c :: unquoted rest
    | c :: rest => c :: unquoted rest
    | [] => []

/-- Lines of text up to one that does not end in a backslash, and whether the last one does. -/
def takeLines : List Char → List Char × Bool × List Char
  | [] => (['\n'], false, [])
  | '\n' :: rest => (['\n'], false, rest)
  | '\\' :: c :: rest =>
    let (text, goesOn, rest) := takeLines rest
    ('\\' :: c :: text, goesOn, rest)
  | ['\\'] => (['\n'], true, [])
  | c :: rest =>
    let (text, goesOn, rest) := takeLines rest
    (c :: text, goesOn, rest)

/-- Text of an instruction, and whether it goes on in the next part of the script. -/
def textLines : Read (List Char × Bool) := do
  let (text, goesOn, rest) := takeLines (← get)
  set rest
  return (unquote (← resolved .lines text), goesOn)

def text : Read (List Char × Bool) := do
  match ← afterBlanks? with
  | none => flawed "expected \\ after \x60a', \x60c' or \x60i'"
  | some '\\' => do
    skip
    match ← peek? with
    | none => return ([], true)
    | some '\n' => do
      skip
      textLines
    | some _ => textLines
  | some _ => textLines

def bareActions : List (Char × Action) :=
  [('d', .delete), ('D', .deleteLine), ('p', .print), ('P', .printLine), ('=', .number),
    ('F', .fileName), ('n', .next), ('N', .nextToo), ('h', .hold), ('H', .holdToo), ('g', .recall),
    ('G', .recallToo), ('x', .exchange), ('z', .clear)]

/-- What has been read of a script: instructions, the latest first, and the groups still open, each
with the number of its part and of the characters left there. -/
structure Draft where
  instructions : List Instruction := []
  /-- The text of the last instruction goes on. -/
  goesOn : Bool := false
  groups : List (Nat × Nat) := []
  quiet : Bool := false

/-- An action by its letter, and whether its text goes on. -/
def action (d : Dialect) (s : Selection) (letter : Char) : Read (Action × Bool) :=
  let bare (a : Read Action) : Read (Action × Bool) := do return (← a, false)
  let lines (a : List Char → Action) : Read (Action × Bool) := do
    let (text, goesOn) ← text
    return (a text, goesOn)
  let single : Read Unit := match s with
    | .range _ _ => flawed "command only uses one address"
    | _ => pure ()
  match letter with
  | '\x7b' => return (.group, false)
  | '\x7d' => bare do match s with
    | .all => ended .endGroup
    | _ => flawed "\x60\x7d' doesn't want any addresses"
  | ':' => bare do match s with
    | .all => do
      let name ← labelName
      if name.isEmpty then flawed "\":\" lacks a label" else return .label name
    | _ => flawed ": doesn't want any addresses"
  | 'b' => bare do return .jump (← labelName)
  | 't' => bare do return .jumpIf true (← labelName)
  | 'T' => bare do return .jumpIf false (← labelName)
  | 's' => bare (substitution d)
  | 'y' => bare translation
  | 'a' => lines .append
  | 'i' => lines .insert
  | 'c' => lines .change
  | 'e' => do
    outward d
    match ← afterBlanks? with
    | none => return (.execute [], false)
    | some '\n' => skip; return (.execute [], false)
    | some _ => do
      let (command, goesOn) ← textLines
      return (.execute command, goesOn)
  | 'l' => bare do
    skipBlanks
    ended (.describe (← number?))
  | 'q' => bare do
    single
    skipBlanks
    ended (.quit ((← number?).getD 0) true)
  | 'Q' => bare do
    single
    skipBlanks
    ended (.quit ((← number?).getD 0) false)
  | 'r' => bare do outward d; return .read (← fileName)
  | 'R' => bare do outward d; return .readLine (← fileName)
  | 'w' => bare do outward d; return .write (← fileName)
  | 'W' => bare do outward d; return .writeLine (← fileName)
  | letter => match bareActions.lookup letter with
    | some a => bare (ended a)
    | none => flawed ("unknown command: \x60" ++ String.singleton letter ++ "'")

/-- The newest edition that a script may ask for. -/
def edition : List Nat := [4, 9]

def isNewer (asked : String) : Bool :=
  let numbers := (Chars.split '.' asked.toList).map fun n => (Chars.number? n).getD 0
  edition < numbers

/-- Reads one instruction into a draft; `part` is the number of the part it stands in. -/
def instruction (d : Dialect) (part : Nat) (draft : Draft) : Read Draft := do
  let s ← selection d
  skipBlanks
  let negated := (← peek?) = some '!'
  if negated then
    skip
    if (← afterBlanks?) = some '!' then
      skip
      flawed "multiple \x60!'s"
  match ← next? with
  | none => flawed "missing command"
  | some '#' => match s with
    | .all => do
      modify (List.dropWhile (· != '\n'))
      return draft
    | _ => flawed "comments don't accept any addresses"
  | some 'v' => do
    if isNewer (← labelName) then flawed "expected newer version of sed" else return draft
  | some letter =>
    let groups ← match letter, draft.groups with
      | '\x7b', groups => pure ((part, (← get).length) :: groups)
      | '\x7d', [] => flawed "unexpected \x60\x7d'"
      | '\x7d', _ :: groups => pure groups
      | _, groups => pure groups
    let (a, goesOn) ← action d s letter
    return { draft with instructions := ⟨s, negated, a⟩ :: draft.instructions, goesOn, groups }

def instructions (d : Dialect) (part : Nat) : Nat → Draft → Read Draft
  | 0, draft => return draft
  | fuel + 1, draft => do
    modify (List.dropWhile fun c => isSpace c || c = ';')
    if (← get).isEmpty then return draft
    else instructions d part fuel (← instruction d part draft)

/-- More text for the last instruction. -/
def Action.extend (more : List Char) : Action → Action
  | .append text => .append (text ++ more)
  | .insert text => .insert (text ++ more)
  | .change text => .change (text ++ more)
  | .execute text => .execute (text ++ more)
  | a => a

def wholePart (d : Dialect) (part : Nat) (draft : Draft) : Read Draft := do
  let draft ← if !draft.goesOn then pure draft
    else match draft.instructions with
      | [] => pure draft
      | last :: earlier => do
        let (more, goesOn) ← textLines
        let last := { last with action := last.action.extend more }
        pure { draft with instructions := last :: earlier, goesOn }
  let isFirst := part = 0 && ['#', 'n'].isPrefixOf (← get)
  let draft := if isFirst then { draft with quiet := true } else draft
  instructions d part ((← get).length + 1) draft

/-- A script from its parts, and whether it asks for silence; or a flaw and the number of the part
where it was noticed. -/
def parse (d : Dialect) (parts : List (List Char)) :
    Except (Nat × Flaw) (List Instruction × Bool) := do
  let draft ← parts.zipIdx.foldlM (fun draft (text, part) =>
    match (wholePart d part draft).run text with
    | .ok (draft, _) => .ok draft
    | .error flaw => .error (part, flaw)) ({} : Draft)
  match draft.groups with
  | [] => return (draft.instructions.reverse, draft.quiet)
  | (part, left) :: _ => throw (part, ⟨"unmatched \x60\x7b'", .opening left⟩)

end LayerCache.Editor
