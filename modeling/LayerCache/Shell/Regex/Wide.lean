import LayerCache.Shell.Regex.Reader
import LayerCache.Text.Ascii

/-! The wide grammar of regular expressions, whose ways are tried in order of preference: with
greedy and other repetitions, groups that only look, and letters for classes. -/
namespace LayerCache.Regex.Wide

structure Flags where
  fold : Bool := false
  /-- A dot takes line feeds too. -/
  wholeDot : Bool := false
  lines : Bool := false
  /-- Blanks and comments mean nothing. -/
  spaced : Bool := false
  deriving DecidableEq, Repr

/-- What has been read of a pattern, besides its pieces. -/
structure State where
  rest : List Char
  flags : Flags := {}
  groups : Nat := 0
  names : List (String × Nat) := []
  /-- The highest group that something refers to. -/
  asked : Nat := 0

abbrev Read := StateT State (Except String)

def wrong {α : Type} (text : String) : Read α := throw text

def unclosed {α : Type} : Read α := wrong "missing closing parenthesis"

def skip (n : Nat) : Read Unit := modify fun s => { s with rest := s.rest.drop n }

def next? : Read (Option Char) := modifyGet fun s => (s.rest.head?, { s with rest := s.rest.drop 1 })

/-- Ranges with the letters in the other case. -/
def folded (ranges : List (Char × Char)) : List (Char × Char) :=
  ranges ++ ranges.flatMap fun (a, b) =>
    let part (low high : Char) (change : Char → Char) : List (Char × Char) :=
      let a := if a < low then low else a
      let b := if high < b then high else b
      if a ≤ b then [(change a, change b)] else []
    part 'a' 'z' Char.toUpper ++ part 'A' 'Z' Char.toLower

def set (ranges : List (Char × Char)) (negated : Bool := false) : Read Regex := do
  let fold := (← get).flags.fold
  return .one ⟨if fold then folded ranges else ranges, negated⟩

def lineEnd : List (Char × Char) := [('\n', '\n')]

def horizontal : List (Char × Char) := [('\t', '\t'), (' ', ' '), ('\xa0', '\xa0')]

def vertical : List (Char × Char) := [('\n', '\r'), ('\x85', '\x85')]

/-- The class that a letter behind a backslash stands for, and whether it is turned round. -/
def class? (c : Char) : Option (List (Char × Char) × Bool) :=
  match c with
  | 'd' => some ([('0', '9')], false)
  | 'D' => some ([('0', '9')], true)
  | 'w' => some (wordRanges, false)
  | 'W' => some (wordRanges, true)
  | 's' => some (spaceRanges, false)
  | 'S' => some (spaceRanges, true)
  | 'h' => some (horizontal, false)
  | 'H' => some (horizontal, true)
  | 'v' => some (vertical, false)
  | 'V' => some (vertical, true)
  | 'N' => some (lineEnd, true)
  | _ => none

/-- The ranges that others leave out. -/
def complement (ranges : List (Char × Char)) : List (Char × Char) :=
  ((List.range 256).map Char.ofNat).filterMap fun c =>
    if (CharSet.mk ranges false).covers c then none else some (c, c)

def hexValue (c : Char) : Nat :=
  if c.isDigit then c.toNat - '0'.toNat else c.toLower.toNat - 'a'.toNat + 10

def isHex (c : Char) : Bool := c.isDigit || ('a' ≤ c.toLower && c.toLower ≤ 'f')

def ofDigits (base : Nat) (digits : List Char) : Char :=
  Char.ofNat (digits.foldl (fun n c => base * n + hexValue c) 0 % 256)

/-- The character that a letter or number behind a backslash stands for. -/
def character? (c : Char) : Read (Option Char) := do
  let rest := (← get).rest
  match c with
  | 't' => return some '\t'
  | 'n' => return some '\n'
  | 'r' => return some '\r'
  | 'f' => return some '\x0c'
  | 'e' => return some '\x1b'
  | 'a' => return some '\x07'
  | 'c' => match ← next? with
    | some d => return some (Char.ofNat (d.toUpper.toNat ^^^ 64))
    | none => wrong "\\c at end of pattern"
  | 'x' => match rest with
    | '\x7b' :: more =>
      let digits := more.takeWhile isHex
      skip (digits.length + 2)
      return some (ofDigits 16 digits)
    | rest =>
      let digits := (rest.take 2).takeWhile isHex
      skip digits.length
      return some (ofDigits 16 digits)
  | '0' =>
    let digits := (rest.take 2).takeWhile fun c => '0' ≤ c && c ≤ '7'
    skip digits.length
    return some (ofDigits 8 digits)
  | c =>
    if c.isAlphanum then return none else return some c

/-- One part of a set: a character, or ranges. -/
def setPart : Read Element := do
  match ← next? with
  | none => wrong "missing terminating ] for character class"
  | some '[' => match (← get).rest with
    | ':' :: rest => match takeNamed ':' rest with
      | none => return .char '['
      | some (name, after) =>
        let (negated, name) := match name with
          | '^' :: name => (true, name)
          | name => (false, name)
        modify fun s => { s with rest := after }
        let more := [("word", wordRanges)]
        match (classes ++ more).lookup (String.ofList name) with
        | some ranges => return .ranges (if negated then complement ranges else ranges)
        | none => wrong "unknown POSIX class name"
    | _ => return .char '['
  | some '\\' => match ← next? with
    | none => wrong "\\ at end of pattern"
    | some 'b' => return .char '\x08'
    | some c => match class? c with
      | some (ranges, negated) => return .ranges (if negated then complement ranges else ranges)
      | none =>
        let digits := ((c :: (← get).rest).take 3).takeWhile fun c => '0' ≤ c && c ≤ '7'
        if digits.isEmpty then match ← character? c with
          | some c => return .char c
          | none => wrong "unrecognized character follows \\"
        else
          skip (digits.length - 1)
          return .char (ofDigits 8 digits)
  | some c => return .char c

/-- The inside of a set up to its bracket. -/
def setParts : Nat → Bool → Read (List (Char × Char))
  | 0, _ => wrong "missing terminating ] for character class"
  | fuel + 1, first => do
    if (← get).rest.head? = some ']' && !first then
      skip 1
      return []
    match ← setPart with
    | .ranges r => return r ++ (← setParts fuel false)
    | .char a =>
      match (← get).rest with
      | '-' :: b :: _ =>
        if b = ']' then return (a, a) :: (← setParts fuel false)
        else
          skip 1
          match ← setPart with
          | .char b =>
            if b < a then wrong "range out of order in character class"
            return (a, b) :: (← setParts fuel false)
          | .ranges _ => wrong "invalid range in character class"
      | _ => return (a, a) :: (← setParts fuel false)

/-- The name of a group up to a mark. -/
def groupName (close : Char) : Read String := do
  let name := (← get).rest.takeWhile fun c => c.isAlphanum || c = '_'
  skip name.length
  if (← next?) != some close then wrong "syntax error in subpattern name (missing terminator?)"
  return String.ofList name

def again (n : Nat) : Read Regex := do
  modify fun s => { s with asked := max s.asked n }
  return .again n

def againNamed (name : String) : Read Regex := do
  match (← get).names.lookup name with
  | some n => again n
  | none => wrong "reference to non-existent subpattern"

/-- The end of a line, which may be written with two characters. -/
def newLine : Regex :=
  .either (.both (.one (.single '\r')) (.one (.single '\n'))) (.one ⟨vertical, false⟩)

/-- What a backslash and a character stand for outside of sets. -/
def escape : Read Regex := do
  match ← next? with
  | none => wrong "\\ at end of pattern"
  | some c => match class? c with
    | some (ranges, negated) => set ranges negated
    | none => match c with
      | 'b' => return .wordEdge false false
      | 'B' => return .inWord
      | 'A' | 'G' => return .atStart
      | 'z' | 'Z' => return .atEnd
      | 'K' => return .start
      | 'R' => return newLine
      | 'Q' =>
        let text := (← get).rest
        let size := ((List.range text.length).find? fun i =>
          ['\\', 'E'].isPrefixOf (text.drop i)).getD text.length
        skip (size + 2)
        (text.take size).foldrM (fun c r => return .both (← set [(c, c)]) r) .empty
      | 'E' => return .empty
      | 'k' => match ← next? with
        | some '<' => againNamed (← groupName '>')
        | some '\'' => againNamed (← groupName '\'')
        | some '\x7b' => againNamed (← groupName '\x7d')
        | _ => wrong "\\k is not followed by a braced, angle-bracketed, or quoted name"
      | 'g' =>
        let rest := (← get).rest
        let isBraced := rest.head? = some '\x7b'
        let rest := if isBraced then rest.drop 1 else rest
        let isBack := rest.head? = some '-'
        let digits := (rest.drop (if isBack then 1 else 0)).takeWhile Char.isDigit
        skip (digits.length + (if isBraced then 2 else 0) + if isBack then 1 else 0)
        let n := (Chars.number? digits).getD 0
        let groups := (← get).groups
        again (if isBack then groups + 1 - n else n)
      | c =>
        if c = '0' then match ← character? c with
          | some c => set [(c, c)]
          | none => return .empty
        else if c.isDigit then
          let digits := (c :: (← get).rest).takeWhile Char.isDigit
          let n := (Chars.number? digits).getD 0
          if n < 10 || n ≤ (← get).groups then
            skip (digits.length - 1)
            again n
          else
            let octal := (digits.take 3).takeWhile fun c => c ≤ '7'
            skip (octal.length - 1)
            let c := ofDigits 8 octal
            set [(c, c)]
        else match ← character? c with
          | some c => set [(c, c)]
          | none => wrong (if "FLlUu".toList.contains c then
              "PCRE2 does not support \\F, \\L, \\l, \\N\x7bname\x7d, \\U, or \\u"
            else "unrecognized character follows \\")

/-- Flags up to a colon or the closing parenthesis; tells which of the two it was. -/
def setFlags : Nat → Bool → Read Bool
  | 0, _ => unclosed
  | fuel + 1, on => do
    let change (f : Flags → Flags) : Read Bool := do
      modify fun s => { s with flags := f s.flags }
      setFlags fuel on
    match ← next? with
    | some 'i' => change ({ · with fold := on })
    | some 's' => change ({ · with wholeDot := on })
    | some 'm' => change ({ · with lines := on })
    | some 'x' => change ({ · with spaced := on })
    | some 'n' | some 'J' | some 'U' => setFlags fuel on
    | some '-' => setFlags fuel false
    | some '^' =>
      modify fun s => { s with flags := {} }
      setFlags fuel on
    | some ':' => return true
    | some ')' => return false
    | _ => wrong "unrecognized character after (? or (?-"

/-- How often something is repeated, if a repetition stands next. -/
def times? : Read (Option (Nat × Option Nat)) := do
  match (← get).rest with
  | '*' :: _ => one (0, none)
  | '+' :: _ => one (1, none)
  | '?' :: _ => one (0, some 1)
  | '\x7b' :: rest =>
    let (least, after) := takeNumber rest
    let (bounds, after) : Option (Nat × Option Nat) × List Char := match least, after with
      | some n, '\x7d' :: _ => (some (n, some n), after)
      | some n, ',' :: more =>
        let (most, more) := takeNumber more
        (some (n, most), more)
      | _, _ => (none, after)
    match bounds, after with
    | some (n, most), '\x7d' :: after =>
      if 65535 < max n (most.getD 0) then wrong "number too big in \x7b\x7d quantifier"
      if most.any (· < n) then wrong "numbers out of order in \x7b\x7d quantifier"
      modify fun s => { s with rest := after }
      return some (n, most)
    | _, _ => return none
  | _ => return none
where
  one (bounds : Nat × Option Nat) : Read (Option (Nat × Option Nat)) := do
    skip 1
    return some bounds

/-- Something with the repetition behind it. -/
def repeated (r : Regex) : Read Regex := do
  match ← times? with
  | none => return r
  | some (least, most) => match (← get).rest with
    | '?' :: _ =>
      skip 1
      return .many r least most .least
    | '+' :: _ =>
      skip 1
      return .many r least most .possessive
    | _ => return .many r least most

/-- Whether all ways through something are of one length. -/
def width? : Regex → Option Nat
  | .one _ => some 1
  | .both a b => do return (← width? a) + (← width? b)
  | .either a b => do if (← width? a) = (← width? b) then width? a else none
  | .many r least most _ => if most = some least then (width? r).map (least * ·) else none
  | .group _ r | .atomic r => width? r
  | .again _ => none
  | _ => some 0

/-- Alternatives may each be of a length of their own at the top of what looks back. -/
def looksBack : Regex → Bool
  | .either a b => looksBack a && looksBack b
  | r => (width? r).isSome

mutual

/-- Alternatives up to a closing parenthesis or the end. -/
def whole : Nat → Read Regex
  | 0 => unclosed
  | fuel + 1 => do
    let flags := (← get).flags
    let first ← branch fuel
    let r ← if (← get).rest.head? = some '|' then do
        skip 1
        pure (.either first (← whole fuel))
      else pure first
    modify fun s => { s with flags }
    return r

def branch : Nat → Read Regex
  | 0 => return .empty
  | fuel + 1 => do
    let s ← get
    match s.rest with
    | [] | ')' :: _ | '|' :: _ => return .empty
    | c :: rest =>
      if s.flags.spaced && (c = ' ' || ('\t' ≤ c && c ≤ '\r')) then
        skip 1
        branch fuel
      else if s.flags.spaced && c = '#' then
        skip ((rest.takeWhile (· != '\n')).length + 1)
        branch fuel
      else
        let r ← piece fuel
        return .both r (← branch fuel)

/-- One piece with its repetition. -/
def piece : Nat → Read Regex
  | 0 => return .empty
  | fuel + 1 => do
    match ← next? with
    | none => return .empty
    | some '(' => match (← get).rest with
      | '?' :: _ =>
        skip 1
        special fuel
      | _ =>
        let n := (← get).groups + 1
        modify fun s => { s with groups := n }
        let r ← whole fuel
        close
        repeated (.group n r)
    | some '^' => return if (← get).flags.lines then .atLineStart else .atStart
    | some '$' => return if (← get).flags.lines then .atLineEnd else .atEnd
    | some '.' =>
      repeated (.one (if (← get).flags.wholeDot then .all else ⟨lineEnd, true⟩))
    | some '[' =>
      let negated := (← get).rest.head? = some '^'
      if negated then skip 1
      let ranges ← setParts ((← get).rest.length + 1) true
      repeated (← set ranges negated)
    | some '\\' => repeated (← escape)
    | some c =>
      if c = '*' || c = '+' || c = '?' then wrong "quantifier does not follow a repeatable item"
      repeated (← set [(c, c)])

/-- A group that begins with a question mark. -/
def special : Nat → Read Regex
  | 0 => unclosed
  | fuel + 1 => do
    let look (width : Nat) (ahead inverted : Bool) : Read Regex := do
      skip width
      let r ← whole fuel
      close
      if !ahead && !looksBack r then wrong "lookbehind assertion is not fixed length"
      return .look ahead inverted r
    let named (width : Nat) (mark : Char) : Read Regex := do
      skip width
      let name ← groupName mark
      let n := (← get).groups + 1
      modify fun s => { s with groups := n, names := (name, n) :: s.names }
      let r ← whole fuel
      close
      repeated (.group n r)
    match (← get).rest with
    | ':' :: _ =>
      skip 1
      let r ← whole fuel
      close
      repeated r
    | '|' :: _ =>
      skip 1
      let n := (← get).groups
      let r ← whole fuel
      close
      modify fun s => { s with groups := max n s.groups }
      repeated r
    | '>' :: _ =>
      skip 1
      let r ← whole fuel
      close
      repeated (.atomic r)
    | '=' :: _ => look 1 true false
    | '!' :: _ => look 1 true true
    | '<' :: '=' :: _ => look 2 false false
    | '<' :: '!' :: _ => look 2 false true
    | '<' :: _ => named 1 '>'
    | '\'' :: _ => named 1 '\''
    | 'P' :: '<' :: _ => named 2 '>'
    | 'P' :: '=' :: _ =>
      skip 2
      repeated (← againNamed (← groupName ')'))
    | '#' :: rest =>
      skip ((rest.takeWhile (· != ')')).length + 2)
      return .empty
    | _ =>
      let before := (← get).flags
      if ← setFlags ((← get).rest.length + 1) true then
        let r ← whole fuel
        close
        modify fun s => { s with flags := before }
        repeated r
      else return .empty

def close : Read Unit := do
  if (← next?) != some ')' then unclosed

end

/-- Reads a whole pattern. -/
def parse (pattern : List Char) (fold : Bool := false) : Except String Regex := do
  let fuel := 4 * pattern.length + 20
  let (r, s) ← (whole fuel).run { rest := pattern, flags := { fold, lines := true } }
  if !s.rest.isEmpty then throw "unmatched closing parenthesis"
  if s.groups < s.asked then throw "reference to non-existent subpattern"
  return r

end LayerCache.Regex.Wide
