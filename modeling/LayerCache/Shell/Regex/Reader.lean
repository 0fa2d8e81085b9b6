import LayerCache.Shell.Regex.Basic

/-! Regular expressions as they are written. In the basic grammar most operators stand behind a
backslash, in the extended one they stand bare; programs differ in what they make of mistakes. -/
namespace LayerCache.Regex

/-- Where an operator has nothing to repeat. -/
inductive Idle where
  /-- It stands for its own character. -/
  | literal
  | skipped
  | flawed
  deriving DecidableEq, Repr

structure Grammar where
  /-- Groups and alternatives are written bare. -/
  bareGroups : Bool := false
  /-- The signs for once or more and for perhaps are written bare. -/
  bareSigns : Bool := false
  /-- Bounds are known, bare like groups or behind a backslash. -/
  bounds : Bool := true
  idle : Idle := .literal
  idleBounds : Idle := .literal
  /-- Bounds that make no sense stand for their own characters. -/
  lenientBounds : Bool := false
  /-- Nothing is repeated twice. -/
  once : Bool := false
  /-- A closing parenthesis may stand alone. -/
  lenientClosing : Bool := false
  emptyRanges : Bool := false
  /-- A backslash and `n` are a line feed. -/
  lineFeeds : Bool := false
  /-- Every line of a text has its own start and end. -/
  lineAnchors : Bool := false
  /-- A line feed is matched only by itself. -/
  lineSets : Bool := false
  deriving DecidableEq, Repr

namespace Grammar

def basic : Grammar := { emptyRanges := true }

def grep : Grammar := {}

def grepExtended : Grammar where
  bareGroups := true
  bareSigns := true
  idle := .skipped
  idleBounds := .skipped
  lenientBounds := true
  lenientClosing := true

def sed : Grammar := { idleBounds := .flawed, once := true, lineFeeds := true }

def sedExtended : Grammar where
  bareGroups := true
  bareSigns := true
  idle := .flawed
  idleBounds := .flawed
  lineFeeds := true

/-- Groups behind backslashes, but bare signs, and no bounds. -/
def mixed : Grammar := { bareSigns := true, bounds := false, emptyRanges := true }

end Grammar

inductive Token where
  | opening
  | closing
  | bar
  /-- Repeats what stands before it. -/
  | count (least : Nat) (most : Option Nat)
  | atom (r : Regex)

inductive Flaw where
  | emptySet
  | openSet
  | badClass
  | badElement
  | badRange
  | openGroup
  | strayClosing
  | openBounds
  | badBounds
  | tooBig
  | nothingToRepeat
  | backslashAtEnd
  | badReference
  | bareClass
  deriving DecidableEq, Repr

def Flaw.message : Flaw → String
  | emptySet => "Invalid regular expression"
  | openSet => "Unmatched [, [^, [:, [., or [="
  | badClass => "Invalid character class name"
  | badElement => "Invalid collation character"
  | badRange => "Invalid range end"
  | openGroup => "Unmatched ( or \\("
  | strayClosing => "Unmatched ) or \\)"
  | openBounds => "Unmatched \\\x7b"
  | badBounds => "Invalid content of \\\x7b\\\x7d"
  | tooBig => "Regular expression too big"
  | nothingToRepeat => "Invalid preceding regular expression"
  | backslashAtEnd => "Trailing backslash"
  | badReference => "Invalid back reference"
  | bareClass => "character class syntax is [[:space:]], not [:space:]"

def classes : List (String × List (Char × Char)) :=
  let letters := [('A', 'Z'), ('a', 'z')]
  [("alpha", letters), ("digit", [('0', '9')]), ("alnum", ('0', '9') :: letters),
    ("upper", [('A', 'Z')]), ("lower", [('a', 'z')]), ("blank", [(' ', ' '), ('\t', '\t')]),
    ("space", [(' ', ' '), ('\t', '\r')]), ("print", [(' ', '~')]), ("graph", [('!', '~')]),
    ("punct", [('!', '/'), (':', '@'), ('[', '\x60'), ('\x7b', '~')]),
    ("cntrl", [(Char.ofNat 0, Char.ofNat 31), (Char.ofNat 127, Char.ofNat 127)]),
    ("xdigit", [('0', '9'), ('A', 'F'), ('a', 'f')])]

def wordRanges : List (Char × Char) := [('0', '9'), ('A', 'Z'), ('_', '_'), ('a', 'z')]

def spaceRanges : List (Char × Char) := [(' ', ' '), ('\t', '\r')]

/-- The text in front of a mark and a closing bracket, and what follows these. -/
def takeNamed (mark : Char) : List Char → Option (List Char × List Char)
  | [] => none
  | c :: rest =>
    if c = mark && rest.head? = some ']' then some ([], rest.drop 1)
    else (takeNamed mark rest).map fun (name, rest) => (c :: name, rest)

/-- A class by its name between colons, read behind its bracket. -/
def takeClass (cs : List Char) : Option (List (Char × Char) × List Char) := do
  let (name, rest) ← takeNamed ':' cs
  return (← classes.lookup (String.ofList name), rest)

/-- A part of a set: a character, or a class. -/
inductive Element where
  | char (c : Char)
  | ranges (r : List (Char × Char))

/-- The first part of a set. A dash may begin one only where `dash` says so or right before the
end. -/
def takeElement (dash : Bool) (cs : List Char) : Except Flaw (Element × List Char) :=
  match cs with
  | [] => .error .openSet
  | '[' :: ':' :: rest => match takeNamed ':' rest with
    | none => .error .openSet
    | some (name, rest) => match classes.lookup (String.ofList name) with
      | some ranges => .ok (.ranges ranges, rest)
      | none => .error .badClass
  | '[' :: '.' :: rest => named '.' rest
  | '[' :: '=' :: rest => named '=' rest
  | '-' :: rest =>
    if dash || rest.head? = some ']' then .ok (.char '-', rest)
    else if rest.isEmpty then .error .openSet
    else .error .badRange
  | c :: rest => .ok (.char c, rest)
where
  named (mark : Char) (rest : List Char) : Except Flaw (Element × List Char) :=
    match takeNamed mark rest with
    | none => .error .openSet
    | some ([c], rest) => .ok (.char c, rest)
    | some _ => .error .badElement

/-- The inside of a set up to its bracket. -/
def takeElements (g : Grammar) : Nat → Bool → List Char →
    Except Flaw (List (Char × Char) × List Char)
  | 0, _, _ => .error .openSet
  | fuel + 1, first, cs => do
    if cs.head? = some ']' && !first then return ([], cs.drop 1)
    let (element, rest) ← takeElement first cs
    match rest with
    | '-' :: b :: more =>
      if b = ']' then
        let (others, rest) ← takeElements g fuel false rest
        return (rangesOf element ++ others, rest)
      else
        let (last, more) ← takeElement true (b :: more)
        match element, last with
        | .char a, .char b =>
          if b < a && !g.emptyRanges then throw .badRange
          let (others, rest) ← takeElements g fuel false more
          return ((a, b) :: others, rest)
        | _, _ => throw .badRange
    | ['-'] => throw .openSet
    | rest =>
      let (others, rest) ← takeElements g fuel false rest
      return (rangesOf element ++ others, rest)
where
  rangesOf : Element → List (Char × Char)
    | .char c => [(c, c)]
    | .ranges r => r

/-- Whether the inside of a set was meant to be a class. -/
def isBareClass (inside : List Char) : Bool :=
  2 < inside.length && inside.head? = some ':' && inside.getLast? = some ':' &&
    inside.all fun c => c != '-' && c != '['

/-- A set, read behind its opening bracket. -/
def takeSet (g : Grammar) (cs : List Char) : Except Flaw (CharSet × List Char) := do
  let (negated, cs) := match cs with
    | '^' :: rest => (true, rest)
    | cs => (false, cs)
  if cs.isEmpty then throw .emptySet
  let (ranges, rest) ← takeElements g (cs.length + 1) true cs
  if isBareClass (cs.take (cs.length - rest.length - 1)) then throw .bareClass
  return (⟨if negated && g.lineSets then ('\n', '\n') :: ranges else ranges, negated⟩, rest)

def takeNumber (cs : List Char) : Option Nat × List Char :=
  let digits := cs.takeWhile Char.isDigit
  (if digits.isEmpty then none
    else some (digits.foldl (fun n c => 10 * n + (c.toNat - '0'.toNat)) 0),
    cs.drop digits.length)

/-- The largest bound. -/
def mostTimes : Nat := 32767

/-- Bounds up to the text that closes them: a number, or two of which either may be left out. -/
def takeBounds (close : List Char) (cs : List Char) : Except Flaw (Token × List Char) :=
  let (first, rest) := takeNumber cs
  let (bounds, rest) : Option (Nat × Option Nat) × List Char := match first, rest with
    | first, ',' :: rest =>
      let (last, rest) := takeNumber rest
      (some (first.getD 0, last), rest)
    | some n, rest => (some (n, some n), rest)
    | none, rest => (none, rest)
  let isClosed := (List.range (cs.length + 1)).any fun i => close.isPrefixOf (cs.drop i)
  match bounds with
  | some (least, most) =>
    if !close.isPrefixOf rest then .error (if isClosed then .badBounds else .openBounds)
    else if most.any (· < least) then .error .badBounds
    else if mostTimes < most.getD least then .error .tooBig
    else .ok (.count least most, rest.drop close.length)
  | none => .error (if isClosed then .badBounds else .openBounds)

def char (c : Char) : Token := .atom (.one (.single c))

/-- What a letter behind a backslash stands for in every grammar. -/
def escaped (g : Grammar) (c : Char) : Token :=
  match c with
  | 'w' => .atom (.one ⟨wordRanges, false⟩)
  | 'W' => .atom (.one ⟨wordRanges, true⟩)
  | 's' => .atom (.one ⟨spaceRanges, false⟩)
  | 'S' => .atom (.one ⟨spaceRanges, true⟩)
  | 'b' => .atom (.wordEdge false false)
  | 'B' => .atom .inWord
  | '<' => .atom (.wordEdge false true)
  | '>' => .atom (.wordEdge true false)
  | '\x60' => .atom .atStart
  | '\'' => .atom .atEnd
  | c =>
    if '1' ≤ c && c ≤ '9' then .atom (.again (c.toNat - '0'.toNat))
    else char (if c = 'n' && g.lineFeeds then '\n' else c)

/-- Whether something may be repeated at this point, by the token before. -/
def follows : Option Token → Bool
  | none | some .opening | some .bar => false
  | some (.atom r) => !isAnchor r
  | _ => true
where
  isAnchor : Regex → Bool
    | .atStart | .atEnd | .atLineStart | .atLineEnd | .wordEdge _ _ | .inWord => true
    | _ => false

/-- Whether a dollar sign ends the pattern or an alternative of it. -/
def endsBranch (g : Grammar) (rest : List Char) : Bool :=
  g.bareGroups || rest.isEmpty || ['\\', ')'].isPrefixOf rest || ['\\', '|'].isPrefixOf rest

/-- A repetition, or what it is where nothing stands before it. -/
def repetition (g : Grammar) (before : Option Token) (sign : Char) (bounds : Bool)
    (counted : Token × List Char) (rest : List Char) : Except Flaw (Token × List Char) :=
  if follows before then
    if g.once && (bounds || sign = '*') && (before matches some (.count _ _)) then
      .error .nothingToRepeat
    else .ok counted
  else match if bounds then g.idleBounds else g.idle with
    | .literal => .ok (char sign, rest)
    | .skipped => .ok (.atom .empty, counted.2)
    | .flawed => .error .nothingToRepeat

/-- Bounds, or the characters they are written with. -/
def bounded (g : Grammar) (before : Option Token) (rest : List Char) :
    Except Flaw (Token × List Char) :=
  if !g.bounds then .ok (char '\x7b', rest)
  else match takeBounds (if g.bareGroups then ['\x7d'] else ['\\', '\x7d']) rest with
    | .ok counted => repetition g before '\x7b' true counted rest
    | .error flaw =>
      if !follows before && g.idleBounds != .skipped then repetition g before '\x7b' true
        (char '\x7b', rest) rest
      else if g.lenientBounds && flaw != .tooBig && !isOrdered rest then .ok (char '\x7b', rest)
      else .error flaw
where
  /-- Two numbers in the wrong order are wrong in any case, and so are no numbers at all. -/
  isOrdered (rest : List Char) : Bool :=
    let (first, more) := takeNumber rest
    match first, more with
    | some _, ',' :: more => (takeNumber more).2.head? = some '\x7d'
    | none, '\x7d' :: _ => true
    | _, _ => false

/-- The first token of a pattern. -/
def takeToken (g : Grammar) (before : Option Token) (c : Char) (rest : List Char) :
    Except Flaw (Token × List Char) :=
  let sign (least : Nat) (most : Option Nat) :=
    repetition g before c false (.count least most, rest) rest
  match c, rest with
  | '[', rest => (takeSet g rest).map fun (s, rest) => (.atom (.one s), rest)
  | '.', rest => .ok (.atom (.one ⟨if g.lineSets then [('\n', '\n')] else [], true⟩), rest)
  | '*', _ => sign 0 none
  | '^', rest =>
    let first : Regex := if g.lineAnchors then .atLineStart else .atStart
    .ok (if g.bareGroups || !follows before then .atom first else char '^', rest)
  | '$', rest =>
    let last : Regex := if g.lineAnchors then .atLineEnd else .atEnd
    .ok (if endsBranch g rest then .atom last else char '$', rest)
  | '\\', [] => .error .backslashAtEnd
  | '\\', c :: rest =>
    if !g.bareGroups && c = '(' then .ok (.opening, rest)
    else if !g.bareGroups && c = ')' then .ok (.closing, rest)
    else if !g.bareGroups && c = '|' then .ok (.bar, rest)
    else if !g.bareGroups && c = '\x7b' then bounded g before rest
    else if !g.bareSigns && c = '+' then repetition g before c false (.count 1 none, rest) rest
    else if !g.bareSigns && c = '?' then
      repetition g before c false (.count 0 (some 1), rest) rest
    else .ok (escaped g c, rest)
  | c, rest =>
    if g.bareGroups && c = '(' then .ok (.opening, rest)
    else if g.bareGroups && c = ')' then .ok (.closing, rest)
    else if g.bareGroups && c = '|' then .ok (.bar, rest)
    else if g.bareGroups && c = '\x7b' then bounded g before rest
    else if g.bareSigns && c = '+' then sign 1 none
    else if g.bareSigns && c = '?' then sign 0 (some 1)
    else .ok (char c, rest)

def tokens (g : Grammar) : Nat → Option Token → List Char → Except Flaw (List Token)
  | 0, _, _ => .ok []
  | _ + 1, _, [] => .ok []
  | fuel + 1, before, c :: rest => do
    let (token, rest) ← takeToken g before c rest
    let next := match token with
      | .atom .empty => before
      | token => some token
    return token :: (← tokens g fuel next rest)

/-- A pattern under way: the open groups with what stands before them, the innermost first, and the
alternatives and the pieces of the group being read. -/
structure Draft where
  outer : List (Nat × Option Regex × List Regex) := []
  earlier : Option Regex := none
  pieces : List Regex := []
  groups : Nat := 0
  /-- Groups that have been closed. -/
  closed : List Nat := []

namespace Draft

def branch (d : Draft) : Regex := d.pieces.foldl (fun after piece => .both piece after) .empty

def whole (d : Draft) : Regex := match d.earlier with
  | none => d.branch
  | some r => .either r d.branch

def add (g : Grammar) (d : Draft) : Token → Except Flaw Draft
  | .opening => .ok { d with
      outer := (d.groups + 1, d.earlier, d.pieces) :: d.outer
      earlier := none
      pieces := []
      groups := d.groups + 1 }
  | .closing => match d.outer with
    | [] =>
      if g.lenientClosing then .ok { d with pieces := .one (.single ')') :: d.pieces }
      else .error .strayClosing
    | (n, earlier, pieces) :: outer =>
      .ok { d with
        outer, earlier
        pieces := .group n d.whole :: pieces
        closed := n :: d.closed }
  | .bar => .ok { d with earlier := some d.whole, pieces := [] }
  | .count least most => match d.pieces with
    | [] => .ok d
    | r :: pieces => .ok { d with pieces := .many r least most :: pieces }
  | .atom (.again n) =>
    if d.closed.contains n then .ok { d with pieces := .again n :: d.pieces }
    else .error .badReference
  | .atom r => .ok { d with pieces := r :: d.pieces }

end Draft

def parse (g : Grammar) (pattern : List Char) : Except Flaw Regex := do
  let d ← (← tokens g (pattern.length + 1) none pattern).foldlM (Draft.add g) {}
  if d.outer.isEmpty then return d.whole else throw .openGroup

/-- Signs that stand in a bare grammar where there is nothing to repeat. -/
def idleSigns (g : Grammar) : Nat → Bool → List Char → List String
  | 0, _, _ => []
  | _ + 1, _, [] => []
  | fuel + 1, first, c :: rest =>
    if c = '(' || c = '|' then idleSigns g fuel true rest
    else if c = '^' then idleSigns g fuel first rest
    else if c = '\\' then idleSigns g fuel false (rest.drop 1)
    else if c = '[' then match takeSet g rest with
      | .ok (_, rest) => idleSigns g fuel false rest
      | .error _ => []
    else if first && (c = '*' || c = '+' || c = '?') then
      String.singleton c :: idleSigns g fuel true rest
    else if first && c = '\x7b' && rest.head?.any Char.isDigit then
      "\x7b...\x7d" :: idleSigns g fuel true ((rest.dropWhile (· != '\x7d')).drop 1)
    else idleSigns g fuel false rest

/-- A pattern in which every character stands for itself. -/
def literal (pattern : List Char) : Regex :=
  pattern.foldr (fun c r => .both (.one (.single c)) r) .empty

end LayerCache.Regex
