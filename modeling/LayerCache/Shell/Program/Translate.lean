import LayerCache.Shell.Program.Options
import LayerCache.Shell.Regex.Reader

/-! Texts with characters replaced, removed, or made one where they repeat. -/
namespace LayerCache.Program

def isOctal (c : Char) : Bool := '0' ≤ c && c ≤ '7'

def octal (digits : List Char) : Char :=
  Char.ofNat (digits.foldl (fun n c => 8 * n + (c.toNat - '0'.toNat)) 0 % 256)

/-- Letters behind a backslash, with the characters they stand for. -/
def letterEscapes : List (Char × Nat) :=
  [('a', 7), ('b', 8), ('f', 12), ('n', 10), ('r', 13), ('t', 9), ('v', 11), ('\\', 92)]

namespace Translation

/-- A character of a set as it is written; one that was quoted means nothing else. -/
structure Glyph where
  char : Char
  isQuoted : Bool := false
  deriving DecidableEq, Repr

/-- Characters with their escapes resolved, and what is odd about these. -/
def glyphs : Nat → List Char → List Glyph × List String
  | 0, _ => ([], [])
  | _ + 1, [] => ([], [])
  | _ + 1, ['\\'] =>
    ([⟨'\\', false⟩], ["warning: an unescaped backslash at end of string is not portable"])
  | fuel + 1, '\\' :: c :: rest =>
    let digits := ((c :: rest).take 3).takeWhile isOctal
    if digits.isEmpty then
      let (others, odd) := glyphs fuel rest
      (⟨(letterEscapes.lookup c).elim c Char.ofNat, true⟩ :: others, odd)
    else
      let isWide := digits.length = 3 && '4' ≤ c
      let used := if isWide then digits.take 2 else digits
      let (others, odd) := glyphs fuel ((c :: rest).drop used.length)
      let warning := "warning: the ambiguous octal escape \\" ++ String.ofList digits ++
        " is being\n\tinterpreted as the 2-byte sequence \\0" ++ String.ofList used ++ ", " ++
        String.ofList (digits.drop 2)
      (⟨octal used, true⟩ :: others, if isWide then warning :: odd else odd)
  | fuel + 1, c :: rest =>
    let (others, odd) := glyphs fuel rest
    (⟨c, false⟩ :: others, odd)

/-- A part of a set. -/
inductive Element where
  | range (first last : Char)
  /-- A character so many times, or as often as it takes where the number is zero. -/
  | repeated (c : Char) (times : Nat)
  | named (name : String)
  | equivalent (c : Char)
  deriving DecidableEq, Repr

abbrev Parsed := Except String (List Element)

def isBare (g : Glyph) (c : Char) : Bool := g.char = c && !g.isQuoted

/-- The inside of a bracket up to a mark before the closing one, and what follows. -/
def takeNamed (mark : Char) : List Glyph → Option (List Glyph × List Glyph)
  | [] => none
  | g :: rest =>
    if isBare g mark && rest.head?.any (isBare · ']') then some ([], rest.drop 1)
    else (takeNamed mark rest).map fun (name, rest) => (g :: name, rest)

def text (gs : List Glyph) : String := String.ofList (gs.map Glyph.char)

/-- The number in a repetition. -/
def times? (digits : List Char) : Option Nat :=
  if digits.isEmpty then some 0
  else if digits.head? = some '0' then
    if digits.all isOctal then
      some (digits.foldl (fun n c => 8 * n + (c.toNat - '0'.toNat)) 0) else none
  else Chars.number? digits

/-- A repetition, read behind its bracket. -/
def takeRepeated (gs : List Glyph) : Except String (Option (Element × List Glyph)) :=
  match gs with
  | c :: star :: rest =>
    if !isBare star '*' then .ok none
    else
      let inside := rest.takeWhile fun g => !g.isQuoted && g.char != ']'
      match rest.drop inside.length with
      | close :: after =>
        if !isBare close ']' then .ok none
        else match times? (inside.map Glyph.char) with
          | some n => .ok (some (.repeated c.char n, after))
          | none => .error ("invalid repeat count " ++ quoted (text inside) ++
              " in [c*n] construct")
      | [] => .ok none
  | _ => .ok none

/-- Whether a star, digits and a bracket stand next. -/
def isCounted (gs : List Glyph) : Bool :=
  gs.head?.any (isBare · '*') &&
    ((gs.drop 1).dropWhile fun g => g.char.isDigit && !g.isQuoted).head?.any (isBare · ']')

/-- A class or a repetition, read behind its bracket. -/
def takeBracketed (gs : List Glyph) : Except String (Option (Element × List Glyph)) :=
  match gs with
  | mark :: rest =>
    if isBare mark ':' || isBare mark '=' then match takeNamed mark.char rest with
      | none => takeRepeated gs
      | some (name, after) =>
        let shown := Quoting.plain (text name)
        if name.isEmpty then .error (if mark.char = ':' then "missing character class name '[::]'"
          else "missing equivalence class character '[==]'")
        else if mark.char = ':' then
          if (Regex.classes.lookup (text name)).isSome then .ok (some (.named (text name), after))
          else if isCounted rest then takeRepeated gs
          else .error ("invalid character class " ++ shown)
        else match name with
          | [g] => .ok (some (.equivalent g.char, after))
          | _ =>
            if isCounted rest then takeRepeated gs
            else .error (text name ++ ": equivalence class operand must be a single character")
    else takeRepeated gs
  | [] => .ok none

def shownChar (c : Char) : String :=
  if Quoting.isPrintable c then String.singleton c
  else String.ofList ('\\' :: Quoting.octal c.toNat)

def elements : Nat → List Glyph → Parsed
  | 0, _ => .ok []
  | fuel + 1, gs => match gs with
    | a :: b :: c :: rest => do
      let bracketed ← if isBare a '[' then takeBracketed (b :: c :: rest) else pure none
      match bracketed with
      | some (element, after) => return element :: (← elements fuel after)
      | none =>
        if isBare b '-' then
          if c.char < a.char then throw ("range-endpoints of '" ++ shownChar a.char ++ "-" ++
            shownChar c.char ++ "' are in reverse collating sequence order")
          return .range a.char c.char :: (← elements fuel rest)
        else return .range a.char a.char :: (← elements fuel (b :: c :: rest))
    | gs => .ok (gs.map fun g => .range g.char g.char)

/-- The cases that are turned into each other. -/
inductive LetterCase where
  | upper
  | lower
  deriving DecidableEq, Repr

/-- A character of a set; whether it begins a part of it, and whether that is all of a case. -/
structure Cell where
  char : Char
  isFirst : Bool := true
  letterCase : Option LetterCase := none
  deriving DecidableEq, Repr

def allChars : List Char := (List.range 256).map Char.ofNat

def inClass (name : String) : List Char :=
  allChars.filter (CharSet.mk ((Regex.classes.lookup name).getD []) false).covers

def caseOf (name : String) : Option LetterCase :=
  [("upper", LetterCase.upper), ("lower", .lower)].lookup name

/-- The characters of a part; `fill` is the number of times for what repeats as often as it
takes. -/
def Element.cells (fill : Nat) : Element → List Cell
  | .range a b => ((List.range (b.toNat + 1 - a.toNat)).map fun i =>
      { char := Char.ofNat (a.toNat + i), isFirst := i = 0 })
  | .repeated c n => (List.range (if n = 0 then fill else n)).map fun i =>
      { char := c, isFirst := i = 0 }
  | .named name => (inClass name).zipIdx.map fun (c, i) =>
      { char := c, isFirst := i = 0, letterCase := caseOf name }
  | .equivalent c => [{ char := c }]

def cellsOf (fill : Nat) (es : List Element) : List Cell := es.flatMap (Element.cells fill)

def isEndless (e : Element) : Bool := e matches .repeated _ 0

/-- Whether all of a case stands in the second set only where it does in the first. -/
def isAligned : Nat → List Cell → List Cell → Bool
  | 0, _, _ => true
  | fuel + 1, a :: first, b :: second =>
    if b.letterCase.isNone then isAligned fuel first second
    else if b.isFirst && !(a.isFirst && a.letterCase.isSome) then false
    else isAligned fuel (first.dropWhile fun c => !c.isFirst) (second.dropWhile fun c => !c.isFirst)
  | _ + 1, _, _ => true

/-- What each character becomes, the later rules first. -/
def rules : Nat → List (Char × Char) → List Cell → List Cell → List (Char × Char)
  | 0, done, _, _ => done
  | fuel + 1, done, a :: first, b :: second =>
    let turn (change : Char → Char) (name : String) : List (Char × Char) :=
      (inClass name).map fun c => (c, change c)
    let now := match a.letterCase, b.letterCase with
      | some .lower, some .upper => turn Char.toUpper "lower"
      | some .upper, some .lower => turn Char.toLower "upper"
      | _, _ => [(a.char, b.char)]
    let skip (cells : List Cell) : List Cell :=
      if b.letterCase.isNone then cells else cells.dropWhile fun c => !c.isFirst
    rules fuel (now ++ done) (skip first) (skip second)
  | _ + 1, done, _, _ => done

/-- Characters that repeat right behind themselves are left out if they are of a set. -/
def squeeze (inSet : Char → Bool) : Option Char → List Char → List Char
  | _, [] => []
  | last, c :: rest =>
    if last = some c && inSet c then squeeze inSet last rest
    else c :: squeeze inSet (some c) rest

structure Task where
  complement : Bool
  deletes : Bool
  squeezes : Bool
  truncates : Bool

def holds (cells : List Cell) (complement : Bool) : Char → Bool :=
  let table := (allChars.map fun c => cells.any fun d => d.char = c).toArray
  fun c => (table[c.toNat]?).getD false != complement

/-- The first set as it is mapped from: its own characters, or all others in order. -/
def sources (t : Task) (first : List Cell) : List Cell :=
  if !t.complement then first
  else (allChars.filter (holds first true)).map ({ char := · })

/-- How two sets translate, unless they do not go together. -/
def mapping (t : Task) (first second : List Element) : Except String (List (Char × Char)) := do
  let cells := cellsOf 0 first
  let from' := sources t cells
  let endless := (second.filter isEndless).length
  let bare := cellsOf 0 second
  if 1 < endless then throw "only one [c*] repeat construct may appear in string2"
  let isOther : Element → Bool
    | .named name => (caseOf name).isNone
    | _ => false
  if second.any fun e => e matches .equivalent _ then
    throw "[=c=] expressions may not appear in string2 when translating"
  if second.any isOther then
    throw ("when translating, the only character classes that may appear in\n" ++
      "string2 are 'upper' and 'lower'")
  let into := cellsOf (from'.length - bare.length) second
  if !t.complement && !isAligned (from'.length + 1) from' into then
    throw "misaligned [:upper:] and/or [:lower:] construct"
  let missing := from'.length - into.length
  let into ← if missing = 0 || t.truncates then pure into
    else match into.getLast? with
      | none => throw "when not truncating set1, string2 must be non-empty"
      | some last =>
        if (second.getLast?).any fun e => e matches .named _ then
          throw ("when translating with string1 longer than string2,\n" ++
            "the latter string must not end with a character class")
        else pure (into ++ List.replicate missing { char := last.char })
  let classes := first.any fun e => e matches .named _
  if t.complement && classes &&
      !(into.length = from'.length && into.all fun c => some c.char = into.head?.map Cell.char) then
    throw ("when translating with complemented character classes,\n" ++
      "string2 must map all characters in the domain to one")
  return rules (from'.length + 1) [] from' into

def apply (rules : List (Char × Char)) (text : List Char) : List Char :=
  let table := (allChars.map fun c => (rules.lookup c).getD c).toArray
  text.map fun c => (table[c.toNat]?).getD c

/-- What is wrong with the number of sets. -/
def countFlaw? (t : Task) (sets : List String) : Option String :=
  let translates := !t.deletes && !t.squeezes
  match sets with
  | [] => some "missing operand"
  | [one] =>
    if translates then
      some ("missing operand after " ++ quoted one ++ "\nTwo strings must be given when translating.")
    else if t.deletes && t.squeezes then
      some ("missing operand after " ++ quoted one ++
        "\nTwo strings must be given when both deleting and squeezing repeats.")
    else none
  | [_, two] =>
    if t.deletes && !t.squeezes then
      some ("extra operand " ++ quoted two ++
        "\nOnly one string may be given when deleting without squeezing repeats.")
    else none
  | _ :: _ :: extra :: _ => some ("extra operand " ++ quoted extra)

/-- The work on a text that sets ask for. -/
def worker (t : Task) (first : List Element) (second : Option (List Element)) :
    Except String (List Char → List Char) := do
  if first.any isEndless then throw "the [c*] repeat construct may not appear in string1"
  let inFirst := holds (cellsOf 0 first) t.complement
  match second with
  | none =>
    if t.deletes then return (·.filter (!inFirst ·)) else return squeeze inFirst none
  | some second =>
    let inSecond := holds (cellsOf 1 second) false
    if t.deletes then
      if second.any isEndless then
        throw "the [c*] construct may appear in string2 only when translating"
      return fun text => squeeze inSecond none (text.filter (!inFirst ·))
    else
      let rules ← mapping t first second
      return fun text =>
        let text := apply rules text
        if t.squeezes then squeeze inSecond none text else text

def usage : Usage where
  bare := "cCdst"
  long := [("complement", 'c'), ("delete", 'd'), ("squeeze-repeats", 's'), ("truncate-set1", 't')]
  anywhere := false

end Translation

def translate (p : Process) : Work Unit :=
  withOptions p Translation.usage fun o => do
    let t : Translation.Task := ⟨o.has 'c' || o.has 'C', o.has 'd', o.has 's', o.has 't'⟩
    match Translation.countFlaw? t o.operands with
    | some flaw => askForHelp p flaw
    | none =>
      let read (set : String) : Work (Except String (List Translation.Element)) := do
        let (gs, odd) := Translation.glyphs (set.length + 1) set.toList
        odd.forM fun warning => write errors (p.name ++ ": " ++ warning ++ "\n").toList
        return Translation.elements (gs.length + 1) gs
      let sets ← o.operands.mapM read
      match (do
        let sets ← sets.mapM id
        Translation.worker t (sets.headD []) (sets[1]?)) with
      | .error flaw => complain p flaw
      | .ok work => match ← readFile "-" with
        | .error fault => complain p ("read error: " ++ fault.reason)
        | .ok text => print (work text)

end LayerCache.Program
