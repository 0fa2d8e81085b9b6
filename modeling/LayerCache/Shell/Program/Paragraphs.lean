import LayerCache.Shell.Program.Options
import LayerCache.Shell.Program.Sizes

/-! Paragraphs filled so that their lines are about as long as each other. Each break between lines
costs something, and the cheapest ones are taken. -/
namespace LayerCache.Program

namespace Paragraphs

structure Word where
  text : List Char
  /-- Columns behind it. -/
  space : Nat := 1
  /-- It ends as sentences do. -/
  isPeriod : Bool
  /-- It ends a sentence. -/
  isFinal : Bool := false
  deriving Repr

namespace Word

def length (w : Word) : Nat := w.text.length

def opens (w : Word) : Bool := w.text.head?.any "(['\x60\"".toList.contains

def isPunctuation (c : Char) : Bool := '!' ≤ c && c ≤ '~' && !c.isAlphanum

def isPunctuated (w : Word) : Bool := w.text.getLast?.any isPunctuation

def endsSentence (text : List Char) : Bool :=
  let bare := text.reverse.dropWhile ")]'\"".toList.contains
  ((bare.head?).or text.head?).any ".?!".toList.contains

end Word

/-- What is asked of paragraphs. -/
structure Shape where
  start : List Char := []
  /-- Columns before what each line starts with, and the columns that this takes. -/
  lead : Nat := 0
  startLength : Nat := 0
  width : Nat := 75
  goal : Nat := 70
  crown : Bool := false
  tagged : Bool := false
  split : Bool := false
  uniform : Bool := false

namespace Cost

def short (n : Int) : Int := (n * 10) * (n * 10)

def ragged (n : Int) : Int := short n / 2

def line : Int := 4900

def widow (length : Nat) : Int := 40000 / (length + 2)

def orphan (length : Nat) : Int := 22500 / (length + 2)

def sentence : Int := 2500

def noBreak : Int := 360000

def opening : Int := 1600

def punctuation : Int := 1600

def credit : Int := 9

/-- The cost of a line that starts with a word, by the two words before it. -/
def base (before beforeThat : Option Word) (w : Word) : Int :=
  let broken : Int := match before with
    | none => 0
    | some b =>
      if b.isPeriod then if b.isFinal then -sentence else noBreak
      else if b.isPunctuated then -punctuation
      else if beforeThat.any Word.isFinal then widow b.length
      else 0
  line + broken + (if w.opens then -opening else if w.isFinal then orphan w.length else 0)

end Cost

/-- The best line that starts with a word: how many words it has, its length, and the cost of it and
of all that follow. -/
structure Line where
  word : Word
  count : Nat
  length : Nat
  cost : Int
  isLast : Bool

/-- Tries ends of a line; `later` are the lines that start with the words behind it. -/
def tryEnds (s : Shape) (extra : Nat → Int) (later : List Line) (word : Word) :
    List Line → Nat → Nat → Nat → Option Line → Option Line
  | rest, length, count, space, best =>
    let broken : Int := match rest with
      | [] => 0
      | next :: _ => Cost.short (s.goal - length) + next.cost +
          if next.isLast then 0 else Cost.ragged (length - next.length)
    let cost := broken + extra length
    let best := if best.any (·.cost ≤ cost) then best
      else some ⟨word, count, length, cost, rest.isEmpty⟩
    match rest with
    | [] => best
    | next :: rest =>
      let length := length + space + next.word.length
      if s.width ≤ length then best
      else tryEnds s extra later word rest length (count + 1) next.word.space best

/-- The best lines for words, of which the first may start in a column of its own; `previous` is the
length of the line before them, if one was written. -/
def plan (s : Shape) (first other previous : Nat) (words : List Word) : List Line :=
  let before := none :: none :: words.map some
  (words.zip (before.zip (before.drop 1))).zipIdx.foldr
    (fun ((word, (beforeThat, before)), i) later =>
      let indent := if i = 0 then first else other
      let extra (length : Nat) : Int :=
        if i = 0 && 0 < previous then Cost.ragged (length - previous) else 0
      match tryEnds s extra later word later (indent + word.length) 1 word.space none with
      | some line => { line with cost := line.cost + Cost.base before beforeThat word } :: later
      | none => later) []

/-- The lines that are taken, one behind the other. -/
def chain : Nat → List Line → List (List Word)
  | 0, _ => []
  | fuel + 1, lines => match lines with
    | [] => []
    | line :: _ => (lines.take line.count).map Line.word :: chain fuel (lines.drop line.count)

/-- Costs of the lines that are taken, each without those that follow. -/
def chainCosts : Nat → List Line → List (Nat × Int)
  | 0, _ => []
  | fuel + 1, lines => match lines with
    | [] => []
    | line :: _ =>
      let rest := lines.drop line.count
      (line.count, line.cost - (rest.head?.map Line.cost).getD 0) :: chainCosts fuel rest

/-- How many words of a long paragraph are written before it goes on: up to the cheapest line, later
ones being a little cheaper. -/
def cutAt (lines : List Line) : Nat :=
  let steps := chainCosts lines.length lines
  let firstCount := (steps.head?.map Prod.fst).getD 0
  ((steps.drop 1).foldl (fun (best, place, at?) (count, cost) =>
      if best.all (cost < ·) then (some (cost + Cost.credit), place + count, place)
      else (best.map (· + Cost.credit), place + count, at?))
    ((none : Option Int), firstCount, lines.length)).2.2

/-- Where a line begins: the column of its text, the columns before what it starts with, and the
text itself. Nothing follows the last line. -/
structure Head where
  column : Nat
  indent : Nat
  rest : List Char
  isLast : Bool

/-- Columns after blanks, and whether one was a tab. -/
def gap : Nat → List Char → Bool → Nat × List Char × Bool
  | column, ' ' :: rest, tabs => gap (column + 1) rest tabs
  | column, '\t' :: rest, _ => gap ((column / 8 + 1) * 8) rest true
  | column, rest, tabs => (column, rest, tabs)

def commonLength : List Char → List Char → Nat
  | a :: as, b :: bs => if a = b then commonLength as bs + 1 else 0
  | _, _ => 0

def Shape.head (s : Shape) (line : List Char) (isLast : Bool) : Head × Bool :=
  let (column, rest, tabs) := gap 0 line false
  let common := commonLength s.start rest
  if s.start.isEmpty then (⟨column, min s.lead column, rest, isLast⟩, tabs)
  else if common < s.start.length then
    (⟨column + common, column, rest.drop common, isLast⟩, tabs)
  else
    let (after, rest, tabs) := gap (column + common) (rest.drop common) tabs
    (⟨after, column, rest, isLast⟩, tabs)

/-- A paragraph under way, and what is known of the text around it. -/
structure Filling where
  lines : List (List Char)
  head : Head
  tabs : Bool
  other : Nat := 0
  previous : Nat := 0
  /-- Columns before what lines start with, and before the first line's text. -/
  indent : Nat := 0
  first : Nat := 0
  words : List Word := []
  /-- What was written, the latest first. -/
  written : List (List Char) := []

namespace Filling

def write (f : Filling) (text : List Char) : Filling := { f with written := text :: f.written }

/-- Goes on to the next line. -/
def advance (f : Filling) (s : Shape) : Filling :=
  let (line, rest, isLast) := match f.lines with
    | [] => ([], [], true)
    | [line] => (line, [], true)
    | line :: rest => (line, rest, false)
  let (head, tabs) := s.head line isLast
  { f with lines := rest, head, tabs := f.tabs || tabs }

/-- Blanks from one column to another, with tabs where the text has any. -/
def blanks (f : Filling) (column target : Nat) : List Char :=
  let stop := target / 8 * 8
  if f.tabs && column + 1 < stop then
    List.replicate (stop / 8 - column / 8) '\t' ++ List.replicate (target - stop) ' '
  else List.replicate (target - column) ' '

def lineOf (f : Filling) (s : Shape) (indent : Nat) (words : List Word) : List Char × Nat :=
  let start := f.blanks 0 f.indent ++ s.start
  let column := f.indent + s.start.length
  let begun := start ++ f.blanks column indent
  let rec go : List Word → Nat → List Char × Nat
    | [], column => ([], column)
    | [w], column => (w.text, column + w.length)
    | w :: rest, column =>
      let next := column + w.length + w.space
      let (text, last) := go rest next
      (w.text ++ f.blanks (column + w.length) next ++ text, last)
  let (text, last) := go words (max column indent)
  (begun ++ text ++ ['\n'], last)

def writeLines (f : Filling) (s : Shape) (isFirst : Bool) : List (List Word) → Filling
  | [] => f
  | line :: rest =>
    let (text, length) := f.lineOf s (if isFirst then f.first else f.other) line
    writeLines { f.write text with previous := length } s false rest

/-- Sets where lines after the first begin. -/
def setOther (f : Filling) (s : Shape) (same : Bool) (column : Nat) : Filling :=
  let other :=
    if s.split then f.first
    else if s.crown then if same then column else f.first
    else if s.tagged then
      if same && column != f.first then column
      else if f.other = f.first then if f.first = 0 then 3 else 0
      else f.other
    else f.first
  { f with other }

/-- Writes what has been read of a long paragraph up to a good place. -/
def flush (f : Filling) (s : Shape) (column : Nat) : Filling :=
  let f := f.setOther s true column
  let lines := plan s f.first f.other f.previous f.words
  let count := cutAt lines
  let f := f.writeLines s true (chain lines.length (lines.take count))
  { f with words := f.words.drop count }

def mostChars : Nat := 5000

def mostWords : Nat := 998

def size (f : Filling) : Nat := f.words.foldl (fun n w => n + w.length) 0

/-- Makes room for a word; the start of one that is too long is written at once. -/
def makeRoom (s : Shape) (column : Nat) : Nat → Filling → List Char → Filling × List Char
  | 0, f, word => (f, word)
  | fuel + 1, f, word =>
    if f.size + word.length ≤ mostChars then (f, word)
    else if f.words.isEmpty then
      makeRoom s column fuel (f.write (word.take mostChars)) (word.drop mostChars)
    else makeRoom s column fuel (f.flush s column) word

def isSpace (c : Char) : Bool := c = ' ' || ('\t' ≤ c && c ≤ '\r')

/-- Reads the words of a line. -/
def readWords (s : Shape) (isLast : Bool) : Nat → Filling → Nat → List Char → Filling
  | 0, f, _, _ => f
  | _, f, _, [] => f
  | fuel + 1, f, column, c :: rest =>
    let word := c :: rest.takeWhile (!isSpace ·)
    let (f, text) := makeRoom s column (word.length + f.words.length + 1) f word
    let behind := column + text.length
    let (next, rest, tabs) := gap behind (rest.drop (word.length - 1)) f.tabs
    let isPeriod := Word.endsSentence text
    let isFinal := if rest.isEmpty then isLast || isPeriod else isPeriod && 1 < next - behind
    let space := if rest.isEmpty || s.uniform then if isFinal then 2 else 1 else next - behind
    let f := { f with tabs }
    let f := if f.words.length = mostWords then f.flush s next else f
    readWords s isLast fuel { f with words := f.words ++ [⟨text, space, isPeriod, isFinal⟩] }
      next rest

def readLine (f : Filling) (s : Shape) : Filling :=
  (readWords s f.head.isLast (f.head.rest.length + 1) f f.head.column f.head.rest).advance s

/-- Whether the next line belongs to the paragraph. -/
def isSame (f : Filling) (s : Shape) : Bool :=
  f.head.indent = f.indent && f.head.indent + s.startLength ≤ f.head.column && !f.head.rest.isEmpty

def readOn (s : Shape) : Nat → Filling → Filling
  | 0, f => f
  | fuel + 1, f =>
    if f.isSame s && f.head.column = f.other then readOn s fuel (f.readLine s) else f

def readParagraph (f : Filling) (s : Shape) : Filling :=
  let f := { f with indent := f.head.indent, first := f.head.column, words := [] }
  let f := f.readLine s
  let f := f.setOther s (f.isSame s) f.head.column
  let fuel := f.lines.length + 2
  if s.split then f
  else if s.crown then if f.isSame s then readOn s fuel (f.readLine s) else f
  else if s.tagged then
    if f.isSame s && f.head.column != f.first then readOn s fuel (f.readLine s) else f
  else readOn s fuel f

/-- Copies a line that is part of no paragraph. -/
def copy (f : Filling) (s : Shape) : Filling :=
  let h := f.head
  let start :=
    if h.column ≤ h.indent && h.rest.isEmpty then []
    else
      let shown := s.start.take (h.column - h.indent)
      let isEnd := h.rest.isEmpty && h.isLast
      f.blanks 0 h.indent ++ shown ++
        (if h.rest.isEmpty then [] else f.blanks (h.indent + shown.length) h.column) ++
        (if isEnd && h.indent + s.start.length ≤ h.column then ['\n'] else [])
  f.write (start ++ h.rest)

def fill (s : Shape) : Nat → Filling → Filling
  | 0, f => f
  | fuel + 1, f =>
    let h := f.head
    if h.rest.isEmpty || h.indent < s.lead || h.column < h.indent + s.startLength then
      let f := f.copy s
      if h.isLast then f else fill s fuel ((f.write ['\n']).advance s)
    else
      let f := { f with previous := 0 }.readParagraph s
      let words := match f.words.reverse with
        | [] => []
        | last :: rest => (⟨last.text, last.space, true, true⟩ :: rest).reverse
      let lines := plan s f.first f.other f.previous words
      fill s fuel (f.writeLines s true (chain lines.length lines))

end Filling

def fillText (s : Shape) (text : List Char) : List Char :=
  let lines := Chars.split '\n' text
  let start : Filling := { lines, head := ⟨0, 0, [], false⟩, tabs := false }
  ((start.advance s).fill s (2 * lines.length + 2)).written.reverse.flatten

def usage : Usage where
  bare := "0123456789cstu"
  valued := "wpg"
  long := [("crown-margin", 'c'), ("prefix=", 'p'), ("split-only", 's'),
    ("tagged-paragraph", 't'), ("uniform-spacing", 'u'), ("width=", 'w'), ("goal=", 'g')]

def widthOf (most : Nat) (text : String) : Except String Nat :=
  match Sizes.ofText "" text with
  | .ok n => if n ≤ most then .ok n
    else .error ("invalid width: " ++ quoted text ++ ": Numerical result out of range")
  | .error flaw => .error ("invalid width: " ++ quoted text ++ flaw.reason)

def shapeOf (o : Options) (old : Option String) : Except String Shape := do
  let given := (o.value? 'w').or old
  let width ← match given with
    | some text => widthOf 2500 text
    | none => .ok 75
  let goal ← match o.value? 'g' with
    | some text => widthOf width text
    | none => .ok (width * 187 / 200)
  let width := if given.isNone && (o.value? 'g').isSome then goal + 10 else width
  let text := ((o.value? 'p').getD "").toList
  let bare := text.dropWhile (· = ' ')
  return {
    start := (bare.reverse.dropWhile (· = ' ')).reverse
    lead := text.length - bare.length
    startLength := bare.length
    width, goal
    crown := o.has 'c', tagged := o.has 't', split := o.has 's', uniform := o.has 'u' }

end Paragraphs

def fillParagraphs (p : Process) : Work Unit :=
  let (old, args) := match p.args with
    | first :: rest => match first.toList with
      | '-' :: c :: digits =>
        if c.isDigit then (some (String.ofList (c :: digits)), rest) else (none, p.args)
      | _ => (none, p.args)
    | [] => (none, [])
  withOptions { p with args } Paragraphs.usage fun o =>
    match o.last? "0123456789", Paragraphs.shapeOf o old with
    | some (c, _), _ => askForHelp p ("invalid option -- " ++ String.singleton c ++
        "; -WIDTH is recognized only when it is the first\noption; use -w N instead")
    | none, .error flaw => complain p flaw
    | none, .ok shape => do
      let names := if o.operands.isEmpty then ["-"] else o.operands
      names.forM fun name => do
        match ← readFile name with
        | .ok text => print (Paragraphs.fillText shape text)
        | .error fault => complain p (if name = "-" || fault = .isFolder then "read error"
            else "cannot open " ++ quotedFile name ++ " for reading: " ++ fault.reason)
      noteClosed p names "closing standard input"

end LayerCache.Program
