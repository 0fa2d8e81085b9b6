import LayerCache.Text.Ascii

/-! How pages are laid out. -/
namespace LayerCache.Paging

structure Layout where
  columns : Nat := 1
  /-- Lines of the body, and those below it. -/
  bodyLines : Nat := 56
  footerLines : Nat := 5
  hasTitle : Bool := true
  keepsFeeds : Bool := false
  endsWithFeed : Bool := false
  doubles : Bool := false
  /-- Each column shows a file of its own. -/
  parallel : Bool := false
  /-- Columns are filled one behind the other, so that lines have to be kept. -/
  storing : Bool := false
  lineWidth : Nat := 72
  columnWidth : Nat := 72
  /-- What stands between columns, if they are kept apart by anything. -/
  separator : Option (List Char) := none
  truncates : Bool := false
  widensTabs : Bool := false
  makesTabs : Bool := false
  inTab : Char × Nat := ('\t', 8)
  outTab : Char × Nat := ('\t', 8)
  numbered : Bool := false
  numberMark : Char := '\t'
  digits : Nat := 5
  firstNumber : Option Int := none
  margin : Nat := 0
  escapes : Bool := false
  showsControls : Bool := false
  firstPage : Nat := 1
  lastPage : Option Nat := none
  date : List Char := []
  title : List Char := []

def tabStop (width column : Nat) : Nat := column + (width - column % width)

/-- Columns that a line number takes. -/
def Layout.numberWidth (l : Layout) : Nat :=
  if l.numberMark = '\t' then tabStop 8 l.digits else l.digits + 1

def Layout.separatorLength (l : Layout) : Nat := (l.separator.getD []).length

end LayerCache.Paging

/-! What has been written of a page and what is about to be: blanks, separators and numbers. -/
namespace LayerCache.Paging

inductive Status where
  | ready
  /-- The page of the file has ended. -/
  | held
  /-- So it has, and the lines kept are still to be shown. -/
  | fed
  | closed
  deriving DecidableEq, Repr

structure Column where
  file : Nat := 0
  status : Status := .ready
  left : Nat := 0
  stored : Nat := 0
  next : Nat := 0
  start : Nat := 0
  isNumbered : Bool := false
  isFull : Bool := false

/-- What has been written and what is about to be. -/
structure Printer where
  layout : Layout
  files : Array (List Char)
  columns : Array Column
  /-- Files that can be read on. -/
  ready : Nat
  position : Nat := 0
  /-- The column in the line that is read. -/
  place : Nat := 0
  spaces : Nat := 0
  separators : Nat := 0
  padding : Nat := 0
  number : Int := 1
  page : Nat := 1
  awaitsTitle : Bool := false
  hasText : Bool := false
  awaitsFeed : Bool := false
  onlyFeed : Bool := false
  alignsEmpty : Bool := false
  isEmptyLine : Bool := true
  kept : Array (List Char × Nat) := #[]
  /-- The line that is kept, the latest character first. -/
  keeping : List Char := []
  written : List Char := []

abbrev Print := StateM Printer

namespace Print

def put (c : Char) : Print Unit := modify fun s => { s with written := c :: s.written }

def layout : Print Layout := return (← get).layout

def column (i : Nat) : Print Column := return ((← get).columns[i]?).getD {}

def change (i : Nat) (f : Column → Column) : Print Unit :=
  modify fun s => { s with columns := s.columns.modify i f }

def changeAll (f : Column → Column) : Print Unit :=
  modify fun s => { s with columns := s.columns.map f }

def peek (i : Nat) : Print (Option Char) := do
  let file := (← column i).file
  return ((← get).files[file]?).bind List.head?

def next (i : Nat) : Print (Option Char) := do
  let c ← peek i
  let file := (← column i).file
  modify fun s => { s with files := s.files.modify file (List.drop 1) }
  return c

/-- A line feed behind a form feed belongs to it. -/
def skipLineFeed (i : Nat) : Print Unit := do
  if (← peek i) = some '\n' then discard (next i)

def rest (i : Nat) : Print Nat := do
  let file := (← column i).file
  return (((← get).files[file]?).getD []).length

/-- Blanks up to a column, with tabs where they fit. -/
def blanks (tab : Char) (width : Nat) : Nat → Nat → Nat → List Char
  | 0, _, _ => []
  | fuel + 1, column, goal =>
    if column + 1 < goal && tabStop width column ≤ goal then
      tab :: blanks tab width fuel (tabStop width column) goal
    else List.replicate (goal - column) ' '

def printSpaces : Print Unit := modify fun s =>
  let goal := s.position + s.spaces
  let (tab, width) := s.layout.outTab
  { s with
    written := (blanks tab width (s.spaces + 1) s.position goal).reverse ++ s.written
    position := goal, spaces := 0 }

def isShown (c : Char) : Bool := ' ' ≤ c && c ≤ '~'

def printChar (c : Char) : Print Unit := do
  if (← layout).makesTabs then
    if c = ' ' then modify fun s => { s with spaces := s.spaces + 1 }
    else
      if (← get).spaces != 0 then printSpaces
      modify fun s => { s with position := if isShown c then s.position + 1
        else if c = '\x08' then s.position - 1 else s.position }
      put c
  else put c

/-- A character goes to the page, or is kept until its line is shown. -/
def say (c : Char) : Print Unit := do
  if (← layout).storing then modify fun s => { s with keeping := c :: s.keeping } else printChar c

def padTo (column : Nat) : Print Unit := do
  if (← layout).makesTabs then modify fun s => { s with spaces := column - s.position }
  else
    (List.replicate (column - (← get).position) ' ').forM put
    modify fun s => { s with position := column }

def printSeparator : Print Unit := do
  let s ← get
  if s.separators = 0 then if s.spaces != 0 then printSpaces
  else
    for c in (s.layout.separator.getD []) do
      if c = ' ' then modify fun s => { s with spaces := s.spaces + 1 }
      else
        if (← get).spaces != 0 then printSpaces
        put c
        modify fun s => { s with position := s.position + 1 }
    if (← get).spaces != 0 then printSpaces
    modify fun s => { s with separators := 0 }

def printNumber : Print Unit := do
  let l ← layout
  let digits := Chars.padLeft l.digits (toString (← get).number).toList
  (digits.drop (digits.length - l.digits)).forM say
  modify fun s => { s with number := s.number + 1 }
  if 1 < l.columns && l.numberMark = '\t' then
    (List.replicate (l.numberWidth - l.digits) ' ').forM say
  else
    say l.numberMark
    if l.columns ≤ 1 && l.numberMark = '\t' then
      modify fun s => { s with position := tabStop l.outTab.2 s.position }
  if l.truncates && !l.parallel then
    modify fun s => { s with place := s.place + l.numberWidth }

def startColumn (i : Nat) : Print Unit := do
  let l ← layout
  let padding := (← get).padding
  if l.separatorLength < padding then
    padTo (padding - l.separatorLength)
    modify fun s => { s with padding := 0 }
  if l.separator.isSome then printSeparator
  if (← column i).isNumbered && !l.storing then printNumber

def alignColumn (i : Nat) : Print Unit := do
  let start := (← column i).start
  modify fun s => { s with padding := start }
  startColumn i

def printTitle : Print Unit := do
  modify fun s => { s with position := 0 }
  let s ← get
  let l := s.layout
  padTo l.margin
  printSpaces
  let page := ("Page " ++ toString s.page).toList
  let free := l.lineWidth - l.date.length - l.title.length - page.length
  let left := free / 2
  let blank (n : Nat) := List.replicate (max 1 n) ' '
  (['\n', '\n'] ++ List.replicate l.margin ' ' ++ l.date ++ blank left ++ l.title ++
    blank (free - left) ++ page ++ ['\n', '\n', '\n']).forM put
  modify fun s => { s with page := s.page + 1, awaitsTitle := false, position := 0 }

/-- A character as it is shown, and the columns it takes in the line that is read. -/
def shown (l : Layout) (place : Nat) (c : Char) : List Char × Int :=
  let octal := '\\' :: Chars.padLeft 3 (Nat.toDigits 8 c.toNat) '0'
  if c = l.inTab.1 || c = '\t' then
    let width := if c = l.inTab.1 then l.inTab.2 else 8
    let width := tabStop width place - place
    (if l.widensTabs then List.replicate width ' ' else [c], width)
  else if isShown c then ([c], 1)
  else if l.escapes then (octal, 4)
  else if l.showsControls then
    if c.toNat < 128 then (['^', Char.ofNat (c.toNat ^^^ 64)], 2) else (octal, 4)
  else if c = '\x08' then ([c], -1)
  else ([c], 0)

/-- Reads on by a character; tells how it is shown, unless the column is full. -/
def fit (c : Char) : Print (Option (List Char)) := do
  let s ← get
  let (text, width) := shown s.layout s.place c
  let (text, place) :=
    if width < 0 then (if s.place = 0 then [] else text, s.place - 1)
    else (text, s.place + width.toNat)
  if s.layout.truncates && s.layout.columnWidth < place then return none
  modify fun s => { s with place }
  return some text

end Print
end LayerCache.Paging
