import LayerCache.Shell.Paging.Lines

/-! Pages, one after the other. -/
namespace LayerCache.Paging

namespace Print

/-- Columns that have something to show. -/
def readyColumns : Print Nat := do
  let s ← get
  return (s.columns.toList.filter fun c => c.status = .ready || c.status = .fed ||
    (s.layout.storing && 0 < c.stored && 0 < c.left)).length

def startPage : Print Unit := do
  let l ← layout
  if l.storing then keepPage
  else changeAll fun c => { c with left := if c.status = .ready then l.bodyLines else 0 }

/-- One column of one line; tells whether the line goes on. -/
def printColumn (i : Nat) : Print Bool := do
  let l ← layout
  modify fun s => { s with place := 0 }
  let c ← column i
  let mut goesOn := true
  if 0 < c.left || c.status = .fed then
    modify fun s => { s with onlyFeed := false, padding := c.start }
    if l.storing then showKept i else takeLine i
    change i fun c => { c with left := c.left - 1 }
    let now ← column i
    let isOver := now.left = 0 && (← readyColumns) = 0
    if isOver then goesOn := false
    else if l.parallel && now.status != .ready then
      let s ← get
      if s.isEmptyLine then set { s with alignsEmpty := true }
      else if now.status = .closed || (now.status = .held && s.onlyFeed) then alignColumn i
  else if l.parallel then
    if (← get).isEmptyLine then modify fun s => { s with alignsEmpty := true }
    else alignColumn i
  if goesOn && l.separator.isSome then
    modify fun s => { s with separators := s.separators + 1 }
  return goesOn

def printColumns : Nat → Nat → Print Unit
  | 0, _ => pure ()
  | count + 1, i => do
    if ← printColumn i then printColumns count (i + 1)

/-- The lines of a page; gives the number of lines left on it, and whether any had text. -/
def printLines : Nat → Nat → Bool → Print (Nat × Bool)
  | 0, left, any => return (left, any)
  | fuel + 1, left, any => do
    if left = 0 || (← readyColumns) = 0 then return (left, any)
    let l ← layout
    modify fun s => { s with
      position := 0, spaces := 0, separators := 0, hasText := false, alignsEmpty := false
      isEmptyLine := true }
    printColumns l.columns 0
    let hasText := (← get).hasText
    let any := any || hasText
    let left ← if hasText then do
        put '\n'
        pure (left - 1)
      else pure left
    if (← readyColumns) = 0 && !l.hasTitle then return (left, any)
    if l.doubles && any then
      put '\n'
      printLines fuel (left - 1) any
    else printLines fuel left any

/-- Files whose page has ended go on with the next page. -/
def reopen : Print Unit := do
  let l ← layout
  modify fun s => { s with
    columns := s.columns.map fun c => if c.status = .held then { c with status := .ready } else c
    ready := s.ready + (s.columns.toList.filter fun c => c.status = .held).length }
  if l.storing then
    let isClosed := (← column 0).status = .closed
    modify fun s => { s with ready := if isClosed then 0 else 1 }

/-- Prints one page; tells whether there may be more. -/
def printPage : Print Bool := do
  let l ← layout
  startPage
  if (← readyColumns) = 0 then return false
  modify fun s => { s with awaitsTitle := l.hasTitle, hasText := false }
  let lines := l.bodyLines * if l.doubles then 2 else 1
  let total := (← get).files.foldl (fun n text => n + text.length) 0
  let (left, any) ← printLines (lines + total + 2) lines false
  if left = 0 then
    changeAll fun c => if c.status = .ready then { c with isFull := true } else c
  if any && l.hasTitle then
    (if l.endsWithFeed then ['\x0c'] else List.replicate (left + l.footerLines) '\n').forM put
  else if l.keepsFeeds && (← get).awaitsFeed then
    put '\x0c'
    modify fun s => { s with awaitsFeed := false }
  if l.lastPage.any (· < (← get).page) then return false
  reopen
  return true

def printPages : Nat → Print Unit
  | 0 => pure ()
  | fuel + 1 => do
    if ← printPage then printPages fuel

/-- Passes over the rest of a line. -/
def skipOn (i : Nat) (isLast : Bool) : Nat → Option Char → Print Unit
  | 0, _ => pure ()
  | fuel + 1, c => match c with
    | some '\n' => pure ()
    | some '\x0c' => do
      if isLast then
        if (← layout).parallel then change i fun c => { c with isFull := false }
        else changeAll fun c => { c with isFull := false }
      skipLineFeed i
      hold i
    | none => close i
    | some _ => do skipOn i isLast fuel (← next i)

def skipLine (i : Nat) (isLast : Bool) : Print Unit := do
  let wasFull := (← column i).isFull
  let first ← next i
  let first ← if first = some '\x0c' && wasFull then do
      let c ← next i
      if c = some '\n' then next i else pure c
    else pure first
  change i fun c => { c with isFull := isLast }
  skipOn i isLast ((← rest i) + 2) first
  let l ← layout
  if l.firstNumber.isNone && (!l.parallel || i = 0) && first != some '\x0c' then
    modify fun s => { s with number := s.number + 1 }

/-- Passes over pages; where there are too few, tells how many there are. -/
def skipPages : Nat → Nat → Print (Option Nat)
  | 0, _ => return none
  | count + 1, page => do
    let l ← layout
    for k in List.range l.bodyLines do
      for i in List.range l.columns do
        if (← column i).status = .ready then skipLine i (k + 1 = l.bodyLines)
    if l.storing then changeAll fun c =>
      { c with status := if c.status = .closed then .closed else .held }
    reopen
    if (← get).ready = 0 then return some page
    skipPages count (page + 1)

end Print

/-- Where the columns of a page begin. -/
def Layout.starts (l : Layout) : List Column :=
  let first := l.margin + l.separatorLength
  let second := l.margin + l.columnWidth +
    (if l.parallel && l.numbered then l.numberWidth else 0) + l.separatorLength
  (List.range l.columns).map fun i =>
    { start := if i = 0 then first else if !l.truncates then 0
        else second + (i - 1) * (l.columnWidth + l.separatorLength)
      file := if l.parallel then i else 0
      isNumbered := l.numbered && (!l.parallel || i = 0) }

/-- The pages of some files, and how many pages there were where a later one was asked for. -/
def paginate (l : Layout) (files : List (List Char)) : List Char × Option Nat :=
  let start : Printer := {
    layout := l, files := files.toArray, columns := l.starts.toArray
    ready := files.length, number := l.firstNumber.getD 1, page := l.firstPage }
  let size := files.foldl (fun n text => n + text.length) 0
  let (short, printer) := (do
    match ← Print.skipPages (l.firstPage - 1) 1 with
    | some count => return some count
    | none =>
      Print.printPages (size + 2)
      return none : Print (Option Nat)).run start
  (printer.written.reverse, short)

end LayerCache.Paging
