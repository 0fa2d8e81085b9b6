import LayerCache.Shell.Paging.Printer

/-! Lines on their way from files to the columns of a page. -/
namespace LayerCache.Paging.Print

def close (i : Nat) : Print Unit := do
  if (← column i).status = .closed then return
  if (← layout).parallel then change i fun c => { c with status := .closed, left := 0 }
  else changeAll fun c =>
    { c with status := .closed, left := if c.stored = 0 then 0 else c.left }
  modify fun s => { s with ready := s.ready - 1 }

def hold (i : Nat) : Print Unit := do
  let l ← layout
  if l.parallel then change i fun c => { c with status := .held }
  else changeAll fun c => { c with status := if l.storing then .fed else .held }
  change i fun c => { c with left := 0 }
  modify fun s => { s with ready := s.ready - 1 }

def noteFeed : Print Unit := do
  if (← layout).keepsFeeds then modify fun s => { s with awaitsFeed := true }

/-- Ends the page of a file at a form feed. -/
def feed (i : Nat) : Print Unit := do
  hold i
  skipLineFeed i

/-- Drops what does not fit. -/
def dropLine (i : Nat) : Nat → Print Unit
  | 0 => pure ()
  | fuel + 1 => do
    match ← next i with
    | some '\n' => pure ()
    | some '\x0c' =>
      skipLineFeed i
      noteFeed
      hold i
    | none => close i
    | some _ => dropLine i fuel

/-- Goes on with a line; tells whether all of it fitted. -/
def readOn (i : Nat) : Nat → Print Bool
  | 0 => return true
  | fuel + 1 => do
    match ← next i with
    | some '\n' => return true
    | some '\x0c' =>
      feed i
      noteFeed
      return true
    | none =>
      close i
      return true
    | some c => match ← fit c with
      | none => return false
      | some text =>
        text.forM say
        readOn i fuel

/-- Columns at the start of a line that have nothing to show. -/
def alignEmpty (i : Nat) : Print Unit := do
  let s ← get
  set { s with separators := 0 }
  for j in List.range s.separators do
    alignColumn j
    modify fun s => { s with separators := s.separators + 1 }
  let start := (← column i).start
  modify fun s => { s with
    padding := start, alignsEmpty := false
    spaces := if s.layout.truncates then s.layout.columnWidth else 0 }

def beginLine (i : Nat) : Print Unit := do
  let l ← layout
  if l.storing then
    if (← column i).isNumbered then printNumber
  else
    modify fun s => { s with hasText := true }
    if (← get).awaitsTitle then printTitle
    if l.parallel && (← get).alignsEmpty then alignEmpty i
    startColumn i
  modify fun s => { s with isEmptyLine := false }

def readLine (i : Nat) : Print Bool := do
  let l ← layout
  let wasFull := (← column i).isFull
  let first ← next i
  let first ← if first = some '\x0c' && wasFull then do
      let c ← next i
      if c = some '\n' then next i else pure c
    else pure first
  change i fun c => { c with isFull := false }
  match first with
  | some '\x0c' =>
    feed i
    modify fun s => { s with onlyFeed := true }
    if (← get).awaitsTitle && !l.storing then
      modify fun s => { s with hasText := true }
      printTitle
    else noteFeed
    return true
  | none =>
    close i
    return true
  | some '\n' =>
    beginLine i
    return true
  | some c => match ← fit c with
    | none => return false
    | some text =>
      beginLine i
      text.forM say
      readOn i ((← rest i) + 1)

/-- Reads a line and drops what does not fit. -/
def takeLine (i : Nat) : Print Unit := do
  if !(← readLine i) then dropLine i ((← rest i) + 1)

/-- Keeps the lines of one column. -/
def keepLines (i : Nat) : Nat → Print Unit
  | 0 => pure ()
  | count + 1 => do
    if (← get).ready = 0 then return
    if (← column i).status = .ready then
      modify fun s => { s with place := 0 }
      takeLine i
      let s ← get
      if (← column i).status = .ready || !s.keeping.isEmpty then
        set { s with kept := s.kept.push (s.keeping.reverse, s.place), keeping := [] }
    keepLines i count

/-- Keeps the lines of a page, and shares them among its columns. -/
def keepPage : Print Unit := do
  let l ← layout
  modify fun s => { s with kept := #[], keeping := [] }
  changeAll fun c => { c with stored := 0 }
  for i in List.range l.columns do
    if (← get).ready != 0 then keepLines i l.bodyLines
  let total := (← get).kept.size
  let _ ← (List.range l.columns).foldlM (fun first i => do
    let lines := total / l.columns + (if i < total % l.columns then 1 else 0)
    change i fun c => { c with stored := lines, next := first, left := lines }
    return first + lines) 0

def showKept (i : Nat) : Print Unit := do
  let c ← column i
  change i fun c => { c with next := c.next + 1 }
  modify fun s => { s with hasText := true }
  if (← get).awaitsTitle then printTitle
  if c.status = .fed then
    changeAll fun c => { c with status := .held }
    if (← column 0).left = 0 then
      if !(← layout).hasTitle then modify fun s => { s with hasText := false }
      return
  startColumn i
  let (text, stop) := ((← get).kept[c.next]?).getD ([], 0)
  text.forM printChar
  let s ← get
  if s.spaces = 0 then
    let isFirst := c.start - s.layout.separatorLength = s.layout.margin
    set { s with position := c.start + stop - if isFirst then s.layout.separatorLength else 0 }

end LayerCache.Paging.Print
