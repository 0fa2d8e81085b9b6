import LayerCache.Shell.Program.Feed
import LayerCache.Shell.Program.Sizes

/-! Two sorted files side by side: the lines they share, and lines put together by a field. -/
namespace LayerCache.Program

namespace Shared

/-- How many columns stand in front of one, by the columns left out. -/
structure Layout where
  hidden : List Nat
  separator : List Char
  ending : Char

def Layout.row (l : Layout) (column : Nat) (line : List Char) : List Char :=
  let before := (List.range (column - 1)).filter fun i => !l.hidden.contains (i + 1)
  if l.hidden.contains column then []
  else before.flatMap (fun _ => l.separator) ++ line ++ [l.ending]

def sorting (strictness : Strictness) : Sorting where
  strictness
  isAfter _ a b := b < a
  warning side _ _ := "file " ++ toString side.number ++ " is not in sorted order"

/-- The line after one that was shown. At the end the two lines before are looked at once more, as
they may have been fine only while nothing differed. -/
def follow (s : Sorting) (side : Side) : Reading (Option (List Char)) := do
  let line ← s.next side
  match line, (← get).at? side with
  | none, { previous := some previous, last := some last, .. } => s.check side previous last
  | _, _ => pure ()
  return line

/-- Goes through both files; counts the lines of each column. -/
def merge (s : Sorting) (l : Layout) :
    Nat → Option (List Char) → Option (List Char) → (Nat × Nat × Nat) → Reading (Nat × Nat × Nat)
  | fuel + 1, some a, some b, (n, m, k) => do
    if a = b then
      showRow (l.row 3 a)
      let a ← follow s .first
      let b ← follow s .second
      merge s l fuel a b (n, m, k + 1)
    else
      modify ({ · with unpaired := true })
      if a < b then
        showRow (l.row 1 a)
        merge s l fuel (← follow s .first) (some b) (n + 1, m, k)
      else
        showRow (l.row 2 b)
        merge s l fuel (some a) (← follow s .second) (n, m + 1, k)
  | fuel + 1, some a, none, (n, m, k) => do
    modify ({ · with unpaired := true })
    showRow (l.row 1 a)
    merge s l fuel (← follow s .first) none (n + 1, m, k)
  | fuel + 1, none, some b, (n, m, k) => do
    modify ({ · with unpaired := true })
    showRow (l.row 2 b)
    merge s l fuel none (← follow s .second) (n, m + 1, k)
  | _, _, _, counts => return counts

def total (l : Layout) (counts : Nat × Nat × Nat) : List Char :=
  naturals counts.1 ++ l.separator ++ naturals counts.2.1 ++ l.separator ++ naturals counts.2.2 ++
    l.separator ++ "total".toList ++ [l.ending]

def usage : Usage where
  bare := "123z"
  long := [("check-order", 'C'), ("nocheck-order", 'N'), ("output-delimiter=", 'D'),
    ("total", 'T'), ("zero-terminated", 'z')]

end Shared

def strictnessOf (o : Options) : Strictness := match o.last? "CN" with
  | some ('C', _) => .always
  | some _ => .never
  | none => .unpaired

/-- Opens two files; the first that cannot be opened or read ends it. -/
def withBoth (p : Process) (a b : String) (wording : String → String → String)
    (work : List Char → List Char → Work Unit) : Work Unit := do
  let first ← readFile a
  let second ← readFile b
  let missing (name : String) (text : Except Fault (List Char)) : Option String := match text with
    | .error .isFolder | .error .badDescriptor => none
    | .error fault => some (because name fault.reason)
    | .ok _ => none
  match (missing a first).or (missing b second), first, second with
  | some flaw, _, _ => complain p flaw
  | none, .error fault, _ => complain p (wording a fault.reason)
  | none, _, .error fault => complain p (wording b fault.reason)
  | none, .ok first, .ok second => work first second

def compareLines (p : Process) : Work Unit :=
  withOptions p Shared.usage fun o =>
    match o.operands with
    | [] => askForHelp p "missing operand"
    | [a] => askForHelp p ("missing operand after " ++ quotedFile a)
    | [a, b] =>
      let separators := o.values 'D'
      if separators.any (· != separators.headD "") then
        complain p "multiple output delimiters specified"
      else
        let separator := match separators with
          | [] => ['\t']
          | text :: _ => if text = "" then [Char.ofNat 0] else text.toList
        let ending := if o.has 'z' then Char.ofNat 0 else '\n'
        let hidden := [('1', 1), ('2', 2), ('3', 3)].filterMap fun (c, n) =>
          if o.has c then some n else none
        let layout : Shared.Layout := ⟨hidden, separator, ending⟩
        let sorting := Shared.sorting (strictnessOf o)
        withBoth p a b because fun first second =>
          let lines (text : List Char) := Chars.bareRecords ending text
          let reading : Reading Unit := do
            let a ← sorting.next .first
            let b ← sorting.next .second
            let counts ← Shared.merge sorting layout ((← get).size + 3) a b (0, 0, 0)
            if o.has 'T' then showRow (Shared.total layout counts)
          showReading p reading { first := { rest := lines first }, second := { rest := lines second } }
    | _ :: _ :: c :: _ => askForHelp p ("extra operand " ++ quotedFile c)

namespace Join

/-- A field of the lines put together: the shared one, or one of a file. -/
inductive Field where
  | shared
  | own (side : Side) (index : Nat)

/-- What parts the fields of a line: blanks, one character, or nothing. -/
inductive Parting where
  | blanks
  | sign (c : Char)
  | none
  deriving DecidableEq, Repr

structure Form where
  parting : Parting := .blanks
  firstField : Nat := 0
  secondField : Nat := 0
  folded : Bool := false
  filler : List Char := []
  ending : Char := '\n'
  /-- The fields to show; else the shared one and the others. -/
  fields : Option (List Field) := none
  /-- How many fields of either file are shown, if that is fixed. -/
  counts : Option (Nat × Nat) := none

def isBlank (c : Char) : Bool := c = ' ' || c = '\t' || c = '\n'

/-- Fields between blanks; blanks at the end leave an empty one. -/
def blankFields : Nat → List Char → List (List Char)
  | 0, _ => []
  | fuel + 1, cs =>
    let field := cs.takeWhile (!isBlank ·)
    match cs.drop field.length with
    | [] => [field]
    | rest => field :: blankFields fuel (rest.dropWhile isBlank)

def Form.split (f : Form) (line : List Char) : List (List Char) :=
  if line.isEmpty then []
  else match f.parting with
    | .blanks =>
      let body := line.dropWhile isBlank
      if body.isEmpty then [] else blankFields (body.length + 1) body
    | .sign c => Chars.split c line
    | .none => [line]

def Form.fieldOf (f : Form) : Side → Nat
  | .first => f.firstField
  | .second => f.secondField

def Form.key (f : Form) (side : Side) (line : List Char) : List Char :=
  let field := ((f.split line)[f.fieldOf side]?).getD []
  if f.folded then field.map Char.toUpper else field

def Form.separator (f : Form) : Char := match f.parting with
  | .blanks => ' '
  | .sign c => c
  | .none => '\n'

def Form.shown (f : Form) (fields : List (List Char)) (i : Nat) : List Char :=
  match fields[i]? with
  | none | some [] => f.filler
  | some field => field

/-- Two lines put together; one of them may be missing. -/
def Form.row (f : Form) (a b : Option (List Char)) : List Char :=
  let first := f.split (a.getD [])
  let second := f.split (b.getD [])
  let shared := if a.isSome then f.shown first f.firstField else f.shown second f.secondField
  let others (fields : List (List Char)) (skipped : Nat) (count : Option Nat) :=
    (List.range (count.getD fields.length)).filterMap fun i =>
      if i = skipped then none else some (f.shown fields i)
  let shown := match f.fields with
    | some fields => fields.map fun (field : Field) => match field with
      | .shared => shared
      | .own .first i => f.shown first i
      | .own .second i => f.shown second i
    | none => shared :: others first f.firstField (f.counts.map Prod.fst) ++
      others second f.secondField (f.counts.map Prod.snd)
  (shown.intersperse [f.separator]).flatten ++ [f.ending]

def sorting (f : Form) (strictness : Strictness) (names : Side → String) : Sorting where
  strictness
  isAfter side a b := f.key side b < f.key side a
  warning side n line := names side ++ ":" ++ toString n ++ ": is not sorted: " ++
    String.ofList line

/-- Which lines are shown: those of pairs, and those without a partner. -/
structure Choice where
  paired : Bool
  unpaired : Side → Bool

/-- Reads lines with a key, and the line behind them. -/
def alike (f : Form) (s : Sorting) (side : Side) (key : List Char) :
    Nat → List (List Char) → Reading (List (List Char) × Option (List Char))
  | 0, found => return (found.reverse, none)
  | fuel + 1, found => do
    match ← s.next side with
    | none => return (found.reverse, none)
    | some line =>
      if f.key side line = key then alike f s side key fuel (line :: found)
      else return (found.reverse, some line)

/-- Reads what is left of one file. -/
def drain (f : Form) (s : Sorting) (c : Choice) (side : Side) : Nat → Reading Unit
  | 0 => return
  | fuel + 1 => do
    match ← s.next side with
    | none => return
    | some line =>
      if c.unpaired side then
        showRow (if side = .first then f.row (some line) none else f.row none (some line))
      drain f s c side fuel

/-- Goes through both files as long as both have lines. -/
def merge (f : Form) (s : Sorting) (c : Choice) : Nat → Option (List Char) → Option (List Char) →
    Reading (Option (List Char) × Option (List Char))
  | fuel + 1, some a, some b => do
    let key := f.key .first a
    let other := f.key .second b
    if key = other then
      let (firsts, next) ← alike f s .first key fuel [a]
      let (seconds, after) ← alike f s .second key fuel [b]
      if c.paired then
        firsts.forM fun a => seconds.forM fun b => showRow (f.row (some a) (some b))
      merge f s c fuel next after
    else if key < other then
      if c.unpaired .first then showRow (f.row (some a) none)
      let next ← s.next .first
      modify ({ · with unpaired := true })
      merge f s c fuel next (some b)
    else
      if c.unpaired .second then showRow (f.row none (some b))
      let next ← s.next .second
      modify ({ · with unpaired := true })
      merge f s c fuel (some a) next
  | _, a, b => return (a, b)

/-- What is left when one file has ended. -/
def finishBoth (f : Form) (s : Sorting) (c : Choice) (a b : Option (List Char)) : Reading Unit := do
  let feeds ← get
  let looks := s.strictness != .never && !(feeds.first.warned && feeds.second.warned)
  if a.isSome && (c.unpaired .first || looks) then
    if c.unpaired .first then showRow (f.row a none)
    if b.isSome then modify ({ · with unpaired := true })
    drain f s c .first feeds.size
  if b.isSome && (c.unpaired .second || looks) then
    if c.unpaired .second then showRow (f.row none b)
    if a.isSome then modify ({ · with unpaired := true })
    drain f s c .second feeds.size

/-- Puts the first lines together as headings. -/
def heading (f : Form) (s : Sorting) (a b : Option (List Char)) :
    Reading (Option (List Char) × Option (List Char)) := do
  if a.isNone && b.isNone then return (none, none)
  showRow (f.row a b)
  modify fun feeds => { feeds with
    first := { feeds.first with last := none }, second := { feeds.second with last := none } }
  let a ← s.next .first
  let b ← s.next .second
  return (a, b)

def reading (f : Form) (s : Sorting) (c : Choice) (counted headed : Bool) : Reading Unit := do
  let size := (← get).size
  let a ← s.next .first
  let b ← s.next .second
  let width (line : Option (List Char)) := (f.split (line.getD [])).length
  let f := if counted then { f with counts := some (width a, width b) } else f
  let (a, b) ← if headed then heading f s a b else pure (a, b)
  let (a, b) ← merge f s c (size + 1) a b
  finishBoth f s c a b

def usage : Usage where
  bare := "iz"
  valued := "aejv12ot"
  long := [("ignore-case", 'i'), ("check-order", 'C'), ("nocheck-order", 'N'),
    ("zero-terminated", 'z'), ("header", 'H')]

/-- The place of a field that counts from one. -/
def fieldIndex (text : String) : Except String Nat :=
  match Sizes.ofText "" text with
  | .ok (n + 1) => .ok n
  | .error .tooLarge => .ok Sizes.bound
  | _ => .error ("invalid field number: " ++ quoted text)

def field (text : String) : Except String Field :=
  match text.toList with
  | ['0'] => .ok .shared
  | '0' :: _ => .error ("invalid field specifier: " ++ quoted text)
  | '1' :: '.' :: rest => (fieldIndex (String.ofList rest)).map (.own .first)
  | '2' :: '.' :: rest => (fieldIndex (String.ofList rest)).map (.own .second)
  | '1' :: _ | '2' :: _ => .error ("invalid field specifier: " ++ quoted text)
  | _ => .error ("invalid file number in field spec: " ++ quoted text)

def fields (text : String) : Except String (List Field) :=
  (text.toList.splitBy fun _ b => !(b = ',' || b = ' ' || b = '\t')).zipIdx.mapM fun (part, i) =>
    field (String.ofList (if i = 0 then part else part.drop 1))

def side (text : String) : Except String Side :=
  match Sizes.ofText "" text with
  | .ok 1 => .ok .first
  | .ok 2 => .ok .second
  | _ => .error ("invalid field number: " ++ quoted text)

def parting (texts : List String) : Except String Parting := do
  let one (text : String) : Except String Parting := match text.toList with
    | [] => .ok .none
    | [c] => .ok (.sign c)
    | ['\\', '0'] => .ok (.sign (Char.ofNat 0))
    | _ => .error ("multi-character tab " ++ quoted text)
  let all ← texts.mapM one
  if all.any fun one => some one != all.head? then throw "incompatible tabs"
  return all.headD .blanks

/-- The field of either file that lines are put together by. -/
def places (o : Options) : Except String (Nat × Nat) := do
  let given (letters : List Char) := o.given.filterMap fun (c, v) =>
    if letters.contains c then some v else none
  let one (texts : List String) : Except String Nat := do
    let all ← texts.mapM fieldIndex
    match all.find? (some · != all.head?) with
    | some n => throw ("incompatible join fields " ++ toString (all.headD 0) ++ ", " ++ toString n)
    | none => return all.headD 0
  return (← one (given ['1', 'j']), ← one (given ['2', 'j']))

def formOf (o : Options) : Except String (Form × List Side × List Side) := do
  let alone ← (o.values 'v').mapM side
  let also ← (o.values 'a').mapM side
  let (first, second) ← places o
  let lists := (o.values 'o').filter (· != "auto")
  let chosen ← lists.mapM fields
  let fillers := o.values 'e'
  if fillers.any (· != fillers.headD "") then throw "conflicting empty-field replacement strings"
  return ({ parting := ← parting (o.values 't')
            firstField := first
            secondField := second
            folded := o.has 'i'
            filler := (fillers.headD "").toList
            ending := if o.has 'z' then Char.ofNat 0 else '\n'
            fields := if lists.isEmpty then none else some chosen.flatten }, alone, also)

end Join

def joinLines (p : Process) : Work Unit :=
  withOptions p Join.usage fun o =>
    match Join.formOf o with
    | .error flaw => complain p flaw
    | .ok (form, alone, also) =>
      match o.operands with
      | [] => askForHelp p "missing operand"
      | [_] => askForHelp p ("missing operand after " ++
          quotedFile ((p.args.getLast?).getD ""))
      | [a, b] =>
        if a = "-" && b = "-" then complain p "both files cannot be standard input"
        else
          let names : Side → String := fun side => if side = .first then a else b
          let sorting := Join.sorting form (strictnessOf o) names
          let choice : Join.Choice := ⟨alone.isEmpty, (alone ++ also).contains⟩
          withBoth p a b (fun _ reason => "read error: " ++ reason) fun first second =>
            let lines (text : List Char) := Chars.bareRecords form.ending text
            showReading p (Join.reading form sorting choice ((o.values 'o').contains "auto")
              (o.has 'H')) { first := { rest := lines first }, second := { rest := lines second } }
      | _ :: _ :: c :: _ => askForHelp p ("extra operand " ++ quotedFile c)

end LayerCache.Program
