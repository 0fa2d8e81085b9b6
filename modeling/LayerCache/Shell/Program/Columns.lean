import LayerCache.Shell.Program.Lines
import LayerCache.Shell.Program.Sizes

/-! Programs that cut lines into columns and put columns together. -/
namespace LayerCache.Program

/-- Places to keep, counted from one; the last of a range may be open. -/
abbrev Ranges := List (Nat × Option Nat)

namespace Ranges

inductive Flaw where
  | zero
  | decreasing
  | twoDashes
  | noEnds
  | notNumber (text : String)
  | tooLarge (digits : String)

/-- A range under way: its numbers, and whether a dash has been seen. -/
structure Draft where
  first : Option Nat := none
  last : Option Nat := none
  dash : Bool := false

def Draft.finish (d : Draft) : Except Flaw (Nat × Option Nat) :=
  match d.dash, d.first, d.last with
  | false, some n, _ => if n = 0 then .error .zero else .ok (n, some n)
  | false, none, _ => .error .zero
  | true, none, none => .error .noEnds
  | true, first, none => .ok (first.getD 1, none)
  | true, first, some n => if n < first.getD 1 then .error .decreasing else .ok (first.getD 1, some n)

def read : Nat → Draft → List Char → Except Flaw Ranges
  | 0, _, _ => .ok []
  | _ + 1, d, [] => do return [← d.finish]
  | fuel + 1, d, c :: rest =>
    if c = ',' || c = ' ' || c = '\t' then do
      let range ← d.finish
      return range :: (← read fuel {} rest)
    else if c = '-' then
      if d.dash then .error .twoDashes
      else if d.first = some 0 then .error .zero
      else read fuel { d with dash := true } rest
    else if c.isDigit then
      let digits := (c :: rest).takeWhile Char.isDigit
      let n := (Chars.number? digits).getD 0
      if Sizes.bound ≤ n then .error (.tooLarge (String.ofList digits))
      else
        read fuel (if d.dash then { d with last := some n } else { d with first := some n })
          ((c :: rest).drop digits.length)
    else .error (.notNumber (String.ofList (c :: rest)))

/-- Ranges in order, those that overlap made one. -/
def merged (r : Ranges) : Ranges :=
  (r.mergeSort fun a b => a.1 ≤ b.1).foldl (fun done (a, b) => match done with
    | (first, some last) :: rest =>
      if a ≤ last then (first, match b with
        | some b => some (max last b)
        | none => none) :: rest
      else (a, b) :: done
    | (_, none) :: _ => done
    | [] => [(a, b)]) [] |>.reverse

/-- The places between ranges in order. -/
def gaps (start : Nat) : Ranges → Ranges
  | [] => [(start, none)]
  | (a, b) :: rest =>
    (if start < a then [(start, some (a - 1))] else []) ++ match b with
      | some b => gaps (b + 1) rest
      | none => []

def ofText (complement : Bool) (text : String) : Except Flaw Ranges :=
  (read (text.length + 2) {} text.toList).map fun r =>
    if complement then gaps 1 (merged r) else merged r

def keeps (r : Ranges) (n : Nat) : Bool :=
  r.any fun (first, last) => first ≤ n && last.all (n ≤ ·)

def select {α : Type} (r : Ranges) (xs : List α) : List α :=
  (xs.zipIdx 1).filterMap fun (x, n) => if r.keeps n then some x else none

/-- What each range keeps, if it is anything. -/
def parts {α : Type} (r : Ranges) (xs : List α) : List (List α) :=
  (r.map fun range => select [range] xs).filter fun part => !part.isEmpty

end Ranges

namespace Columns

def message (fields : Bool) : Ranges.Flaw → String
  | .zero => if fields then "fields are numbered from 1"
    else "byte/character positions are numbered from 1"
  | .decreasing => "invalid decreasing range"
  | .twoDashes => if fields then "invalid field range" else "invalid byte or character range"
  | .noEnds => "invalid range with no endpoint: -"
  | .notNumber text =>
    (if fields then "invalid field value " else "invalid byte/character position ") ++ quoted text
  | .tooLarge digits => (if fields then "field number " else "byte/character offset ") ++
      quoted digits ++ " is too large"

/-- One line with only the fields wanted; a line without the separator is taken whole. -/
def fieldsOf (r : Ranges) (onlySeparated : Bool) (separator : Char) (joint line : List Char) :
    Option (List Char) :=
  match Chars.split separator line with
  | [whole] => if onlySeparated then none else some whole
  | fields => some ((r.select fields).intersperse joint).flatten

def usage : Usage where
  bare := "snz"
  valued := "bcfd"
  long := [("bytes=", 'b'), ("characters=", 'c'), ("fields=", 'f'), ("delimiter=", 'd'),
    ("only-delimited", 's'), ("output-delimiter=", 'O'), ("complement", 'C'),
    ("zero-terminated", 'z')]

/-- What is wrong with options together. -/
def conflict? (o : Options) (isFields : Bool) : Option String :=
  if (o.values 'd').any fun d => 1 < d.length then some "the delimiter must be a single character"
  else if !isFields && o.has 'd' then
    some "an input delimiter may be specified only when operating on fields"
  else if !isFields && o.has 's' then
    some "suppressing non-delimited lines makes sense\n\tonly when operating on fields"
  else none

def cutText (o : Options) (r : Ranges) (isFields : Bool) (text : List Char) : Work Unit :=
  let ending := if o.has 'z' then Char.ofNat 0 else '\n'
  let separator := (((o.value? 'd').getD "\t").toList.head?).getD (Char.ofNat 0)
  let joint := (o.value? 'O').elim [separator] fun s =>
    if s.isEmpty then [Char.ofNat 0] else s.toList
  let lines := Chars.bareRecords ending text
  let show' (line : List Char) : Work Unit := print (line ++ [ending])
  if isFields && separator = ending then
    if lines.isEmpty then pure ()
    else if lines.length = 1 then (if o.has 's' then pure () else lines.forM show')
    else show' ((r.select lines).intersperse joint).flatten
  else lines.forM fun line =>
    if isFields then (fieldsOf r (o.has 's') separator joint line).forM show'
    else if o.has 'O' then show' ((r.parts line).intersperse joint).flatten
    else show' (r.select line)

end Columns

def cut (p : Process) : Work Unit :=
  withOptions p Columns.usage fun o => do
    match o.given.filter fun (c, _) => "bcf".toList.contains c with
    | [] => askForHelp p "you must specify a list of bytes, characters, or fields"
    | [(letter, text)] =>
      let isFields := letter = 'f'
      match Columns.conflict? o isFields with
      | some flaw => askForHelp p flaw
      | none => match Ranges.ofText (o.has 'C') text with
        | .error flaw => askForHelp p (Columns.message isFields flaw)
        | .ok r => do
          eachFile p o.operands because fun _ text => Columns.cutText o r isFields text
          noteClosed p o.operands "-"
    | _ => askForHelp p "only one list may be specified"

namespace Columns

/-- Texts joined by separators taken in turn; an empty one stands for none. -/
def joinCycling (all left : List (List Char)) : List (List Char) → List Char
  | [] => []
  | [piece] => piece
  | piece :: pieces => match if left.isEmpty then all else left with
    | [] => piece ++ joinCycling all [] pieces
    | s :: left => piece ++ s ++ joinCycling all left pieces

/-- A column: lines of its own, or one that takes its lines from the input. -/
inductive Source where
  | own (lines : List (List Char))
  | shared

/-- The next row: a line of each column where there is one. -/
def takeRow : List Source → List (List Char) → List (Option (List Char)) × List Source ×
    List (List Char)
  | [], input => ([], [], input)
  | .own lines :: rest, input =>
    let (row, sources, input) := takeRow rest input
    (lines.head? :: row, .own lines.tail :: sources, input)
  | .shared :: rest, input =>
    let (row, sources, left) := takeRow rest input.tail
    (input.head? :: row, .shared :: sources, left)

def rows (separators : List (List Char)) : Nat → List Source → List (List Char) → List (List Char)
  | 0, _, _ => []
  | fuel + 1, sources, input =>
    let (row, sources, input) := takeRow sources input
    if row.all Option.isNone then []
    else joinCycling separators [] (row.map fun cell => cell.getD []) ::
      rows separators fuel sources input

/-- Separators as they are written, with escapes. -/
def separators? : List Char → Option (List (List Char))
  | [] => some []
  | ['\\'] => none
  | '\\' :: c :: rest => (separators? rest).map fun others => (match c with
    | '0' => []
    | 'b' => ['\x08']
    | 'f' => ['\x0c']
    | 'n' => ['\n']
    | 'r' => ['\r']
    | 't' => ['\t']
    | 'v' => ['\x0b']
    | c => [c]) :: others
  | c :: rest => (separators? rest).map ([c] :: ·)

/-- The columns of files, or nothing if one of them cannot be read. -/
def gather? (p : Process) (ending : Char) : List String → Work (Option (List Source))
  | [] => return some []
  | "-" :: files => do return (← gather? p ending files).map (.shared :: ·)
  | file :: files => do match ← readFile file with
    | .ok text => return (← gather? p ending files).map (.own (Chars.bareRecords ending text) :: ·)
    | .error fault =>
      complain p (because file fault.reason)
      if fault = .isFolder then return (← gather? p ending files).map (.own [] :: ·)
      return none

end Columns

def paste (p : Process) : Work Unit :=
  withOptions p { bare := "sz", valued := "d", long := [("serial", 's'), ("delimiters=", 'd'),
      ("zero-terminated", 'z')] } fun o => do
    let ending := if o.has 'z' then Char.ofNat 0 else '\n'
    let given := (o.value? 'd').getD "\t"
    match Columns.separators? given.toList with
    | none => complain p ("delimiter list ends with an unescaped backslash: " ++ given)
    | some separators =>
      let names := if o.operands.isEmpty then ["-"] else o.operands
      if o.has 's' then
        eachFile p names because fun _ text => print
          (Columns.joinCycling separators [] (Chars.bareRecords ending text) ++ [ending])
      else
        let some sources ← Columns.gather? p ending names | return
        let input ← if names.contains "-" then readFile "-" else pure (.ok [])
        match input with
        | .error fault => complain p (because "-" fault.reason)
        | .ok text =>
          let shared := Chars.bareRecords ending text
          let most := sources.foldl (fun n s => match s with
            | .own lines => max n lines.length
            | .shared => n) shared.length
          (Columns.rows separators (most + 1) sources shared).forM fun row => print (row ++ [ending])
      noteClosed p o.operands "-"

end LayerCache.Program
