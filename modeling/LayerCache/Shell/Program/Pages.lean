import LayerCache.Shell.Paging.Pages
import LayerCache.Shell.Program.Names
import LayerCache.Shell.Program.Sizes
import LayerCache.Shell.Program.Times

/-! Text laid out on pages, in columns that stand side by side. -/
namespace LayerCache.Program

open Paging (Layout)

namespace Pages

def usage : Usage where
  bare := "0123456789abcdfFJmrtTv"
  valued := "DhlNowW"
  loose := "einsS"
  long := [("pages=", 'P'), ("columns=", 'C'), ("across", 'a'), ("show-control-chars", 'c'),
    ("double-space", 'd'), ("date-format=", 'D'), ("expand-tabs?", 'e'), ("form-feed", 'f'),
    ("header=", 'h'), ("output-tabs?", 'i'), ("join-lines", 'J'), ("length=", 'l'),
    ("merge", 'm'), ("number-lines?", 'n'), ("first-line-number=", 'N'), ("indent=", 'o'),
    ("no-file-warnings", 'r'), ("separator?", 's'), ("sep-string?", 'S'), ("omit-header", 't'),
    ("omit-pagination", 'T'), ("show-nonprinting", 'v'), ("width=", 'w'), ("page-width=", 'W')]

/-- What is wrong with the options, and whether help is offered. -/
abbrev Flaw := String × Bool

def mostNumber : Int := 2147483647

def number (text : String) (least : Int) (what : String) : Except Flaw Int :=
  let flaw (reason : String) : Except Flaw Int := .error (what ++ ": " ++ quoted text ++ reason, false)
  match Sizes.intOfText text with
  | .error f => flaw f.reason
  | .ok n =>
    if n < least then flaw ": Numerical result out of range"
    else if mostNumber < n then flaw Sizes.Flaw.tooLarge.reason
    else .ok n

def natural (text : String) (least : Int) (what : String) : Except Flaw Nat :=
  (number text least what).map Int.toNat

/-- A character and a number behind it, each of which may be left out. -/
def markAndNumber (c : Char) (text : String) (usual : Char × Nat) : Except Flaw (Char × Nat) :=
  let (mark, rest) := match text.toList with
    | d :: rest => if d.isDigit then (usual.1, d :: rest) else (d, rest)
    | [] => (usual.1, [])
  let flaw (reason : String) : Except Flaw (Char × Nat) := .error ("'-" ++ String.singleton c ++
    "' extra characters or invalid number in the argument: " ++ quoted (String.ofList rest) ++
    reason, true)
  if rest.isEmpty then .ok (mark, usual.2)
  else match Sizes.intOfText (String.ofList rest) with
    | .ok n => if n ≤ 0 then flaw "" else if mostNumber < n then flaw Sizes.Flaw.tooLarge.reason
      else .ok (mark, n.toNat)
    | .error f => flaw f.reason

/-- The first page and the last one; nothing where the text names no pages. -/
def pageRange (what text : String) : Except Flaw (Option (Nat × Option Nat)) :=
  let cs := text.toList
  let digits := cs.takeWhile Char.isDigit
  match Chars.number? digits, cs.drop digits.length with
  | none, _ => .error ("invalid " ++ what ++ " argument " ++ quoted text, false)
  | some 0, _ => .ok none
  | some first, [] => .ok (some (first, none))
  | some first, ':' :: rest =>
    let digits := rest.takeWhile Char.isDigit
    match Chars.number? digits, rest.drop digits.length with
    | none, _ => .error ("invalid " ++ what ++ " argument " ++ quoted text, false)
    | some last, [] => .ok (if last < first then none else some (first, some last))
    | some _, _ => .error ("invalid suffix in " ++ what ++ " argument " ++ quoted text, false)
  | some _, _ => .ok none

/-- The digits given last in a row. -/
def columnDigits (given : List (Char × String)) : List Char :=
  (given.foldl (fun (digits, goesOn) (c, _) =>
    if c.isDigit then (if goesOn then digits ++ [c] else [c], true) else (digits, false))
    (([] : List Char), false)).1

/-- Takes page numbers out of the operands. -/
def operandsOf (o : Options) : Except Flaw (List String × Option (Nat × Option Nat)) := do
  let chosen ← match o.value? 'P' with
    | some text => match ← pageRange "--pages" text with
      | some range => pure (some range)
      | none => throw ("invalid page range " ++ quoted text, false)
    | none => pure none
  o.operands.foldlM (fun (names, chosen) (name : String) => do
    match chosen, name.toList with
    | none, '+' :: rest => match ← pageRange "+" (String.ofList rest) with
      | some range => return (names, some range)
      | none => return (names ++ [name], none)
    | _, _ => return (names ++ [name], chosen)) ([], chosen)

/-- How separators and widths given in two ways go together: what lies between columns, and whether
lines are cut and joined. -/
def separation (o : Options) (many : Bool) : Option (List Char) × Bool × Bool :=
  let cuts := o.has 'W'
  let (text, uses) := o.given.foldl (fun ((text, uses) : List Char × Bool) (c, value) =>
    if c = 'S' then (value.toList, true)
    else if c = 's' && !uses && value != "" then (value.toList, false)
    else (text, uses)) ([], false)
  let isOld := (o.last? "sS").any fun (c, _) => c = 's'
  if o.has 'w' && !o.has 'W' then
    if many then (if uses || isOld then some text else none, true, o.has 'J')
    else (if uses then some text else none, cuts, true)
  else if !uses && isOld && many then
    if cuts then (some text, cuts, o.has 'J')
    else (if text.isEmpty then none else some text, cuts, true)
  else (if uses then some text else none, cuts, o.has 'J')

def bodyOf (o : Options) (length : Nat) : Nat × Bool × Bool :=
  let hasTitle := !o.hasAny "tT" && 10 < length
  let keepsFeeds := if o.hasAny "tT" then (o.last? "tT").any (fun (c, _) => c = 't') || length ≤ 10
    else length ≤ 10
  let lines := if hasTitle then length - 10 else length
  (if o.has 'd' then lines / 2 else lines, hasTitle, keepsFeeds)

def layoutOf (o : Options) (count : Nat) (range : Option (Nat × Option Nat)) :
    Except Flaw Layout := do
  let ask (c : Char) (usual : Nat) (least : Int) (what : String) : Except Flaw Nat :=
    match o.value? c with
    | none => .ok usual
    | some text => natural text least what
  let length ← ask 'l' 66 1 "'-l PAGE_LENGTH' invalid number of lines"
  let wide ← ask 'w' 72 1 "'-w PAGE_WIDTH' invalid number of characters"
  let full ← ask 'W' 72 1 "'-W PAGE_WIDTH' invalid number of characters"
  let margin ← ask 'o' 0 0 "'-o MARGIN' invalid line offset"
  let firstNumber ← match o.value? 'N' with
    | none => .ok none
    | some text => (number text (-2147483648) "'-N NUMBER' invalid starting line number").map some
  let marked (c : Char) (usual : Nat) : Except Flaw (Char × Nat) :=
    (o.values c).foldlM (fun known text => markAndNumber c text known) ('\t', usual)
  let inTab ← marked 'e' 8
  let outTab ← marked 'i' 8
  let (numberMark, digits) ← marked 'n' 5
  let digitText := String.ofList (columnDigits o.given)
  let asked ← match o.value? 'C', digitText with
    | some text, "" => (natural text 1 "invalid number of columns").map some
    | none, "" => .ok none
    | _, text => (natural text 1 "invalid number of columns").map some
  if o.has 'm' && asked.isSome then
    throw ("cannot specify number of columns when printing in parallel", false)
  if o.has 'm' && o.has 'a' then
    throw ("cannot specify both printing across and printing in parallel", false)
  let parallel := o.has 'm' && count != 0
  let columns := if parallel then count else asked.getD 1
  let (separator, cuts, joins) := separation o (o.has 'm' || asked.isSome)
  let (separator, truncates, widensTabs, makesTabs) :=
    if columns ≤ 1 then (separator, cuts, o.has 'e', o.has 'i')
    else
      let separator := match separator with
        | none => if joins then ['\t'] else [' ']
        | some ['\t'] => if joins then ['\t'] else [' ']
        | some text => text
      (some separator, true, o.has 'e' || separator != ['\t'], true)
  let (bodyLines, hasTitle, keepsFeeds) := bodyOf o length
  let l : Layout := {
    columns, bodyLines, hasTitle, keepsFeeds, parallel, separator, widensTabs, makesTabs, inTab
    outTab, numberMark, digits, firstNumber, margin
    endsWithFeed := o.hasAny "fF", doubles := o.has 'd'
    storing := !parallel && !o.has 'm' && !o.has 'a' && 1 < columns
    lineWidth := if o.has 'W' then full else wide
    truncates := truncates && !joins
    numbered := o.has 'n', escapes := o.has 'v', showsControls := o.has 'c'
    firstPage := (range.map Prod.fst).getD 1, lastPage := range.bind Prod.snd }
  let taken := (if parallel && l.numbered then l.numberWidth else 0) +
    (columns - 1) * l.separatorLength
  let columnWidth := (l.lineWidth - taken) / columns
  if columnWidth = 0 then throw ("page width too narrow", false)
  return { l with columnWidth }

def dateForm (o : Options) : String := (o.value? 'D').getD "%Y-%m-%d %H:%M"

/-- Prints files whose texts have been read. -/
def printFiles (p : Process) (o : Options) (l : Layout) (moment : Moment) (title : String)
    (texts : List (List Char)) : Work Unit := do
  let date := Calendar.write moment (dateForm o)
  let title := ((o.value? 'h').getD title).toList
  let (text, short) := Paging.paginate { l with date, title } texts
  print text
  if let some count := short then
    write errors (p.name ++ ": starting page number " ++ toString l.firstPage ++
      " exceeds page count " ++ toString count ++ "\n").toList

/-- Reads files; those that cannot be read are left out. -/
def readAll (p : Process) (o : Options) : List String → Work (List (String × List Char))
  | [] => return []
  | name :: rest => do
    match ← readFile name with
    | .ok text => return (name, text) :: (← readAll p o rest)
    | .error fault =>
      let shown := if name = "-" then "standard input" else name
      if o.has 'r' then finish 1 else complain p (because shown fault.reason)
      readAll p o rest

end Pages

def paginate (p : Process) : Work Unit :=
  withOptions p Pages.usage fun o =>
    match (do
      let (names, range) ← Pages.operandsOf o
      return (names, ← Pages.layoutOf o names.length range)) with
    | .error (flaw, true) => askForHelp p flaw
    | .error (flaw, false) => complain p flaw
    | .ok (names, l) => do
      let disk := (← get).disk
      if l.parallel then
        let files ← Pages.readAll p o names
        let l := { l with columns := files.length }
        if !files.isEmpty then
          Pages.printFiles p o l (now disk) "" (files.map Prod.snd)
      else
        for name in if names.isEmpty then ["-"] else names do
          let moment := match disk.stat (path name) with
            | .ok (place, _) => momentOf disk place
            | .error _ => now disk
          for (name, text) in ← Pages.readAll p o [name] do
            Pages.printFiles p o l moment (if name = "-" then "" else name) [text]

end LayerCache.Program
