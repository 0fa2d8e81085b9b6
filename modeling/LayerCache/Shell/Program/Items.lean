import LayerCache.Shell.Program.Start

/-! A command for the items of an input. -/
namespace LayerCache.Program

namespace Items

/-- Items of a text, up to a quote that is not closed in its line. They lie between blanks, or on
lines of their own; quotes and backslashes keep what stands in or behind them. -/
def split (byLine : Bool) : Nat → Option (List Char) → List Char → List String × Option Char
  | 0, _, _ => ([], none)
  | _ + 1, item, [] => (item.toList.map fun cs => String.ofList cs.reverse, none)
  | fuel + 1, item, c :: rest =>
    let add (cs : List Char) := some (cs.reverse ++ item.getD [])
    if c = '\'' || c = '"' then
      let inner := rest.takeWhile fun d => d != c && d != '\n'
      match rest.drop inner.length with
      | d :: rest => if d = c then split byLine fuel (add inner) rest else ([], some c)
      | [] => ([], some c)
    else if c = '\\' then split byLine fuel (add (rest.take 1)) (rest.drop 1)
    else if c = '\n' || (!byLine && (c = ' ' || c = '\t')) then
      let (others, flaw) := split byLine fuel none rest
      ((item.toList.map fun cs => String.ofList cs.reverse) ++ others, flaw)
    else if item.isNone && (c = ' ' || c = '\t') then split byLine fuel none rest
    else split byLine fuel (add [c]) rest

/-- Lines that belong together: one that ends in a blank goes on in the next. -/
def joinLines : List (List Char) → List (List Char)
  | [] => []
  | line :: rest => match joinLines rest with
    | next :: others =>
      if line.getLast?.any fun c => c = ' ' || c = '\t' then (line ++ next) :: others
      else line :: next :: others
    | [] => [line]

def groupsOf {α : Type} (size : Nat) : Nat → List α → List (List α)
  | 0, _ => []
  | fuel + 1, xs => if xs.isEmpty then [] else xs.take size :: groupsOf size fuel (xs.drop size)

/-- How many bytes the words of a command take. -/
def sizeOf (words : List String) : Nat := words.foldl (fun n w => n + w.length + 1) 0

/-- Groups that are as large as a command may be. -/
def fitting (room : Nat) : List String → List (List String) → Nat → List (List String)
  | [], done, _ => (done.map List.reverse).reverse
  | item :: rest, [], _ => fitting room rest [[item]] (item.length + 1)
  | item :: rest, group :: done, size =>
    if size + item.length + 1 ≤ room then
      fitting room rest ((item :: group) :: done) (size + item.length + 1)
    else fitting room rest ([item] :: group :: done) (item.length + 1)

/-- Runs the calls of a command in turn; some endings stop the rest. -/
def callAll (launch : Launch) (p : Process) (shows : Bool) : Nat → List (List String) → Work Nat
  | status, [] => return status
  | status, words :: calls => do
    if shows then
      write errors (Text.join " " (words.map (Quoting.shell false false)) ++ "\n").toList
    let name := words.headD ""
    let o ← get
    match orShell launch { p with name, args := words.drop 1, disk := o.disk } with
    | .error fault =>
      complain p (name ++ ": " ++ fault.reason)
      return if fault = .notFound then 127 else 126
    | .ok effects =>
      takeOver { effects with input := o.input, trouble := o.trouble }
      match effects.ending with
      | .code 255 =>
        complain p (name ++ ": exited with status 255; aborting")
        return 124
      | .killed n =>
        complain p (name ++ ": terminated by signal " ++ toString n)
        return 125
      | .code 0 => callAll launch p shows status calls
      | .code _ => callAll launch p shows 123 calls

/-- What parts a call from the next: a mark that each item is put for, or a number of items or of
lines. -/
inductive Grouping where
  | all
  | mark (text : String)
  | items (n : Nat)
  | lines (n : Nat)

structure Plan where
  grouping : Grouping := .all
  ending : Option String := none
  most : Nat := 131072
  warnings : List String := []

def usage : Usage where
  bare := "0rtxpo"
  valued := "nIdLPEsa"
  loose := "eil"
  long := [("null", '0'), ("no-run-if-empty", 'r'), ("max-args=", 'n'), ("delimiter=", 'd'),
    ("max-lines?", 'l'), ("max-procs=", 'P'), ("verbose", 't'), ("exit", 'x'),
    ("replace?", 'i'), ("eof?", 'e'), ("max-chars=", 's'), ("arg-file=", 'a'),
    ("interactive", 'p'), ("open-tty", 'o'), ("process-slot-var=", 'V')]
  anywhere := false

def number (p : Process) (c : Char) (least : Nat) (text : String) : Except String Nat :=
  match Text.int? text with
  | none => .error ("invalid number \"" ++ text ++ "\" for -" ++ String.singleton c ++
      " option\nTry '" ++ p.name ++ " --help' for more information.")
  | some n =>
    if n < least then .error ("value " ++ text ++ " for -" ++ String.singleton c ++
      " option should be >= " ++ toString least ++ "\nTry '" ++ p.name ++
      " --help' for more information.")
    else .ok n.toNat

/-- A way to part calls takes the place of one given before it. -/
def Plan.regroup (plan : Plan) (name : String) (g : Grouping) : Plan :=
  let old? := match plan.grouping, g with
    | .all, _ | .mark _, .mark _ | .items _, .items _ | .lines _, .lines _ => none
    | .mark _, _ => some "--replace"
    | .items _, _ => some "--max-args"
    | .lines _, _ => some "--max-lines"
  match plan.grouping, g, old? with
  | .mark _, .items 1, _ => plan
  | _, _, none => { plan with grouping := g }
  | _, _, some old => { plan with
      grouping := g
      warnings := plan.warnings ++ ["warning: options " ++ old ++ " and " ++ name ++
        " are mutually exclusive, ignoring previous " ++ old ++ " value"] }

def Plan.take (p : Process) (plan : Plan) (option : Char × String) : Except String Plan :=
  match option with
  | ('I', text) => .ok (plan.regroup "--replace/-I/-i" (.mark text))
  | ('i', text) => .ok (plan.regroup "--replace/-I/-i"
      (.mark (if text = "" then "\x7b\x7d" else text)))
  | ('n', text) => (number p 'n' 1 text).map fun n => plan.regroup "--max-args/-n" (.items n)
  | ('L', text) => (number p 'L' 1 text).map fun n => plan.regroup "-L" (.lines n)
  | ('l', text) =>
    if text = "" then .ok (plan.regroup "--max-lines/-l" (.lines 1))
    else (number p 'l' 1 text).map fun n => plan.regroup "--max-lines/-l" (.lines n)
  | ('s', text) => (number p 's' 1 text).map fun n => { plan with most := n }
  | ('P', text) => (number p 'P' 0 text).map fun _ => plan
  | ('E', text) | ('e', text) => .ok { plan with ending := if text = "" then none else some text }
  | _ => .ok plan

/-- The character that ends items, if one is set. -/
def delimiter (o : Options) : Except String (Option Char) :=
  match o.last? "0d" with
  | none => .ok none
  | some ('0', _) => .ok (some (Char.ofNat 0))
  | some (_, text) => match text.toList with
    | [c] => .ok (some c)
    | '\\' :: c :: rest =>
      let simple := [('a', 7), ('b', 8), ('f', 12), ('n', 10), ('r', 13), ('t', 9), ('v', 11),
        ('\\', 92)]
      let digits (base : Nat) (cs : List Char) : Option Nat := cs.foldlM (fun n d =>
        let value := if d.isDigit then d.toNat - 48 else d.toLower.toNat - 87
        if (d.isDigit || ('a' ≤ d.toLower && d.toLower ≤ 'f')) && value < base then
          some (n * base + value)
        else none) 0
      let code? := if c = 'x' then digits 16 rest
        else if c.isDigit then digits 8 (c :: rest)
        else if rest.isEmpty then simple.lookup c else none
      match code? with
      | some n => .ok (some (Char.ofNat (n % 256)))
      | none => .error ("Invalid escape sequence " ++ text ++ " in input delimiter specification.")
    | _ => .error ("Invalid input delimiter specification " ++ text ++ ": the delimiter must be " ++
        "either a single character or an escape sequence starting with \\.")

/-- The items, line by line where lines count, and a quote that was not closed. -/
def read (plan : Plan) (delimiter : Option Char) (text : List Char) :
    List (List String) × Option Char :=
  let (groups, flaw) := match delimiter, plan.grouping with
    | some c, _ =>
      let body := if text.getLast? = some c then text.dropLast else text
      ((if text.isEmpty then [] else Chars.split c body).map fun item => [String.ofList item], none)
    | none, .lines _ =>
      (((joinLines (Chars.bareLines text)).map fun line =>
        (split false (line.length + 2) none line).1).filter fun line => !line.isEmpty, none)
    | none, .mark _ =>
      let (items, flaw) := split true (text.length + 2) none text
      (items.map ([·]), flaw)
    | none, _ =>
      let (items, flaw) := split false (text.length + 2) none text
      (items.map ([·]), flaw)
  match plan.ending with
  | some ending =>
    if delimiter.isSome then (groups, flaw)
    else (groups.takeWhile fun group => !group.contains ending, flaw)
  | none => (groups, flaw)

/-- The commands to call. -/
def calls (plan : Plan) (command : List String) (groups : List (List String)) :
    List (List String) :=
  let room := plan.most - sizeOf command
  match plan.grouping with
  | .mark text => groups.map fun group => match command with
    | [] => []
    | name :: args => name :: args.map fun a => a.replace text (group.headD "")
  | .items n | .lines n => (groupsOf n groups.length groups).flatMap fun g =>
      (fitting room g.flatten [] 0).map (command ++ ·)
  | .all => (fitting room groups.flatten [] 0).map (command ++ ·)

def run (launch : Launch) (p : Process) (o : Options) (plan : Plan) (delimiter : Option Char)
    (text : List Char) : Work Unit := do
  plan.warnings.forM fun warning => write errors (p.name ++ ": " ++ warning ++ "\n").toList
  let command := if o.operands.isEmpty then ["echo"] else o.operands
  let (groups, flaw) := read plan delimiter text
  let all := calls plan command groups
  let all := if all.isEmpty && !o.has 'r' && flaw.isNone && !(plan.grouping matches .mark _)
    then [command] else all
  let (fine, long) := all.span fun words => sizeOf words ≤ plan.most
  let status ← callAll launch p (o.has 't') 0 fine
  finish status
  if !long.isEmpty && status != 127 && status != 126 then complain p "argument line too long"
  flaw.forM fun c => complain p ("unmatched " ++ (if c = '"' then "double" else "single") ++
    " quote; by default quotes are special to xargs unless you use the -0 option")

end Items

/-- Starts a command for the items of the input. -/
def forItems (launch : Launch) (p : Process) : Work Unit :=
  withOptions p Items.usage fun o =>
    match (do
      let plan ← o.given.foldlM (Items.Plan.take p) {}
      return (plan, ← Items.delimiter o)) with
    | .error flaw => complain p flaw
    | .ok (plan, delimiter) => do
      match o.value? 'a' with
      | none =>
        let text ← readFile "-"
        Items.run launch { p with input := [], rereads := true } o plan delimiter
          (text.toOption.getD [])
        match text with
        | .ok _ => pure ()
        | .error .isFolder => complain p "error closing file"
        | .error fault => complain p ("error closing file: " ++ fault.reason)
      | some name => match ← readFile name with
        | .ok text => Items.run launch p o plan delimiter text
        | .error fault => complain p ("Cannot open input file " ++ quoted name ++ ": " ++
            fault.reason)

end LayerCache.Program
