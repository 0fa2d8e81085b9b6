import LayerCache.Shell.Program.Options
import LayerCache.Shell.Program.Order
import LayerCache.Shell.Program.Sizes

/-! Putting lines in order. -/
namespace LayerCache.Program

/-- A part of a line to compare: from behind some fields and characters up to others. Blanks in
front of either end may be passed over. -/
structure SortKey where
  start : Nat × Nat := (0, 0)
  stop : Option (Nat × Nat) := none
  letters : List Char := []
  startBlanks : Bool := false
  stopBlanks : Bool := false

namespace SortKey

/-- What is left behind some fields. Without a separator, blanks belong to the field behind. -/
def skipFields (separator : Option Char) : Nat → List Char → List Char
  | 0, line => line
  | n + 1, line => skipFields separator n (match separator with
    | some c => (line.dropWhile (· != c)).drop 1
    | none => (line.dropWhile Order.isBlank).dropWhile (!Order.isBlank ·))

/-- What is left behind a key. -/
def behind (k : SortKey) (separator : Option Char) (line : List Char) : List Char :=
  match k.stop, separator with
  | none, _ => []
  | some (fields, 0), some c => (skipFields separator fields line).dropWhile (· != c)
  | some (fields, 0), none => skipFields separator (fields + 1) line
  | some (fields, chars), _ =>
    let rest := skipFields separator fields line
    (if k.stopBlanks then rest.dropWhile Order.isBlank else rest).drop chars

def part (k : SortKey) (separator : Option Char) (line : List Char) : List Char :=
  let rest := skipFields separator k.start.1 line
  let rest := (if k.startBlanks then rest.dropWhile Order.isBlank else rest).drop k.start.2
  (line.take (line.length - (k.behind separator line).length)).drop (line.length - rest.length)

/-- Orders that are given for all keys hold for those that have none of their own. -/
def inherit (common : List Char) (k : SortKey) : SortKey :=
  if k.letters.isEmpty then { k with
    letters := common, startBlanks := common.contains 'b', stopBlanks := common.contains 'b' }
  else k

end SortKey

namespace Sorting

/-- Reads a number at the start of a text. -/
def takeCount (what : String) (text : List Char) : Except String (Nat × List Char) :=
  let digits := text.takeWhile Char.isDigit
  match Chars.number? digits with
  | some n => .ok (n, text.drop digits.length)
  | none => .error (what ++ ": invalid count at start of " ++ quoted (String.ofList text))

def badKey (text what : String) : String := what ++ ": invalid field specification " ++ quoted text

def takeLetters (text : List Char) : List Char × List Char :=
  (text.takeWhile Order.letters.contains, text.dropWhile Order.letters.contains)

def key (text : String) : Except String SortKey := do
  let (field, rest) ← takeCount "invalid number at field start" text.toList
  if field = 0 then throw (badKey text "field number is zero")
  let (char, rest) ← match rest with
    | '.' :: rest => takeCount "invalid number after '.'" rest
    | rest => pure (1, rest)
  if char = 0 then throw (badKey text "character offset is zero")
  let (letters, rest) := takeLetters rest
  let first : SortKey :=
    { start := (field - 1, char - 1), letters, startBlanks := letters.contains 'b' }
  let (k, rest) ← match rest with
    | ',' :: rest => do
      let (field, rest) ← takeCount "invalid number after ','" rest
      if field = 0 then throw (badKey text "field number is zero")
      let (char, rest) ← match rest with
        | '.' :: rest => takeCount "invalid number after '.'" rest
        | rest => pure (0, rest)
      let (more, rest) := takeLetters rest
      pure ({ first with
        stop := some (field - 1, char), letters := letters ++ more,
        stopBlanks := more.contains 'b' }, rest)
    | rest => pure (first, rest)
  if rest.isEmpty then return k else throw (badKey text "stray character in field spec")

/-- A place as it used to be written, behind a sign. -/
def oldPlace? (text : List Char) : Option (Nat × Nat × List Char) := do
  let (field, rest) ← (takeCount "" text).toOption
  let (char, rest) ← match rest with
    | '.' :: rest => (takeCount "" rest).toOption
    | rest => some (0, rest)
  let (letters, rest) := takeLetters rest
  if rest.isEmpty then some (field, char, letters) else none

def placeText (field char : Nat) (letters : List Char) : String :=
  String.ofList (naturals field ++ (if char = 0 then [] else '.' :: naturals char) ++ letters)

/-- Keys as they used to be written, in the form of today. -/
def modern : List String → List String
  | [] => []
  | "--" :: rest => "--" :: rest
  | a :: rest => match a.toList with
    | '+' :: text => match oldPlace? text, rest with
      | none, rest => a :: modern rest
      | some (field, char, letters), rest =>
        let start := "-k" ++ placeText (field + 1) (char + 1) letters
        match rest with
        | [] => [start]
        | b :: others => match b.toList with
          | '-' :: text => match oldPlace? text with
            | some (field, char, letters) =>
              (start ++ "," ++ placeText (if char = 0 then max 1 field else field + 1) char letters)
                :: modern others
            | none => start :: modern (b :: others)
          | _ => start :: modern (b :: others)
    | _ => a :: modern rest

structure Task where
  letters : List Char := []
  keys : List SortKey := []
  separator : Option Char := none
  /-- Only looks whether lines are in order; a capital letter keeps silent about it. -/
  check : Option Char := none
  saved : Option String := none
  merges : Bool := false
  unique : Bool := false
  stable : Bool := false
  ending : Char := '\n'

def separatorOf (text : String) : Except String Char :=
  match text.toList with
  | [] => .error "empty tab"
  | [c] => .ok c
  | ['\\', '0'] => .ok (Char.ofNat 0)
  | _ => .error ("multi-character tab " ++ quoted text)

def incompatible (letters : List Char) : String :=
  "options '-" ++ String.ofList letters ++ "' are incompatible"

def Task.give (t : Task) (c : Char) (value : String) : Except String Task :=
  if Order.letters.contains c then .ok { t with letters := c :: t.letters }
  else match c with
    | 'k' => do return { t with keys := t.keys ++ [← key value] }
    | 't' => do
      let c ← separatorOf value
      if t.separator.any (· != c) then throw "incompatible tabs"
      return { t with separator := some c }
    | 'c' | 'C' =>
      if t.check.any (· != c) then .error (incompatible ['c', 'C'])
      else .ok { t with check := some c }
    | 'o' =>
      if t.saved.any (· != value) then .error "multiple output files specified"
      else .ok { t with saved := some value }
    | 'm' => .ok { t with merges := true }
    | 'u' => .ok { t with unique := true }
    | 's' => .ok { t with stable := true }
    | 'z' => .ok { t with ending := Char.ofNat 0 }
    | 'S' => match Sizes.ofText "bkKmMGTPEZYRQ%" value with
      | .ok _ => .ok t
      | .error _ => if value.toList.getLast? = some '%' then .ok t
        else .error ("invalid -S argument " ++ quoted value)
    | _ => .ok t

def Task.allKeys (t : Task) : List SortKey :=
  if t.keys.isEmpty then
    if t.letters.all (· = 'r') then [] else [({} : SortKey).inherit t.letters]
  else t.keys.map (SortKey.inherit t.letters)

/-- Compares by keys in turn. -/
def compareKeys (separator : Option Char) : List (SortKey × Order) → List Char → List Char →
    Ordering
  | [], _, _ => .eq
  | (k, order) :: rest, a, b =>
    (order.apply (k.part separator a) (k.part separator b)).then
      (compareKeys separator rest a b)

/-- Lines with equal keys are compared as a whole, unless equal keys are all that counts. -/
def Task.order (t : Task) : List Char → List Char → Ordering :=
  let keys := t.allKeys.map fun k => (k, Order.ofLetters k.letters)
  let whole : Order := { reversed := t.letters.contains 'r' }
  fun a b =>
    (compareKeys t.separator keys a b).then
      (if !keys.isEmpty && (t.unique || t.stable) then .eq else whole.apply a b)

/-- Of neighbours that compare as equal the first is kept. -/
def distinctBy {α : Type} (same : α → α → Bool) : List α → List α
  | [] => []
  | x :: xs => x :: go x xs
where
  go (last : α) : List α → List α
    | [] => []
    | x :: xs => if same last x then go last xs else x :: go x xs

/-- Of two texts in order, the smaller line goes first, that of the first text if they are equal. -/
def merge {α : Type} (before : α → α → Bool) : List α → List α → List α
  | [], ys => ys
  | xs, [] => xs
  | x :: xs, y :: ys =>
    if before x y then x :: merge before xs (y :: ys) else y :: merge before (x :: xs) ys
termination_by xs ys => xs.length + ys.length

/-- The first line that is not in order, with its number. -/
def disorder? (t : Task) : List (List Char) → Option (Nat × List Char)
  | [] => none
  | first :: rest => go 2 first rest
where
  go (n : Nat) (last : List Char) : List (List Char) → Option (Nat × List Char)
    | [] => none
    | line :: rest =>
      let order := t.order last line
      if order = .gt || (t.unique && order = .eq) then some (n, line) else go (n + 1) line rest

def sorted (t : Task) (texts : List (List (List Char))) : List (List Char) :=
  let before (a b : List Char) : Bool := t.order a b != .gt
  let lines := if t.merges then texts.foldl (merge before) [] else texts.flatten.mergeSort before
  if t.unique then distinctBy (fun a b => t.order a b == .eq) lines else lines

def usage : Usage where
  bare := "bcCdfghimMnrRsuVz"
  valued := "kotST"
  loose := "y"
  long := [("ignore-leading-blanks", 'b'), ("dictionary-order", 'd'), ("ignore-case", 'f'),
    ("general-numeric-sort", 'g'), ("human-numeric-sort", 'h'), ("ignore-nonprinting", 'i'),
    ("month-sort", 'M'), ("numeric-sort", 'n'), ("random-sort", 'R'), ("reverse", 'r'),
    ("version-sort", 'V'), ("check?", 'Q'), ("sort=", 'W'), ("key=", 'k'), ("merge", 'm'),
    ("output=", 'o'), ("stable", 's'), ("buffer-size=", 'S'), ("field-separator=", 't'),
    ("temporary-directory=", 'T'), ("unique", 'u'), ("zero-terminated", 'z'), ("parallel=", 'P'),
    ("batch-size=", 'B'), ("compress-program=", 'K'), ("random-source=", 'G'), ("debug", 'D')]

def kinds : List (List String × Char) :=
  [(["general-numeric"], 'g'), (["human-numeric"], 'h'), (["month"], 'M'), (["numeric"], 'n'),
    (["random"], 'R'), (["version"], 'V')]

def checks : List (List String × Char) :=
  [(["quiet", "silent"], 'C'), (["diagnose-first"], 'c')]

/-- Letters in place of the words that choose them. -/
def withLetters (p : Process) (given : List (Char × String))
    (work : List (Char × String) → Work Unit) : Work Unit :=
  match given with
  | [] => work []
  | ('W', word) :: rest => withChoice p "sort" word kinds (fun c =>
      withLetters p rest fun others => work ((c, "") :: others)) 2
  | ('Q', word) :: rest =>
    withChoice p "check" (if word = "" then "diagnose-first" else word) checks (fun c =>
      withLetters p rest fun others => work ((c, "") :: others)) 2
  | given :: rest => withLetters p rest fun others => work (given :: others)

/-- Reads a file, or says why not. -/
def read? (p : Process) (file : String) : Work (Option (List Char)) := do
  match ← readFile file with
  | .ok text => return some text
  | .error fault =>
    complain p ((if fault = .isFolder then "read failed: " else if file = "-" then "stat failed: "
      else "cannot read: ") ++ because file fault.reason) 2
    return none

def looksOver (p : Process) (t : Task) (loud : Bool) (file : String) : Work Unit := do
  let some text ← read? p file | return
  match disorder? t (Chars.bareRecords t.ending text) with
  | none => pure ()
  | some (n, line) =>
    if loud then
      write errors (p.name ++ ": " ++ file ++ ":" ++ String.ofList (naturals n) ++
        ": disorder: " ++ String.ofList line ++ String.singleton t.ending).toList
    finish 1

def readAll (p : Process) : List String → Work (Option (List (List Char)))
  | [] => return some []
  | file :: files => do match ← read? p file with
    | none => return none
    | some text => return (← readAll p files).map (text :: ·)

def run (p : Process) (t : Task) (files : List String) : Work Unit := do
  match t.check, files with
  | some c, _ :: extra :: _ =>
    complain p ("extra operand " ++ quotedFile extra ++ " not allowed with -" ++
      String.singleton c) 2
  | some c, files =>
    if t.saved.isSome then complain p (incompatible [c, 'o']) 2
    else looksOver p t (c = 'c') (files.headD "-")
  | none, files =>
    let disk := (← get).disk
    match files.find? fun f => !inputNames.contains f && (disk.stat (path f)).toOption.isNone with
    | some missing => discard (read? p missing)
    | none =>
      let some texts ← readAll p files | return
      let output := (sorted t (texts.map (Chars.bareRecords t.ending))).flatMap (· ++ [t.ending])
      match t.saved with
      | none => print output
      | some file => match ← saveFile file output with
        | .ok () => pure ()
        | .error .noSpace =>
          complain p ("fflush failed: " ++ because file Fault.noSpace.reason) 2
          complain p "write error" 2
        | .error fault => complain p ("open failed: " ++ because file fault.reason) 2

end Sorting

def sort (p : Process) : Work Unit :=
  withOptions { p with args := Sorting.modern p.args } Sorting.usage (fun o =>
    Sorting.withLetters p o.given fun given =>
      match given.foldlM (fun t (c, value) => Sorting.Task.give t c value) {} with
      | .error flaw => complain p flaw 2
      | .ok t => match t.allKeys.findSome? fun k => Order.conflict? k.letters with
        | some letters => complain p (Sorting.incompatible letters) 2
        | none => Sorting.run p t (if o.operands.isEmpty then ["-"] else o.operands)) 2

end LayerCache.Program
