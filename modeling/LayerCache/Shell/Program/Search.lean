import LayerCache.Shell.Program.Match
import LayerCache.Shell.Program.Options
import LayerCache.Shell.Regex.Glob

/-! Lines that match patterns, in files and in all files of folders. -/
namespace LayerCache.Program

/-- Lines to show around selected ones, each with its number and whether it is selected. -/
def around {α : Type} (before after : Nat) (selected : List Nat) (lines : List α) :
    List (Nat × Bool × α) :=
  (lines.zipIdx 1).filterMap fun (line, n) =>
    if selected.contains n then some (n, true, line)
    else if selected.any fun m => (n < m && m ≤ n + before) || (m < n && n ≤ m + after) then
      some (n, false, line)
    else none

namespace Searching

/-- How found lines are shown. -/
structure Display where
  numbers : Bool
  offsets : Bool
  onlyParts : Bool
  before : Nat
  after : Nat
  /-- What stands between lines that are apart. -/
  gap : Option String
  colors : Bool
  /-- Numbers are as wide as they can be, and lines begin at a tab. -/
  tabs : Bool
  /-- What stands behind the name of a file. -/
  nulls : Bool
  ending : Char

def colored (d : Display) (color : String) (text : List Char) : List Char :=
  let mark (s : String) : List Char := '\x1b' :: ("[" ++ s ++ "m").toList ++ '\x1b' :: "[K".toList
  if d.colors then mark color ++ text ++ mark "" else text

def nameColor : String := "35"

def numberColor : String := "32"

def markColor : String := "36"

def matchColor : String := "01;31"

def Display.name (d : Display) (name : String) : List Char := colored d nameColor name.toList

/-- What stands before a line: the name, the number and the offset that are asked for. -/
def Display.lead (d : Display) (name : Option String) (width n offset : Nat) (mark : Char) :
    List Char :=
  let mark := colored d markColor [mark]
  let number (n : Nat) : List Char := colored d numberColor
    (if d.tabs then Chars.padLeft width (naturals n) else naturals n) ++ mark
  let parts := (name.toList.map fun name =>
      d.name name ++ if d.nulls then [Char.ofNat 0] else mark) ++
    (if d.numbers then [number n] else []) ++ (if d.offsets then [number offset] else [])
  parts.flatten ++ if d.tabs && !parts.isEmpty then ['\t'] else []

/-- A line with its matches in color. -/
def Display.bright (d : Display) (line : List Char) (parts : List (Nat × Nat)) : List Char :=
  go 0 parts
where
  go (start : Nat) : List (Nat × Nat) → List Char
    | [] => line.drop start
    | (a, b) :: rest => (line.take a).drop start ++
      colored d matchColor ((line.take b).drop a) ++ go b rest

/-- Lines with the number of characters before each. -/
def withOffsets (lines : List (List Char)) : List (Nat × List Char) :=
  go 0 lines
where
  go (n : Nat) : List (List Char) → List (Nat × List Char)
    | [] => []
    | line :: rest => (n, line) :: go (n + line.length + 1) rest

def Display.show (d : Display) (s : Search) (name : Option String) (width : Nat)
    (selected : List Nat) (lines : List (List Char)) : Work Unit := do
  let shown := around d.before d.after selected (withOffsets lines)
  let gaps := 0 < d.before + d.after
  discard <| shown.foldlM (fun (last : Nat) (n, isHit, offset, line) => do
    if gaps && last != 0 && last + 1 < n then
      d.gap.forM fun gap => print (colored d markColor gap.toList ++ ['\n'])
    let mark := if isHit then ':' else '-'
    let hasParts := isHit != s.inverted
    let parts := if hasParts && (d.onlyParts || d.colors) then
      s.parts (s.subject line) (line.length + 1) 0 else []
    if d.onlyParts then
      (if isHit then parts else []).forM fun (a, b) =>
        print (d.lead name width n (offset + a) mark ++
          colored d matchColor ((line.take b).drop a) ++ [d.ending])
    else
      print (d.lead name width n offset mark ++ d.bright line parts ++ [d.ending])
    return n) 0

/-- What a file that is not text is taken for. -/
inductive Binary where
  | noted
  | text
  | skipped
  deriving DecidableEq, Repr

structure Task where
  search : Search
  display : Display
  most : Option Nat
  silent : Bool
  quiet : Bool
  counts : Bool
  listsHits : Bool
  listsOthers : Bool
  binary : Binary
  label : String
  recursive : Bool
  skipsFolders : Bool
  followsLinks : Bool
  named : Option Bool
  included : List String
  excluded : List String
  excludedFolders : List String

/-- Searches one text; whether lines were selected. -/
def Task.text (t : Task) (p : Process) (file : String) (named : Bool) (width : Nat)
    (text : List Char) : Work Bool := do
  let name := if file = "-" then t.label else file
  let isBinary := t.display.ending != Char.ofNat 0 && text.contains (Char.ofNat 0)
  if isBinary && t.binary = .skipped then return false
  let lines := Chars.bareRecords t.display.ending text
  let selected := ((lines.zipIdx 1).filter fun (line, _) => t.search.selects line).map Prod.snd
  let selected := t.most.elim selected selected.take
  let found := !selected.isEmpty
  let after : List Char := if t.display.nulls then [Char.ofNat 0] else ['\n']
  if t.quiet then pure ()
  else if t.listsHits || t.listsOthers then
    if found = t.listsHits then print (t.display.name name ++ after)
  else if t.counts then
    let lead := if !named then [] else t.display.name name ++
      if t.display.nulls then [Char.ofNat 0] else colored t.display markColor [':']
    printLine (lead ++ naturals selected.length)
  else if found && isBinary && t.binary = .noted then
    write errors (p.name ++ ": " ++ name ++ ": binary file matches\n").toList
  else t.display.show t.search (if named then some name else none) width selected lines
  return found

def Task.note (t : Task) (p : Process) (file : String) (fault : Fault) : Work Unit := do
  let name := if file = "-" then t.label else file
  if t.silent then finish 2 else write errors (p.name ++ ": " ++ name ++ ": " ++ fault.reason ++
    "\n").toList
  finish 2

def fitsAny (patterns : List String) (names : List String) : Bool :=
  patterns.any fun pattern => names.any fun name =>
    Glob.fits (Glob.ofText pattern) false name.toList

/-- The last part of a name. -/
def lastName (name : String) : String :=
  let bare := (name.toList.reverse.dropWhile (· = '/')).reverse
  String.ofList (bare.reverse.takeWhile (· != '/')).reverse

/-- Whether a file is looked at, by its name. -/
def Task.admits (t : Task) (file : String) : Bool :=
  let names := [file, lastName file]
  !fitsAny t.excluded names && (t.included.isEmpty || fitsAny t.included names)

def Task.file (t : Task) (p : Process) (file : String) (named : Bool) : Work Bool := do
  match ← readFile file with
  | .ok text =>
    let isEndless := file = "-" && !p.rereads
    t.text p file named (if isEndless then 19 else (naturals text.length).length) text
  | .error fault => do
    if fault = .isFolder && t.skipsFolders then return false
    t.note p file fault
    return false

/-- The files of a folder and of those in it, by their names. -/
def Task.under (t : Task) (d : Disk) : Nat → String → List String
  | 0, _ => []
  | fuel + 1, folder =>
    ((d.list (path folder)).toOption.getD []).flatMap fun n =>
      let name := Octets.ofText n
      let file := if Text.endsWith folder "/" then folder ++ name else folder ++ "/" ++ name
      match (if t.followsLinks then d.find .target (path file) else d.find .self (path file)) with
      | .ok (.taken _ .folder) =>
        if fitsAny t.excludedFolders [name] then [] else under t d fuel file
      | .ok (.taken _ (.link _)) => []
      | .ok (.taken _ _) => if t.admits name then [file] else []
      | _ => []

/-- Folders lie no deeper than this. -/
def deepest : Nat := 2048

/-- Searches what an operand names. -/
def Task.operand (t : Task) (p : Process) (many stripped : Bool) (file : String) : Work Bool := do
  let d := (← get).disk
  let isFolder := file != "-" && d.isFolder (path file)
  if isFolder && t.recursive then
    if fitsAny t.excludedFolders [file, lastName file] then return false
    let files := (t.under d deepest file).map fun name =>
      if stripped then String.ofList (name.toList.drop 2) else name
    files.foldlM (fun found name => do
      let more ← t.file p name (t.named.getD true)
      return found || more) false
  else if file != "-" && !isFolder && !t.admits file then return false
  else t.file p file (t.named.getD many)

def usage : Usage where
  bare := "EFGPivycqnoxwlLshHzarRbITUuZV0123456789"
  valued := "emfABCdD"
  long := [("basic-regexp", 'G'), ("extended-regexp", 'E'), ("fixed-regexp", 'F'),
    ("fixed-strings", 'F'), ("perl-regexp", 'P'), ("after-context=", 'A'),
    ("before-context=", 'B'), ("binary-files=", 'W'), ("binary", 'U'), ("byte-offset", 'b'),
    ("context=", 'C'), ("color?", 'O'), ("colour?", 'O'), ("count", 'c'), ("devices=", 'D'),
    ("directories=", 'd'), ("exclude=", 'k'), ("exclude-from=", 'J'), ("exclude-dir=", 'K'),
    ("file=", 'f'), ("files-with-matches", 'l'), ("files-without-match", 'L'),
    ("group-separator=", 'g'), ("include=", 'j'), ("ignore-case", 'i'), ("no-ignore-case", 'N'),
    ("initial-tab", 'T'), ("label=", 'M'), ("line-buffered", 't'), ("line-number", 'n'),
    ("line-regexp", 'x'), ("max-count=", 'm'), ("no-filename", 'h'), ("no-group-separator", 'S'),
    ("no-messages", 's'), ("null", 'Z'), ("null-data", 'z'), ("only-matching", 'o'), ("quiet", 'q'),
    ("recursive", 'r'), ("dereference-recursive", 'R'), ("regexp=", 'e'), ("invert-match", 'v'),
    ("silent", 'q'), ("text", 'a'), ("unix-byte-offsets", 'u'), ("version", 'V'),
    ("with-filename", 'H'), ("word-regexp", 'w')]

def shortUsage : String :=
  "Usage: grep [OPTION]... PATTERNS [FILE]...\nTry 'grep --help' for more information.\n"

def languages : List (Char × Search.Language) :=
  [('G', .basic), ('E', .extended), ('F', .fixed), ('P', .wide)]

/-- The language asked for; only one may be. -/
def language (o : Options) : Except String Search.Language :=
  match (o.given.filterMap fun (c, _) => languages.lookup c).eraseDups with
  | [] => .ok .basic
  | [l] => .ok l
  | _ => .error "conflicting matchers specified"

/-- A number of lines; digits given as options are one number. -/
def context (o : Options) (c : Char) : Except String Nat := do
  let number (text : String) : Except String Nat := match Text.number? text with
    | some n => .ok n
    | none => .error (text ++ ": invalid context length argument")
  let own ← (o.value? c).mapM number
  let both ← (o.value? 'C').mapM number
  let digits := (o.given.map Prod.fst).filter Char.isDigit
  return (own.or (both.or (Chars.number? digits))).getD 0

def mostLines (o : Options) : Except String (Option Nat) :=
  match o.value? 'm' with
  | none => .ok none
  | some text => match Text.int? text with
    | some n => .ok (if n < 0 then none else some n.toNat)
    | none => .error "invalid max count"

def binary (o : Options) : Except String Binary :=
  match o.last? "aIW" with
  | none => .ok .noted
  | some ('a', _) | some ('W', "text") => .ok .text
  | some ('I', _) | some ('W', "without-match") => .ok .skipped
  | some ('W', "binary") => .ok .noted
  | _ => .error "unknown binary-files type"

def task (o : Options) (patterns : List Regex) (l : Search.Language) :
    Except String Task := do
  let has := o.has
  if o.value? 'D' != none && o.value? 'D' != some "skip" && o.value? 'D' != some "read" then
    throw "unknown devices method"
  let folders := (o.last? "drR").map fun (c, v) => if c = 'd' then v else "recurse"
  let gap := match o.last? "gS" with
    | some ('g', text) => some text
    | some _ => none
    | none => some "--"
  return {
    search := {
      patterns
      fold := (o.last? "iyN").any fun (c, _) => c != 'N'
      inverted := has 'v'
      words := has 'w' && l != .wide
      preferred := l = .wide }
    display := {
      numbers := has 'n'
      offsets := has 'b'
      onlyParts := has 'o'
      before := ← context o 'B'
      after := ← context o 'A'
      gap
      colors := (o.value? 'O').any fun v => v = "always" || v = "yes" || v = "force"
      tabs := has 'T'
      nulls := has 'Z'
      ending := if has 'z' then Char.ofNat 0 else '\n' }
    most := ← mostLines o
    silent := has 's'
    quiet := has 'q'
    counts := has 'c'
    listsHits := (o.last? "lL").any fun (c, _) => c = 'l'
    listsOthers := (o.last? "lL").any fun (c, _) => c = 'L'
    binary := ← binary o
    label := (o.value? 'M').getD "(standard input)"
    recursive := folders = some "recurse"
    skipsFolders := folders = some "skip"
    followsLinks := (o.last? "drR").any fun (c, _) => c = 'R'
    named := (o.last? "hH").map fun (c, _) => c = 'H'
    included := o.values 'j'
    excluded := o.values 'k'
    excludedFolders := (o.values 'K').map fun s =>
      String.ofList (s.toList.reverse.dropWhile (· = '/')).reverse }

/-- Searches operands; the status tells a hit, no hit or trouble apart. -/
def Task.run (t : Task) (p : Process) (operands : List String) : Work Unit := do
  let files := if operands.isEmpty then [if t.recursive then "." else "-"] else operands
  let hit ← files.foldlM (fun hit file => do
    if hit && t.quiet then return true
    let found ← t.operand p (1 < operands.length) operands.isEmpty file
    return hit || found) false
  match (← get).ending with
  | .code 0 => finish (if hit then 0 else 1)
  | _ => if hit && t.quiet then finish 0

/-- The texts of patterns that options give, unless a file cannot be read. -/
def patternTexts (p : Process) : List (Char × String) → Work (Option (List (List Char)))
  | [] => return some []
  | ('e', text) :: rest => do
    return (← patternTexts p rest).map (Chars.split '\n' text.toList ++ ·)
  | ('f', file) :: rest => do match ← readFile file with
    | .ok text => return (← patternTexts p rest).map (Chars.bareLines text ++ ·)
    | .error fault => do
      complain p (because file fault.reason) 2
      return none
  | _ :: rest => patternTexts p rest

/-- Signs that repeat nothing are noted. -/
def noteIdle (p : Process) (l : Search.Language) (text : List Char) : Work Unit :=
  if l != .extended then pure ()
  else (Regex.idleSigns .grepExtended (text.length + 1) true text).forM fun sign =>
    write errors (p.name ++ ": warning: " ++ sign ++ " at start of expression\n").toList

def start (p : Process) (o : Options) : Work Unit := do
  let given := o.hasAny "ef"
  let some texts ← patternTexts p (if given then o.given else match o.operands with
    | text :: _ => [('e', text)]
    | [] => []) | return
  let operands := if given then o.operands else o.operands.drop 1
  if !given && o.operands.isEmpty then
    write errors shortUsage.toList
    finish 2
  else match language o with
    | .error flaw => complain p flaw 2
    | .ok l =>
      if l = .wide && 1 < texts.length then
        complain p "the -P option only supports a single pattern" 2
      else
        let fold := (o.last? "iyN").any fun (c, _) => c != 'N'
        if o.has 'u' then
          write errors (p.name ++ ": warning: --unix-byte-offsets (-u) is obsolete\n").toList
        match texts.mapM (Search.pattern l fold (o.has 'w') (o.has 'x')) with
        | .error flaw => complain p flaw 2
        | .ok patterns => match task o patterns l with
          | .error flaw => complain p flaw 2
          | .ok t =>
            texts.forM (noteIdle p l)
            let isIdle := texts.any List.isEmpty && o.has 'v' && !o.hasAny "xwLc"
            if t.most = some 0 || isIdle then finish 1 else t.run p operands

end Searching

def grep (p : Process) (extended fixed : Bool := false) : Work Unit :=
  match Searching.usage.split none p.args with
  | .error flaw => do
    complain p flaw 2
    write errors Searching.shortUsage.toList
  | .ok o =>
    let o := { o with given :=
      (if extended then [('E', "")] else []) ++ (if fixed then [('F', "")] else []) ++ o.given }
    match o.value? 'd' with
    | some word =>
      if ["read", "recurse", "skip"].contains word then Searching.start p o
      else do
        complain p ("invalid argument " ++ quoted word ++ " for '--directories'\n" ++
          "Valid arguments are:\n  - 'read'\n  - 'recurse'\n  - 'skip'")
        write errors Searching.shortUsage.toList
    | none => Searching.start p o

end LayerCache.Program
