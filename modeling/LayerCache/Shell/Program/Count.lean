import LayerCache.Shell.Program.Lines

/-! Counting the lines, words and characters of texts. -/
namespace LayerCache.Program

def isSpace (c : Char) : Bool := c = ' ' || ('\t' ≤ c && c ≤ '\r')

/-- Words hold something that can be seen. -/
def countWords (text : List Char) : Nat :=
  (text.foldl (fun (n, inside) c =>
    if isSpace c then (n, false)
    else if Quoting.isPrintable c then (if inside then n else n + 1, true)
    else (n, inside)) (0, false)).1

/-- The width that a text takes, of its widest line. -/
def widest (text : List Char) : Nat :=
  let (most, last) := text.foldl (fun (most, here) c =>
    if c = '\n' || c = '\r' || c = '\x0c' then (max most here, 0)
    else if c = '\t' then (most, here + 8 - here % 8)
    else if Quoting.isPrintable c then (most, here + 1)
    else (most, here)) (0, 0)
  max most last

structure Counts where
  lines : Nat := 0
  words : Nat := 0
  bytes : Nat := 0
  width : Nat := 0

namespace Counts

def ofText (text : List Char) : Counts :=
  ⟨text.count '\n', countWords text, text.length, widest text⟩

def add (a b : Counts) : Counts :=
  ⟨a.lines + b.lines, a.words + b.words, a.bytes + b.bytes, max a.width b.width⟩

/-- The counts asked for, in their order. -/
def select (k : Counts) (letters : List Char) : List Nat :=
  (if letters.contains 'l' then [k.lines] else []) ++
    (if letters.contains 'w' then [k.words] else []) ++
    (if letters.contains 'm' then [k.bytes] else []) ++
    (if letters.contains 'c' then [k.bytes] else []) ++
    (if letters.contains 'L' then [k.width] else [])

end Counts

namespace Count

def usage : Usage where
  bare := "clmwL"
  long := [("bytes", 'c'), ("chars", 'm'), ("lines", 'l'), ("words", 'w'),
    ("debug", 'D'), ("files0-from=", 'F'), ("max-line-length", 'L'), ("total=", 'T')]

inductive TotalKind where
  | auto
  | always
  | only
  | never
  deriving DecidableEq, Repr

def totals : List (List String × TotalKind) :=
  [(["auto"], .auto), (["always"], .always), (["only"], .only), (["never"], .never)]

/-- The width of numbers, which goes by the sizes of the files. -/
def width (p : Process) (d : Disk) (letters : List Char) (files : List String) : Nat :=
  let isInput (file : String) : Bool := file = "-"
  let isClosed := p.broken.lookup 0 = some .badDescriptor
  let sizes := files.map fun file => if isInput file && isClosed then none else if isInput file then
      (if p.rereads then some (some p.input.length) else some none)
    else match d.stat (path file) with
      | .ok (_, .file _ content) => some (some content.size)
      | .ok _ => some none
      | .error _ => none
  if files.length = 1 && letters.length = 1 then 1
  else
    let total := sizes.foldl (fun n s => n + (s.bind id).getD 0) 0
    let digits := (naturals total).length
    if sizes.contains (some none) then max 7 digits else digits

/-- The names of files in a text, each ended by a zero character. -/
def namesIn (text : List Char) : List String :=
  (Chars.bareRecords (Char.ofNat 0) text).map String.ofList

def tally (p : Process) (o : Options) (kind : TotalKind) (files : List String) : Work Unit := do
  let wanted := (o.given.map Prod.fst).filter "lwmcL".toList.contains
  let wanted := if wanted.isEmpty then ['l', 'w', 'c'] else wanted.eraseDups
  let d := (← get).disk
  let size := if kind = .only then 1
    else width p d wanted (if files.isEmpty then ["-"] else files)
  let row (k : Counts) (name : Option String) : Work Unit := printLine
    ((((k.select wanted).map fun n => Chars.padLeft size (naturals n)).intersperse [' ']).flatten ++
      name.elim [] fun n => ' ' :: n.toList)
  let all ← (if files.isEmpty then ["-"] else files).mapM fun file => do
    let name := if files.isEmpty then none else some file
    match ← readFile file with
    | .ok text =>
      if kind != .only then row (.ofText text) name
      return Counts.ofText text
    | .error fault =>
      let shown := if file = "-" then "'standard input'" else fileName file
      complain p (shown ++ ": " ++ fault.reason)
      if fault = .isFolder || file = "-" then
        if kind != .only then row {} name
      return {}
  let total := all.foldl Counts.add {}
  match kind with
  | .only => row total none
  | .always => row total (some "total")
  | .auto => if 1 < files.length then row total (some "total")
  | .never => pure ()
  noteClosed p files "-"

end Count

def wordCount (p : Process) : Work Unit :=
  withOptions p Count.usage fun o =>
    withChoice p "total" ((o.value? 'T').getD "auto") Count.totals fun kind => do
      match o.value? 'F' with
      | none => Count.tally p o kind o.operands
      | some list => match o.operands with
        | extra :: _ =>
          askForHelp p ("extra operand " ++ quotedFile extra ++
            "\nfile operands cannot be combined with --files0-from")
        | [] => match ← readFile list with
          | .ok text =>
            let files := Count.namesIn text
            if !files.isEmpty then Count.tally p o kind files
          | .error fault =>
            complain p ("cannot open " ++ quotedFile list ++ " for reading: " ++ fault.reason)

end LayerCache.Program
