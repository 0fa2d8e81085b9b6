import LayerCache.Shell.Calendar.Format
import LayerCache.Shell.Program.Names
import LayerCache.Shell.Program.Times

/-! Facts about files, written by a format. -/
namespace LayerCache.Program

namespace Facts

/-- What is told of: a name and what it leads to. -/
structure Subject where
  name : String
  place : Place
  entry : Entry
  disk : Disk

def digits (base n : Nat) : List Char := Nat.toDigits base n

/-- The bits that tell what kind of thing an entry is. -/
def kindBits (isPipe : Bool) : Entry → Nat
  | .folder => 0o40000
  | .link _ => 0o120000
  | .device _ => 0o20000
  | _ => if isPipe then 0o10000 else 0o100000

def isPipe (s : Subject) : Bool := (s.disk.traits.find? s.place).any Traits.isPipe

def mode (s : Subject) : Nat := s.disk.modeOf s.place s.entry

def letter (s : Subject) : Char := if isPipe s then 'p' else s.entry.letter

def letters (s : Subject) : List Char := letter s :: Mode.letters (mode s)

/-- A number that tells entries apart. -/
def serial (s : Subject) : Nat :=
  match s.entry with
  | .file n _ => 1000 + n
  | _ => 100000 + (s.disk.entries.pairs.takeWhile fun (place, _) => place != s.place).length

/-- The numbers of a device. -/
def deviceNumbers : Entry → Nat × Nat
  | .device .null => (1, 3)
  | .device .zero => (1, 5)
  | .device .full => (1, 7)
  | _ => (0, 0)

def kindName (s : Subject) : String := kindOf s.disk s.place s.entry

def moment (s : Subject) : Moment := momentOf s.disk s.place

def timeForm : String := "%Y-%m-%d %H:%M:%S.%N %z"

/-- A number or a text that a letter stands for. -/
inductive Fact where
  | text (t : List Char)
  | natural (n : Nat)
  | inBase (base n : Nat)
  | time (m : Moment)

def quotedName (name : String) : String := Quoting.shell true false name

def fact? (s : Subject) (c : Char) : Option Fact :=
  match c with
  | 'a' => some (.inBase 8 (mode s))
  | 'A' => some (.text (letters s))
  | 'b' => some (.natural s.entry.blocks)
  | 'B' => some (.natural 512)
  | 'C' => some (.text ['?'])
  | 'd' => some (.natural 64769)
  | 'D' => some (.inBase 16 64769)
  | 'f' => some (.inBase 16 (kindBits (isPipe s) s.entry + mode s))
  | 'F' => some (.text (kindName s).toList)
  | 'g' | 'u' => some (.natural 0)
  | 'G' | 'U' => some (.text "root".toList)
  | 'h' => some (.natural (s.disk.namesOf s.place s.entry))
  | 'i' => some (.natural (serial s))
  | 'm' => some (.text ['/'])
  | 'n' => some (.text s.name.toList)
  | 'N' => some (.text (match s.entry with
    | .link target => quotedName s.name ++ " -> " ++ quotedName (Octets.ofText target.text)
    | _ => quotedName s.name).toList)
  | 'o' => some (.natural 4096)
  | 's' => some (.natural s.entry.size)
  | 't' => some (.inBase 16 (deviceNumbers s.entry).1)
  | 'T' => some (.inBase 16 (deviceNumbers s.entry).2)
  | 'r' => some (.natural ((deviceNumbers s.entry).1 * 256 + (deviceNumbers s.entry).2))
  | 'R' => some (.inBase 16 ((deviceNumbers s.entry).1 * 256 + (deviceNumbers s.entry).2))
  | 'w' | 'x' | 'y' | 'z' => some (.text (Calendar.write (moment s) timeForm))
  | 'W' | 'X' | 'Y' | 'Z' => some (.time (moment s))
  | _ => none

/-- Flags, a width and a precision of a directive. -/
structure Layout where
  flags : List Char := []
  width : Nat := 0
  precision : Option Nat := none
  dotted : Bool := false

def Layout.fit (l : Layout) (zeros : Bool) (text : List Char) : List Char :=
  let missing := l.width - text.length
  if l.flags.contains '-' then text ++ List.replicate missing ' '
  else if zeros && l.flags.contains '0' then List.replicate missing '0' ++ text
  else List.replicate missing ' ' ++ text

def Layout.natural (l : Layout) (text : List Char) : List Char :=
  let least := l.precision.getD 0
  l.fit l.precision.isNone (List.replicate (least - text.length) '0' ++ text)

/-- Seconds, with as many digits of a fraction as are asked for. -/
def Layout.seconds (l : Layout) (m : Moment) : List Char :=
  let whole := (toString m.seconds).toList
  if l.dotted then
    let nanos := (toString m.nanos).toList
    let nine := List.replicate (9 - nanos.length) '0' ++ nanos
    let n := l.precision.getD 9
    let part := nine.take n ++ List.replicate (n - 9) '0'
    l.fit true (if part.isEmpty then whole else whole ++ '.' :: part)
  else l.fit true whole

def Layout.write (l : Layout) : Fact → List Char
  | .text t => l.fit false (match l.precision with
    | some n => t.take n
    | none => if l.dotted then [] else t)
  | .natural n =>
    l.natural (toString n).toList
  | .inBase base n =>
    let text := digits base n
    let alternate := l.flags.contains '#' && n != 0
    l.natural (if !alternate then text
      else if base = 8 then '0' :: text else '0' :: 'x' :: text)
  | .time m => l.seconds m

/-- An escape behind a backslash, and the rest. -/
def unescape : List Char → List Char × List Char
  | 'x' :: rest =>
    let hex := (rest.take 2).takeWhile fun c => c.isDigit || ('a' ≤ c.toLower && c.toLower ≤ 'f')
    if hex.isEmpty then (['\\', 'x'], rest)
    else
      let n := hex.foldl (fun n c => n * 16 + if c.isDigit then c.toNat - 48
        else c.toLower.toNat - 87) 0
      ([Char.ofNat n], rest.drop hex.length)
  | c :: rest =>
    let octal := ((c :: rest).take 3).takeWhile fun c => '0' ≤ c && c ≤ '7'
    if !octal.isEmpty then
      ([Char.ofNat (octal.foldl (fun n c => n * 8 + (c.toNat - 48)) 0 % 256)],
        (c :: rest).drop octal.length)
    else
      let known := [('a', '\x07'), ('b', '\x08'), ('e', '\x1b'), ('f', '\x0c'), ('n', '\n'),
        ('r', '\r'), ('t', '\t'), ('v', '\x0b'), ('"', '"'), ('\\', '\\')]
      (match known.lookup c with
        | some d => [d]
        | none => ['\\', c], rest)
  | [] => (['\\'], [])

def directive (s : Subject) (rest : List Char) : List Char × List Char :=
  let flags := rest.takeWhile ("'-+ #0I".toList.contains ·)
  let more := rest.drop flags.length
  let width := more.takeWhile Char.isDigit
  let more := more.drop width.length
  let dotted := more.head? == some '.'
  let digits := if dotted then (more.drop 1).takeWhile Char.isDigit else []
  let more := if dotted then more.drop (digits.length + 1) else more
  let l : Layout := ⟨flags, (Chars.number? width).getD 0, Chars.number? digits, dotted⟩
  match more with
  | '%' :: after => (['%'], after)
  | 'H' :: 'd' :: after => (l.write (.natural 253), after)
  | 'L' :: 'd' :: after => (l.write (.natural 1), after)
  | 'H' :: 'r' :: after => (l.write (.natural (deviceNumbers s.entry).1), after)
  | 'L' :: 'r' :: after => (l.write (.natural (deviceNumbers s.entry).2), after)
  | c :: after => match fact? s c with
    | some f => (l.write f, after)
    | none => (['?'], after)
  | [] => (['%'], [])

def write (s : Subject) (escapes : Bool) : Nat → List Char → List Char
  | 0, _ => []
  | _ + 1, [] => []
  | fuel + 1, '%' :: rest =>
    let (text, more) := directive s rest
    text ++ write s escapes fuel more
  | fuel + 1, '\\' :: rest =>
    if escapes then
      let (text, more) := unescape rest
      text ++ write s escapes fuel more
    else '\\' :: write s escapes fuel rest
  | fuel + 1, c :: rest => c :: write s escapes fuel rest

def usualForm (isDevice : Bool) : String :=
  "  File: %N\n  Size: %-10s\tBlocks: %-10b IO Block: %-6o %F\n" ++
    "Device: %Hd,%Ld\tInode: %-10i  Links: %-5h" ++
    (if isDevice then " Device type: %Hr,%Lr" else "") ++ "\n" ++
    "Access: (%04a/%10.10A)  Uid: (%5u/%8U)   Gid: (%5g/%8G)\n" ++
    "Access: %x\nModify: %y\nChange: %z\n Birth: %w\n"

def shortForm : String := "%n %s %b %f %u %g %D %i %h %t %T %X %Y %Z %W %o\n"

end Facts

/-- What is told of the system that a file is kept on. -/
def systemFacts (name : String) (form : List Char) : List Char :=
  match form with
  | '%' :: 'n' :: rest => name.toList ++ systemFacts name rest
  | '%' :: '%' :: rest => '%' :: systemFacts name rest
  | '%' :: 'T' :: rest => "ext2/ext3".toList ++ systemFacts name rest
  | '%' :: c :: rest =>
    (if "sS".toList.contains c then "4096".toList else ['0']) ++ systemFacts name rest
  | c :: rest => c :: systemFacts name rest
  | [] => []

def tellFacts (p : Process) : Work Unit :=
  withOptions p ⟨"Lft", "c", [("dereference", 'L'), ("file-system", 'f'), ("format=", 'c'),
      ("printf=", 'P'), ("terse", 't'), ("cached=", 'C')], true, ""⟩ fun o =>
    forOperands p o fun name => do
      let d := (← get).disk
      let form? := (o.last? "cP").map fun (c, form) =>
        (c = 'P', if c = 'P' then form else form ++ "\n")
      match d.look (o.has 'L') (path name) with
      | .error fault =>
        let call := if o.has 'f' then "cannot read file system information for " else "cannot statx "
        complain p (call ++ quotedFile name ++ ": " ++ fault.reason)
      | .ok (place, entry) =>
        let s : Facts.Subject := ⟨name, place, entry, d⟩
        if o.has 'f' then
          print (systemFacts name ((form?.map Prod.snd).getD "  File: \"%n\"\n").toList)
        else
          let (escapes, form) := form?.getD (false,
            if o.has 't' then Facts.shortForm
            else (Facts.usualForm (entry matches .device _)))
          let form := if form?.isNone && !(entry.isLink) && !o.has 't' then
              "  File: %n" ++ String.ofList (form.toList.drop 10)
            else form
          print (Facts.write s escapes (form.length + 1) form.toList)

end LayerCache.Program
