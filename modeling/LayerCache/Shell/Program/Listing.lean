import LayerCache.Shell.Program.Facts
import LayerCache.Shell.Program.Order
import LayerCache.Shell.Program.Sizes
import LayerCache.Shell.Regex.Glob

/-! Names set in columns, so that as many as fit stand in one line. -/
namespace LayerCache.Program.Grid

/-- A text and the columns it takes. -/
abbrev Cell := List Char × Nat

/-- Columns that every text takes at the least, with the space behind it. -/
def leastWidth : Nat := 3

/-- The column that the text of an index stands in. -/
def columnOf (down : Bool) (count columns index : Nat) : Nat :=
  if down then index / ((count + columns - 1) / columns) else index % columns

/-- The widths of so many columns; all but the last leave two places free. -/
def widths (down : Bool) (cells : List Cell) (columns : Nat) : List Nat :=
  let count := cells.length
  cells.zipIdx.foldl (fun widths ((_, width), i) =>
    let c := columnOf down count columns i
    let needed := width + if c + 1 = columns then 0 else 2
    widths.modify c (max needed)) (List.replicate columns leastWidth)

/-- The most columns that fit into a line. -/
def columns (down : Bool) (cells : List Cell) (lineWidth : Nat) : Nat → Nat
  | 0 => 1
  | n + 1 =>
    if n = 0 || (widths down cells (n + 1)).foldl (· + ·) 0 < lineWidth then n + 1
    else columns down cells lineWidth n

/-- Blanks from one column to another, with tabs where they reach. -/
def indent (tab : Nat) : Nat → Nat → Nat → List Char
  | 0, _, _ => []
  | fuel + 1, start, stop =>
    if stop ≤ start then []
    else if tab != 0 && (start + 1) / tab < stop / tab then
      '\t' :: indent tab fuel (start + tab - start % tab) stop
    else ' ' :: indent tab fuel (start + 1) stop

/-- One line: texts with the widths of their columns. -/
def line (tab : Nat) : Nat → List (Cell × Nat) → List Char
  | _, [] => []
  | _, [((text, _), _)] => text
  | position, ((text, taken), width) :: rest =>
    text ++ indent tab width (position + taken) (position + width) ++
      line tab (position + width) rest

def write (down : Bool) (lineWidth tab : Nat) (cells : List Cell) : List (List Char) :=
  let count := cells.length
  let most := min count (max 1 ((lineWidth + leastWidth - 1) / leastWidth))
  let n := columns down cells lineWidth most
  let widths := widths down cells n
  let rows := (count + n - 1) / n
  (List.range rows).map fun row =>
    let indices := (List.range n).map fun c => if down then c * rows + row else row * n + c
    line tab 0 ((indices.filterMap fun i => cells[i]?).zip widths)

/-- Texts one behind the other, broken where a line is full. -/
def flow (separator : List Char) (lineWidth : Nat) (ending : Char) : Nat → List Cell → List Char
  | _, [] => []
  | _, [(text, _)] => text
  | position, (text, taken) :: rest =>
    let position := position + taken
    let next := (rest.head?).elim 0 Prod.snd
    let fits := lineWidth = 0 || position + next + 2 < lineWidth
    text ++ separator ++ (if fits then ' ' else ending) ::
      flow separator lineWidth ending (if fits then position + 2 else 0) rest

end LayerCache.Program.Grid

/-! Amounts written short, with a letter for a power of 1000 or 1024. -/
namespace LayerCache.Program.Magnitude

def letters : List Char := ['K', 'M', 'G', 'T', 'P', 'E', 'Z', 'Y', 'R', 'Q']

def above (n m : Nat) : Nat := (n + m - 1) / m

/-- An amount rounded up, with one place behind the point if it is below ten. -/
def write (base n : Nat) : List Char := go letters base
where
  go : List Char → Nat → List Char
    | [], _ => (toString n).toList
    | letter :: rest, unit =>
      if n < base then (toString n).toList
      else if unit * base ≤ n && !rest.isEmpty then go rest (unit * base)
      else
        let tenths := above (n * 10) unit
        let whole := above n unit
        let letter := if base = 1000 && letter = 'K' then 'k' else letter
        if tenths < 100 then
          (toString (tenths / 10)).toList ++ '.' :: (toString (tenths % 10)).toList ++ [letter]
        else if whole = base && !rest.isEmpty then ['1', '.', '0'] ++ rest.take 1
        else (toString whole).toList ++ [letter]

end LayerCache.Program.Magnitude

/-! Programs that list files and folders. -/
namespace LayerCache.Program

namespace Listing

inductive Form where
  | single
  | long
  | down
  | across
  | commas
  deriving DecidableEq, Repr

inductive Sorting where
  | name
  | none
  | time
  | size
  | ending
  | version
  | width
  deriving DecidableEq, Repr

/-- The kinds of entries that are marked behind their names. -/
inductive Marks where
  | none
  | folders
  | kinds
  | all
  deriving DecidableEq, Repr

inductive Names where
  | literal
  | shell
  | shellAlways
  | shellEscape
  | shellEscapeAlways
  | doubled
  | doubledIfNeeded
  | escape
  | plain
  deriving DecidableEq, Repr

inductive Following where
  | never
  | folders
  | named
  | always
  deriving DecidableEq, Repr

/-- How times are written: once for those of the last half year, once for others. -/
structure Clock where
  recent : String
  old : String

structure Style where
  form : Form
  sorting : Sorting
  reverses : Bool
  foldersFirst : Bool
  marks : Marks
  names : Names
  following : Following
  clock : Clock
  /-- Amounts are written as they are, in units, or short to a base. -/
  unit : Except Nat Nat
  blockUnit : Except Nat Nat
  lineWidth : Nat
  tab : Nat
  ending : Char

/-- An entry to be listed. One that could not be looked at has no place. -/
structure Item where
  name : String
  subject : Option Facts.Subject
  /-- What the entry is by itself, if it is reached through a link. -/
  isLink : Bool := false

def quote (names : Names) (colons : Bool) (text : String) : String :=
  let more := if colons then [':'] else []
  match names with
  | .literal => text
  | .shell => Quoting.bareShell false colons text
  | .shellAlways => Quoting.bareShell true colons text
  | .shellEscape => Quoting.shell false colons text
  | .shellEscapeAlways => Quoting.shell true colons text
  | .doubled => Quoting.doubled more text
  | .doubledIfNeeded =>
    if text.toList.any fun c => c = '"' || c = '\\' || !Quoting.isPrintable c || more.contains c
    then Quoting.doubled more text else text
  | .escape => Quoting.escaped (' ' :: more) text
  | .plain => Quoting.plain text

def Style.quoted (s : Style) (hides : Bool) (name : String) : List Char :=
  (quote s.names false name).toList.map fun c =>
    if hides && !Quoting.isPrintable c then '?' else c

/-- The mark behind the name of an entry. -/
def mark (marks : Marks) (subject : Facts.Subject) : List Char :=
  match marks, Facts.letter subject with
  | .none, _ => []
  | _, 'd' => ['/']
  | .folders, _ => []
  | _, 'l' => ['@']
  | _, 'p' => ['|']
  | .all, '-' => if Facts.mode subject &&& 0o111 != 0 then ['*'] else []
  | _, _ => []

def endingOf (name : String) : List Char :=
  let cs := name.toList
  if cs.contains '.' then '.' :: (cs.reverse.takeWhile (· != '.')).reverse else []

/-- Whether an item stands before another, by what it is sorted by, and then by its name. -/
def before (s : Style) (a b : Item) : Ordering :=
  let names := compare a.name b.name
  let number (item : Item) (f : Facts.Subject → Nat) : Nat := item.subject.elim 0 f
  let age (item : Item) : List Int := item.subject.elim [] fun f =>
    [f.disk.timeOf f.place, (Facts.moment f).nanos]
  match s.sorting with
  | .none => .eq
  | .name => names
  | .time => (compareOfLessAndEq (age b) (age a)).then names
  | .size => (compare (number b (·.entry.size)) (number a (·.entry.size))).then names
  | .ending => (compareOfLessAndEq (endingOf a.name) (endingOf b.name)).then names
  | .version => (Version.order a.name.toList b.name.toList).then names
  | .width => (compare (s.quoted false a.name).length (s.quoted false b.name).length).then names

def isFolder (item : Item) : Bool := item.subject.any (·.entry.isFolder)

/-- Whether an item is a folder or a link to one. -/
def leadsToFolder (item : Item) : Bool :=
  item.subject.any fun f => f.entry.isFolder || match f.entry with
    | .link target => f.disk.isFolder (if target.isAbsolute then target
        else (⟨"/" ++ Text.join "/" f.place.dropLast⟩ : Path).join target)
    | _ => false

def sort (s : Style) (items : List Item) : List Item :=
  let inOrder (a b : Item) : Bool :=
    if s.reverses then before s b a != .gt else before s a b != .gt
  let items := if s.sorting = .none then items else items.mergeSort inOrder
  if s.foldersFirst && s.sorting != .none then
    items.filter leadsToFolder ++ items.filter (!leadsToFolder ·)
  else items

def amount (unit : Except Nat Nat) (n : Nat) : List Char :=
  match unit with
  | .ok unit => (toString (Magnitude.above n unit)).toList
  | .error base => Magnitude.write base n

def halfYear : Int := 31556952 / 2

def timeText (s : Style) (f : Facts.Subject) : List Char :=
  let m := Facts.moment f
  let isRecent := f.disk.clock - halfYear < m.seconds && m.seconds ≤ f.disk.clock
  Calendar.write m (if isRecent then s.clock.recent else s.clock.old)

/-- The columns in front of a name in a long listing, each with whether it is set to the right. -/
def columns (s : Style) (o : Options) (f : Facts.Subject) : List (Bool × List Char) :=
  let owner := if o.has 'n' then ['0'] else "root".toList
  let numbers := Facts.deviceNumbers f.entry
  let size := match f.entry with
    | .device _ => (toString numbers.1 ++ ", " ++ toString numbers.2).toList
    | entry => amount s.unit entry.size
  [(false, Facts.letters f), (true, (toString (f.disk.namesOf f.place f.entry)).toList)] ++
    (if o.has 'g' then [] else [(o.has 'n', owner)]) ++
    (if o.hasAny "oG" then [] else [(o.has 'n', owner)]) ++
    (if o.has 'j' then [(false, owner)] else []) ++
    (if o.has 'Z' then [(false, ['?'])] else []) ++
    [(true, size), (false, timeText s f)]

/-- What takes the place of the columns of an entry that could not be looked at. -/
def unknownColumns (columns : List (Bool × List Char)) : List (Bool × List Char) :=
  match columns with
  | (_, first) :: rest =>
    (false, 'l' :: List.replicate (first.length - 1) '?') :: rest.zipIdx.map fun (_, i) =>
      (i + 1 = rest.length || i + 2 = rest.length || i = 0, ['?'])
  | [] => []

/-- Sets columns under each other. -/
def align (rows : List (List (Bool × List Char))) : List (List Char) :=
  let count := (rows.head?).elim 0 List.length
  let widths := (List.range count).map fun c =>
    rows.foldl (fun n row => max n (((row[c]?).map Prod.snd).getD []).length) 0
  rows.map fun row => (row.zip widths).flatMap fun ((right, text), width) =>
    let padding := List.replicate (width - text.length) ' '
    (if right then padding ++ text else text ++ padding) ++ [' ']

def padLeft (width : Nat) (text : List Char) : List Char :=
  List.replicate (width - text.length) ' ' ++ text

/-- The number and the size that may stand in front of every name. -/
def fronts (s : Style) (o : Options) (items : List Item) : List (List Char) :=
  let column (on : Bool) (text : Facts.Subject → List Char) : List (List Char) :=
    if !on then items.map fun _ => []
    else
      let texts := items.map fun item => item.subject.elim ['?'] text
      let width := if s.form = .commas then 0 else texts.foldl (fun n t => max n t.length) 0
      texts.map fun t => padLeft width t ++ [' ']
  List.zipWith (· ++ ·) (column (o.has 'i') fun f => (toString (Facts.serial f)).toList)
    (column (o.has 's') fun f => amount s.blockUnit (f.entry.blocks * 512))

/-- The way of a link, with the mark of what it leads to. -/
def way (s : Style) (f : Facts.Subject) : List Char :=
  match f.entry with
  | .link target =>
    let start : Path := ⟨"/" ++ Text.join "/" f.place.dropLast⟩
    let there := f.disk.stat (if target.isAbsolute then target else start.join target)
    let ending := match there with
      | .ok (place, entry) => mark s.marks { f with place, entry }
      | .error _ => []
    " -> ".toList ++ s.quoted false (Octets.ofText target.text) ++ ending
  | _ => []

/-- All names of a listing, set in its form. Columns are as wide as other items need them too. -/
def write (s : Style) (o : Options) (items : List Item) (others : List Item := []) : List Char :=
  let hides := o.last? "q@" matches some ('q', _)
  let isShell := s.names = .shell || s.names = .shellEscape || s.names = .doubledIfNeeded
  let quotes (item : Item) := s.names != .literal && quote s.names false item.name != item.name
  let aligns := isShell && items.any quotes &&
    (s.form = .long || ((s.form = .down || s.form = .across) && s.lineWidth != 0))
  let names := items.map fun item =>
    (if aligns && !quotes item then [' '] else []) ++ s.quoted hides item.name
  let fronts := fronts s o items
  let marked := (items.zip names).map fun (item, name) =>
    name ++ item.subject.elim (if item.isLink && s.marks != .none && s.marks != .folders then ['@']
      else []) (mark s.marks)
  let lines := List.zipWith (· ++ ·) fronts marked
  let cells := lines.map fun text => (text, text.length)
  match s.form with
  | .single => lines.flatMap (· ++ [s.ending])
  | .commas =>
    if cells.isEmpty then [] else Grid.flow [','] s.lineWidth s.ending 0 cells ++ [s.ending]
  | .down | .across =>
    if cells.isEmpty then []
    else if s.lineWidth = 0 then Grid.flow [' '] 0 s.ending 0 cells ++ [s.ending]
    else (Grid.write (s.form = .down) s.lineWidth s.tab cells).flatMap (· ++ [s.ending])
  | .long =>
    let known := items.map fun item => item.subject.map (columns s o)
    let model := (known.filterMap id).head?.getD
      [(false, "----------".toList), (true, []), (false, []), (false, []), (true, []), (false, [])]
    let more := others.filterMap fun item => item.subject.map (columns s o)
    let rows := align (known.map (·.getD (unknownColumns model)) ++ more)
    let tails := (items.zip names).map fun (item, name) => match item.subject with
      | some f => match f.entry with
        | .link _ => name ++ way s f
        | _ => name ++ mark s.marks f
      | none => name
    (List.zipWith (· ++ ·) (List.zipWith (· ++ ·) fronts rows) tails).flatMap (· ++ [s.ending])

/-- Looks at an entry for a listing. -/
def item (p : Process) (s : Style) (named : Bool) (folder? : Option String) (name : String) :
    Work (Option Item) := do
  let d := (← get).disk
  let whole := match folder? with
    | none | some "." => name
    | some folder => within folder name
  let plain := d.look false (path whole)
  let isLink := plain matches .ok (_, .link _)
  let subject (found : Place × Entry) : Facts.Subject := ⟨name, found.1, found.2, d⟩
  let trouble (fault : Fault) (status : Nat) : Work Unit := do
    let worst := match (← get).ending with
      | .code n => max n status
      | _ => status
    complain p ("cannot access " ++ quotedFile whole ++ ": " ++ fault.reason) worst
  let follows := s.following = .always || (named && s.following = .named)
  match d.look true (path whole), plain with
  | .ok found, .ok bare =>
    if follows || (named && s.following = .folders && found.2.isFolder) then
      return some ⟨name, some (subject found), isLink⟩
    else return some ⟨name, some (subject bare), isLink⟩
  | .error fault, .ok bare =>
    if follows && (s.following = .always || named) then
      trouble fault (if named then 2 else 1)
      return if named then none else some ⟨name, none, isLink⟩
    else return some ⟨name, some (subject bare), isLink⟩
  | _, .error fault => do
    trouble fault 2
    return none

/-- The names in a folder that options let through. -/
def chosen (o : Options) (names : List String) : List String :=
  let matching (patterns : List String) (name : String) : Bool :=
    patterns.any fun pattern => Glob.fits (Glob.ofText pattern) false name.toList
  let shows := o.last? "aAf"
  let dots := if shows matches some ('A', _) | none then [] else [".", ".."]
  (dots ++ names).filter fun name =>
    let kept := if shows.isNone then
        !Text.startsWith name "." && !matching (o.values 'e') name
      else true
    kept && !matching (o.values 'I') name && !(o.has 'B' && Text.endsWith name "~")

def headed (s : Style) (name : String) : List Char :=
  (quote s.names true name).toList ++ [':', '\n']

def list (p : Process) (s : Style) (o : Options) (titled : Bool) :
    Nat → Bool → List String → Work Unit
  | 0, _, _ => pure ()
  | _ + 1, _, [] => pure ()
  | fuel + 1, isFirst, folder :: rest => do
    let d := (← get).disk
    match d.stat (path folder) with
    | .ok (place, .folder) =>
      if titled || o.has 'R' then
        print ((if isFirst then [] else ['\n']) ++ headed s folder)
      let items ← (chosen o (childrenOf d place)).filterMapM (item p s false (some folder))
      let items := sort s items
      if s.form = .long || o.has 's' then
        let total := items.foldl (fun n item => n + item.subject.elim 0 (·.entry.blocks)) 0
        print ("total ".toList ++ amount s.blockUnit (total * 512) ++ [s.ending])
      print (write s o items)
      let inner := if o.has 'R' then
          items.filterMap fun item =>
            if isFolder item && !isDots item.name then some (within folder item.name) else none
        else []
      list p s o titled fuel false (inner ++ rest)
    | _ => list p s o titled fuel isFirst rest

def mostFolders : Nat := 10000

def run (p : Process) (s : Style) (o : Options) : Work Unit := do
  let operands := if o.operands.isEmpty then ["."] else o.operands
  let items := sort s (← operands.filterMapM (item p s true none))
  let (folders, files) := if o.has 'd' then ([], items) else items.partition isFolder
  print (write s o files folders)
  if !files.isEmpty && !folders.isEmpty then print ['\n']
  let titled := !(files.isEmpty && operands.length ≤ 1)
  list p s o titled mostFolders true (folders.map Item.name)

def sortWords : List (List String × Sorting) :=
  [(["none"], .none), (["time"], .time), (["size"], .size), (["extension"], .ending),
    (["version"], .version), (["width"], .width)]

def formWords : List (List String × Form) :=
  [(["verbose", "long"], .long), (["commas"], .commas), (["horizontal", "across"], .across),
    (["vertical"], .down), (["single-column"], .single)]

def markWords : List (List String × Marks) :=
  [(["none"], .none), (["slash"], .folders), (["file-type"], .kinds), (["classify"], .all)]

def nameWords : List (List String × Names) :=
  [(["literal"], .literal), (["shell"], .shell), (["shell-always"], .shellAlways),
    (["shell-escape"], .shellEscape), (["shell-escape-always"], .shellEscapeAlways),
    (["c"], .doubled), (["c-maybe"], .doubledIfNeeded), (["escape"], .escape),
    (["locale"], .plain), (["clocale"], .doubled)]

def whenWords : List (List String × Bool) :=
  [(["always", "yes", "force"], true), (["never", "no", "none"], false),
    (["auto", "tty", "if-tty"], false)]

def timeKinds : List (List String × Unit) :=
  [(["atime", "access", "use"], ()), (["ctime", "status"], ()), (["mtime", "modification"], ()),
    (["birth", "creation"], ())]

/-- The clock that a word stands for. -/
def clock? (word : String) : Option Clock :=
  let bare := (Text.afterStart? "posix-" word)
  if bare.isSome then some ⟨"%b %e %H:%M", "%b %e  %Y"⟩
  else match word.toList with
    | '+' :: form =>
      let recent := form.dropWhile (· != '\n')
      let old := form.takeWhile (· != '\n')
      some ⟨String.ofList (if recent.isEmpty then old else recent.drop 1), String.ofList old⟩
    | _ =>
      if word = "" then none
      else choose? [(["full-iso"], ⟨"%Y-%m-%d %H:%M:%S.%N %z", "%Y-%m-%d %H:%M:%S.%N %z"⟩),
        (["long-iso"], ⟨"%Y-%m-%d %H:%M", "%Y-%m-%d %H:%M"⟩),
        (["iso"], ⟨"%m-%d %H:%M", "%Y-%m-%d "⟩),
        (["locale"], ⟨"%b %e %H:%M", "%b %e  %Y"⟩)] word

/-- What a block size is written in: units, or short to a base. -/
def unit? (text : String) : Option (Except Nat Nat) :=
  if text = "human-readable" then some (.error 1024)
  else if text = "si" then some (.error 1000)
  else match Sizes.ofText "KMGTPEZYRQkmg" text with
    | .ok n => if n = 0 then none else some (.ok n)
    | .error _ => none

def usage : Usage where
  bare := "aAbBcCdDfFgGhHiklLmnNopqQrRsStuUvxXZ1"
  valued := "ITw"
  long := [("all", 'a'), ("almost-all", 'A'), ("author", 'j'), ("escape", 'b'),
    ("block-size=", 'y'), ("ignore-backups", 'B'), ("color?", 'z'), ("directory", 'd'),
    ("dired", 'D'), ("classify?", '5'), ("file-type", '6'), ("format=", '7'),
    ("full-time", '8'), ("group-directories-first", '9'), ("no-group", 'G'),
    ("human-readable", 'h'), ("si", '4'), ("dereference-command-line", 'H'),
    ("dereference-command-line-symlink-to-dir", '3'), ("hide=", 'e'), ("hyperlink?", '2'),
    ("indicator-style=", '0'), ("inode", 'i'), ("ignore=", 'I'), ("kibibytes", 'k'),
    ("dereference", 'L'), ("numeric-uid-gid", 'n'), ("literal", 'N'),
    ("hide-control-chars", 'q'), ("show-control-chars", '@'), ("quote-name", 'Q'),
    ("quoting-style=", 'E'), ("reverse", 'r'), ("recursive", 'R'), ("size", 's'),
    ("sort=", 'J'), ("time=", 'K'), ("time-style=", 'M'), ("tabsize=", 'T'),
    ("width=", 'w'), ("context", 'Z'), ("zero", 'O')]

/-- The style that options ask for, starting from one. -/
def adjust (p : Process) : List (Char × String) → Style → (Style → Work Unit) → Work Unit
  | [], s, work => work s
  | (c, value) :: rest, s, work =>
    let go (s : Style) : Work Unit := adjust p rest s work
    let number (what : String) (set : Nat → Style) : Work Unit :=
      match Sizes.ofText "" value with
      | .ok n => go (set n)
      | .error _ => complain p ("invalid " ++ what ++ ": " ++ quoted value) 2
    match c with
    | '1' => go (if s.form = .long then s else { s with form := .single })
    | 'l' | 'g' | 'o' | 'n' => go { s with form := .long }
    | 'C' => go { s with form := .down }
    | 'x' => go { s with form := .across }
    | 'm' => go { s with form := .commas }
    | '7' => withChoice p "format" value formWords (fun form => go { s with form }) 2
    | '8' => go { s with form := .long, clock := (clock? "full-iso").getD s.clock }
    | 'f' => go { s with sorting := .none, form := if s.form = .long then .single else s.form }
    | 'S' => go { s with sorting := .size }
    | 't' => go { s with sorting := .time }
    | 'U' => go { s with sorting := .none }
    | 'v' => go { s with sorting := .version }
    | 'X' => go { s with sorting := .ending }
    | 'J' => withChoice p "sort" value sortWords (fun sorting => go { s with sorting }) 2
    | 'r' => go { s with reverses := true }
    | '9' => go { s with foldersFirst := true }
    | 'F' => go { s with marks := .all }
    | '5' =>
      if value = "" then go { s with marks := .all }
      else withChoice p "classify" value whenWords
        (fun on => go (if on then { s with marks := .all } else s)) 2
    | 'p' => go { s with marks := .folders }
    | '6' => go { s with marks := .kinds }
    | '0' => withChoice p "indicator-style" value markWords (fun marks => go { s with marks }) 2
    | 'b' => go { s with names := .escape }
    | 'N' => go { s with names := .literal }
    | 'Q' => go { s with names := .doubled }
    | 'E' => withChoice p "quoting-style" value nameWords (fun names => go { s with names }) 2
    | 'L' => go { s with following := .always }
    | 'H' => go { s with following := .named }
    | '3' => go { s with following := .folders }
    | 'h' => go { s with unit := .error 1024, blockUnit := .error 1024 }
    | '4' => go { s with unit := .error 1000, blockUnit := .error 1000 }
    | 'k' => go { s with blockUnit := .ok 1024 }
    | 'y' => match unit? value with
      | some unit => go { s with unit, blockUnit := unit }
      | none => complain p ("invalid --block-size argument " ++ quoted value) 2
    | 'w' => number "line width" fun n => { s with lineWidth := n }
    | 'T' => number "tab size" fun n => { s with tab := n }
    | 'z' =>
      if value = "" then go s else withChoice p "color" value whenWords (fun _ => go s) 2
    | '2' =>
      if value = "" then go s else withChoice p "hyperlink" value whenWords (fun _ => go s) 2
    | 'K' => withChoice p "time" value timeKinds (fun _ => go s) 2
    | 'M' => match clock? value with
      | some clock => go { s with clock }
      | none => askForHelp p ("invalid argument " ++ quoted value ++ " for 'time style'\n" ++
          "Valid arguments are:\n  - [posix-]full-iso\n  - [posix-]long-iso\n  - [posix-]iso\n" ++
          "  - [posix-]locale\n  - +FORMAT (e.g., +%H:%M) for a 'date'-style format") 2
    | 'O' => go { s with
        ending := Char.ofNat 0, names := .literal
        form := if s.form = .long then .long else .single }
    | _ => go s

def plainStyle (form : Form) (names : Names) (lineWidth : Nat) : Style where
  form
  sorting := .name
  reverses := false
  foldersFirst := false
  marks := .none
  names
  following := .folders
  clock := ⟨"%b %e %H:%M", "%b %e  %Y"⟩
  unit := .ok 1
  blockUnit := .ok 1024
  lineWidth
  tab := 8
  ending := '\n'

end Listing

/-- Lists files in the form that is usual for a name of the program. -/
def list (p : Process) (form : Listing.Form) (names : Listing.Names) : Work Unit :=
  withOptions p Listing.usage (fun o =>
    let told := (p.bindings.find? "COLUMNS").bind Text.number?
    let start := Listing.plainStyle form names (told.getD 80)
    Listing.adjust p o.given start fun s =>
      let byItself := o.has 'd' || s.marks = .all || s.form = .long
      let following := if o.hasAny "LH3" then s.following
        else if byItself then .never else .folders
      let sorting := if o.hasAny "StUvXfJ" then s.sorting
        else if o.hasAny "cuK" && s.form != .long then .time else s.sorting
      Listing.run p { s with following, sorting } o) 2

end LayerCache.Program
