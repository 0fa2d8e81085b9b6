import LayerCache.Shell.Program.Difference
import LayerCache.Shell.Program.Files
import LayerCache.Shell.Program.Match
import LayerCache.Shell.Program.Times
import LayerCache.Shell.Regex.Glob
import LayerCache.Shell.Revision.Forms

/-! What changed between two files or two folders. -/
namespace LayerCache.Program

namespace Revise

open Revision

inductive Form where
  | plain
  | unified
  | context
  | edit
  | forward
  | counts
  | columns
  deriving DecidableEq, Repr

structure Plan where
  form : Form
  context : Nat
  leniency : Leniency
  lineForm : LineForm
  columns : Columns
  /-- Only whether files differ is told. -/
  brief : Bool
  /-- Files that are the same are told of. -/
  tellsSame : Bool
  recursive : Bool
  /-- Missing files count as empty ones: in either folder, or in the first. -/
  anyMissing : Bool
  firstMissing : Bool
  /-- Every file is taken for a text. -/
  allText : Bool
  labels : List String
  excluded : List Regex
  /-- Lines that do not count by themselves. -/
  isTrivial : Option (List Char → Bool)
  isHeading : List Char → Bool
  /-- The name and the options of the program, as they were given. -/
  command : String

/-- One of two things compared. -/
structure Item where
  name : String
  label : String
  /-- What it is; a missing file may count as an empty one. -/
  found : Option (Place × Entry)
  text : List Char := []

def Item.isFolder (i : Item) : Bool := i.found.any fun (_, entry) => entry.isFolder

/-- A name as headings show it: in quotes if it could be mistaken. -/
def headingName (name : String) : String :=
  if name.toList.all fun c => Quoting.isPrintable c && !" \"\\".toList.contains c then name
  else Quoting.doubled [] name

/-- The name and time of a file in front of its changes. -/
def headingLine (d : Disk) (plan : Plan) (mark : String) (i : Item) (label : Option String) :
    List Char :=
  match label with
  | some label => (mark ++ " " ++ label ++ "\n").toList
  | none =>
    let moment : Moment := match i.found with
      | some (place, _) => momentOf d place
      | none => if inputNames.contains i.name then now d else ⟨0, 0⟩
    let form := if plan.form = .context then "%a %b %e %T %Y" else "%Y-%m-%d %H:%M:%S.%N %z"
    (mark ++ " " ++ headingName i.name ++ "\t").toList ++ Calendar.write moment form ++ ['\n']

/-- The changes between two texts. Those of trivial lines only count beside others. -/
def Plan.changes (plan : Plan) (left right : List (List Char)) : List Change :=
  let texts : Texts := ⟨left.toArray, right.toArray⟩
  (Revision.changes plan.leniency plan.context left right).map fun c =>
    { c with ignored := plan.isTrivial.any fun isTrivial =>
        (texts.gone c).all isTrivial && (texts.come c).all isTrivial }

/-- The changes in the form asked for. -/
def Plan.render (plan : Plan) (texts : Texts) (changes : List Change) : List Char :=
  let counted := changes.filter (!·.ignored)
  let hunks := ((grouped plan.context changes).filter fun group => group.any (!·.ignored)).filterMap
    (Hunk.ofChanges plan.context texts)
  match plan.form with
  | .plain => plainForm plan.lineForm texts counted
  | .unified => unifiedForm plan.lineForm plan.isHeading texts hunks
  | .context => contextForm plan.lineForm plan.isHeading texts hunks
  | .edit => editForm texts counted
  | .forward => forwardForm texts counted
  | .counts => countForm texts counted
  | .columns => plan.columns.form texts 0 0 counted

def isBinary (text : List Char) : Bool := text.contains (Char.ofNat 0)

/-- Compares two texts; `nested` tells that they were found in folders. -/
def compareTexts (plan : Plan) (nested : Bool) (a b : Item) : Work Nat := do
  let d := (← get).disk
  let told (start ending : String) : Work Unit :=
    printLine (start ++ "iles " ++ a.label ++ " and " ++ b.label ++ ending).toList
  let left := plan.leniency.prepared a.text
  let right := plan.leniency.prepared b.text
  if !plan.allText && (isBinary a.text || isBinary b.text) then
    if a.text = b.text then return 0
    told (if plan.brief then "F" else "Binary f") " differ"
    return 1
  let (left, right) := (Chars.wholeLines left, Chars.wholeLines right)
  let texts : Texts := ⟨left.toArray, right.toArray⟩
  let changes := plan.changes left right
  let differ := changes.any (!·.ignored)
  if plan.brief then
    if differ then told "F" " differ"
    return if differ then 1 else 0
  let shows := differ || plan.form = .columns && !plan.columns.hidesCommon
  if shows then
    if nested then
      printLine (plan.command ++ " " ++ Quoting.shell false false a.label ++ " " ++
        Quoting.shell false false b.label).toList
    if plan.form = .unified || plan.form = .context then
      let (first, second) := if plan.form = .context then ("***", "---") else ("---", "+++")
      print (headingLine d plan first a plan.labels[0]?)
      print (headingLine d plan second b plan.labels[1]?)
    print (plan.render texts changes)
  return if differ then 1 else 0

/-- Finds one of two things; it may be missing if that counts as empty. -/
def find (p : Process) (mayMiss : Bool) (label : Option String) (name other : String) :
    Work (Option Item) := do
  let label := label.getD name
  if name = "-" then match ← readFile name with
    | .ok text => return some ⟨name, label, none, text⟩
    | .error .isFolder =>
      let inside := name ++ "/" ++ ((Text.split '/' other).getLast?).getD other
      complain p (inside ++ ": " ++ Fault.notFound.reason) 2
      return none
    | .error fault =>
      complain p (name ++ ": " ++ fault.reason) 2
      return none
  match (← get).disk.stat (path name) with
  | .ok (place, entry) =>
    if entry.isFolder then return some ⟨name, label, some (place, entry), []⟩
    match ← readFile name with
    | .ok text => return some ⟨name, label, some (place, entry), text⟩
    | .error fault =>
      complain p (name ++ ": " ++ fault.reason) 2
      return none
  | .error fault =>
    if mayMiss && fault = .notFound then return some ⟨name, label, none, []⟩
    complain p (name ++ ": " ++ fault.reason) 2
    return none

/-- The names in either of two folders, in order, but for those left out. -/
def Plan.names (plan : Plan) (d : Disk) (a b : Item) : List (String × Bool × Bool) :=
  let inside (i : Item) : List String := match i.found with
    | some (place, _) => (childrenOf d place).filter fun name =>
        !plan.excluded.any fun r => Glob.fits r false name.toList
    | none => []
  let (lefts, rights) := (inside a, inside b)
  ((lefts ++ rights.filter (!lefts.contains ·)).mergeSort fun x y => x ≤ y).map
    fun name => (name, lefts.contains name, rights.contains name)

def kindName (d : Disk) (i : Item) : String := match i.found with
  | some (place, entry) => kindOf d place entry
  | none => "regular empty file"

/-- Compares two things; a folder's names are compared one after another. -/
def compare (p : Process) (plan : Plan) : Nat → Bool → Item → Item → Work Nat
  | 0, _, _, _ => return 0
  | fuel + 1, nested, a, b => do
    let d := (← get).disk
    let same := match a.found, b.found with
      | some (left, _), some (right, _) => d.areSame left right
      | none, none => a.name = b.name
      | _, _ => false
    if a.isFolder && b.isFolder || (a.isFolder || b.isFolder) && nested &&
        (a.found.isNone || b.found.isNone) then
      if same then return 0
      if nested && !plan.recursive then
        printLine ("Common subdirectories: " ++ a.label ++ " and " ++ b.label).toList
        return 0
      let statuses ← (plan.names d a b).mapM fun (name, left, right) => do
        let (first, second) := (within a.name name, within b.name name)
        if (left && right) || plan.anyMissing || (right && plan.firstMissing) then
          let one ← find p (!left) plan.labels[0]? first second
          let other ← find p (!right) plan.labels[1]? second first
          match one, other with
          | some one, some other => compare p plan fuel true one other
          | _, _ => return 2
        else
          printLine ("Only in " ++ (if left then a.name else b.name) ++ ": " ++ name).toList
          return 1
      return statuses.foldl max 0
    else if a.isFolder || b.isFolder then
      printLine ("File " ++ a.label ++ " is a " ++ kindName d a ++ " while file " ++ b.label ++
        " is a " ++ kindName d b).toList
      return 1
    else
      let status ← if same && (plan.form != .columns || plan.columns.hidesCommon) then pure 0
        else compareTexts plan nested a b
      if status = 0 && plan.tellsSame then
        printLine ("Files " ++ a.label ++ " and " ++ b.label ++ " are identical").toList
      return status

/-- Compares what two operands name. Beside a folder, a file is compared with the one of its name
in there. -/
def compareNamed (p : Process) (plan : Plan) (first second : String) : Work Nat := do
  let d := (← get).disk
  let isFolder (name : String) : Bool := name != "-" && d.stat (path name) matches .ok (_, .folder)
  let exists? (name : String) : Bool := name = "-" || d.stat (path name) matches .ok _
  let (left, right) := (isFolder first, isFolder second)
  let (first', second') :=
    if left && !right && exists? second then (within first (bareEnd second), second)
    else if right && !left && exists? first then (first, within second (bareEnd first))
    else (first, second)
  if (left && second = "-") || (right && first = "-") then
    complain p "cannot compare '-' to a directory" 2
    return 2
  let mayMiss (own other : String) (also : Bool) : Bool :=
    (plan.anyMissing || also) && !exists? own && exists? other
  let one ← find p (mayMiss first' second' plan.firstMissing) plan.labels[0]? first' second'
  let other ← if first' = "-" && second' = "-" then pure one
    else find p (mayMiss second' first' false) plan.labels[1]? second' first'
  match one, other with
  | some one, some other => compare p plan (d.entries.pairs.length + 2) false one other
  | _, _ => return 2

def usage : Usage where
  bare := "0123456789abBcdeEfhHilnNpPqrsStTuvwyZ"
  valued := "CFILUWxX"
  long := [("brief", 'q'), ("context?", 'c'), ("ed", 'e'), ("exclude=", 'x'), ("expand-tabs", 't'),
    ("forward-ed", 'f'), ("from-file=", 'O'), ("ignore-all-space", 'w'),
    ("ignore-blank-lines", 'B'), ("ignore-case", 'i'), ("ignore-matching-lines=", 'I'),
    ("ignore-space-change", 'b'), ("ignore-tab-expansion", 'E'), ("ignore-trailing-space", 'Z'),
    ("initial-tab", 'T'), ("label=", 'L'), ("left-column", 'K'), ("minimal", 'd'),
    ("new-file", 'N'), ("normal", 'M'), ("rcs", 'n'), ("recursive", 'r'),
    ("report-identical-files", 's'), ("show-c-function", 'p'), ("show-function-line=", 'F'),
    ("side-by-side", 'y'), ("speed-large-files", 'H'), ("strip-trailing-cr", 'R'),
    ("suppress-blank-empty", 'V'), ("suppress-common-lines", 'Y'), ("text", 'a'),
    ("to-file=", 'o'), ("color?", 'k'), ("unified?", 'u'), ("unidirectional-new-file", 'P'),
    ("width=", 'W')]

/-- The forms that letters ask for; two of them exclude each other. -/
def forms : List (Char × Form) :=
  [('u', .unified), ('U', .unified), ('c', .context), ('C', .context), ('e', .edit),
    ('f', .forward), ('n', .counts), ('y', .columns), ('M', .plain)]

def formOf (o : Options) : Except String Form :=
  let asked := (o.given.filterMap fun (c, _) => forms.lookup c).eraseDups
  match asked with
  | [] => .ok (if o.has 'p' then .context else .plain)
  | [form] => .ok form
  | _ => .error "conflicting output style options"

/-- How many lines are shown around changes. -/
def contextOf (o : Options) (form : Form) : Except String Nat := do
  let given (letters : List Char) := o.given.filterMap fun (c, v) =>
    if letters.contains c && v != "" then some v else none
  let explicit ← (given ['u', 'U', 'c', 'C']).mapM fun text => match Text.number? text with
    | some n => .ok n
    | none => .error ("invalid context length '" ++ text ++ "'")
  let plain := o.given.any fun (c, v) => (c = 'u' || c = 'c') && v = ""
  let asked := explicit.foldl max (if plain || explicit.isEmpty then 3 else 0)
  let digits := o.given.filterMap fun (c, _) => if c.isDigit then some c else none
  if form != .unified && form != .context then return 0
  match Chars.number? digits with
  | some n => return if explicit.isEmpty then n else max n asked
  | none => return asked

/-- A pattern for lines of a file. -/
def finder (text : String) : Except String (List Char → Bool) :=
  match Regex.parse .grep text.toList with
  | .ok r => .ok fun line =>
    (Regex.find? ⟨(Chars.bare line).toArray, false⟩ r 0).isSome
  | .error flaw => .error (text ++ ": " ++ flaw.message)

def isCode (line : List Char) : Bool :=
  line.head?.any fun c => c.isAlpha || c = '$' || c = '_'

/-- Whether a line is empty, or but for blanks that do not count. -/
def isEmptyLine (l : Leniency) (line : List Char) : Bool :=
  if l.trailing || l.width || l.space then line.all Revision.isSpace else line = ['\n']

/-- The arguments in front of the operands, as they were given. -/
def givenOptions (p : Process) (o : Options) : List String :=
  p.args.filter fun a => !o.operands.contains a || a.toList.head? = some '-' && a != "-"

def planOf (p : Process) (o : Options) : Except String Plan := do
  let form ← formOf o
  let context ← contextOf o form
  let leniency : Leniency :=
    ⟨o.has 'i', o.has 'w', o.has 'b', o.has 'Z', o.has 'E', o.has 'R'⟩
  let ignored ← (o.values 'I').mapM finder
  let headings ← (o.values 'F').mapM finder
  let width ← match o.value? 'W' with
    | none => .ok 130
    | some text => match Text.number? text with
      | some (n + 1) => .ok (n + 1)
      | _ => .error ("invalid width '" ++ text ++ "'")
  let isEmpty (line : List Char) : Bool := o.has 'B' && isEmptyLine leniency line
  return { form, context, leniency
           lineForm := ⟨o.has 'T', o.has 't', o.has 'V'⟩
           columns := .ofWidth width (o.has 't') (o.has 'Y') (o.has 'K')
           brief := o.has 'q'
           tellsSame := o.has 's'
           recursive := o.has 'r'
           anyMissing := o.has 'N'
           firstMissing := o.has 'P'
           allText := o.has 'a'
           labels := o.values 'L'
           excluded := (o.values 'x').map Glob.ofText
           isTrivial := if o.has 'B' || !ignored.isEmpty then
             some fun line => isEmpty line || ignored.any (· line) else none
           isHeading := fun line => o.has 'p' && isCode line || headings.any (· line)
           command := Text.join " " (p.name :: (givenOptions p o).map (Quoting.shell false false)) }

end Revise

def revise (p : Process) : Work Unit :=
  match Revise.usage.split none p.args with
  | .error text => pointToHelp p text
  | .ok o => match Revise.planOf p o with
    | .error text => pointToHelp p text
    | .ok plan =>
      let all (pairs : List (String × String)) : Work Unit := do
        let statuses ← pairs.mapM fun (a, b) => Revise.compareNamed p plan a b
        finish (statuses.foldl max 0)
      match o.value? 'O', o.value? 'o', o.operands with
      | some first, _, names => all (names.map fun name => (first, name))
      | none, some second, names => all (names.map fun name => (name, second))
      | none, none, [a, b] => if 2 < plan.labels.length then
          complain p "too many file label options" 2 else all [(a, b)]
      | none, none, _ :: _ :: c :: _ => pointToHelp p ("extra operand '" ++ c ++ "'")
      | none, none, _ => pointToHelp p
          ("missing operand after '" ++ (p.args.getLast?).getD p.name ++ "'")

end LayerCache.Program
