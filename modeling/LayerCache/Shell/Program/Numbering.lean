import LayerCache.Shell.Program.Lines
import LayerCache.Shell.Program.Sizes

/-! Numbering lines. A text has pages of three sections, each with a style of its own; lines of
delimiters begin them. -/
namespace LayerCache.Program.Numbering

/-- Which lines of a section get a number. -/
inductive Style where
  | all
  | filled
  | none
  | matching (r : Regex)

inductive Section where
  | header
  | body
  | footer
  deriving DecidableEq, Repr

structure Layout where
  styleOf : Section → Style
  delimiter : List Char
  restarts : Bool
  start : Int
  step : Int
  /-- Of so many empty lines in a row the last one counts. -/
  emptyGroup : Nat
  width : Nat
  separator : List Char
  /-- What fills a number up on the left, or none where it stands on the left. -/
  filler : Option Char

structure Progress where
  here : Section := .body
  number : Int
  empties : Nat := 1
  output : List (List Char) := []
  overflow : Bool := false

/-- The section that a line begins. -/
def Layout.begins? (l : Layout) (line : List Char) : Option Section :=
  let d := l.delimiter
  if d.isEmpty then none
  else if line = d ++ d ++ d then some .header
  else if line = d ++ d then some .body
  else if line = d then some .footer
  else none

def Layout.shown (l : Layout) (n : Int) : List Char :=
  let sign := if n < 0 then ['-'] else []
  let digits := naturals n.natAbs
  match l.filler with
  | none => Chars.padRight l.width (sign ++ digits)
  | some '0' => sign ++ Chars.padLeft (l.width - sign.length) digits '0'
  | some c => Chars.padLeft l.width (sign ++ digits) c

def Progress.say (g : Progress) (line : List Char) : Progress :=
  { g with output := (line ++ ['\n']) :: g.output }

def Progress.unnumbered (l : Layout) (g : Progress) (line : List Char) : Progress :=
  g.say (List.replicate (l.width + l.separator.length) ' ' ++ line)

def Progress.numbered (l : Layout) (g : Progress) (line : List Char) : Progress :=
  if (Sizes.bound / 2 : Int) ≤ g.number then { g with overflow := true }
  else { g.say (l.shown g.number ++ l.separator ++ line) with number := g.number + l.step }

def Progress.add (l : Layout) (g : Progress) (line : List Char) : Progress :=
  if g.overflow then g
  else match l.begins? line with
    | some part => { g.say [] with
        here := part
        number := if l.restarts then l.start else g.number }
    | none => match l.styleOf g.here with
      | .none => g.unnumbered l line
      | .filled => if line.isEmpty then g.unnumbered l line else g.numbered l line
      | .matching r =>
        if (Regex.find? ⟨line.toArray, false⟩ r 0).isSome then g.numbered l line
        else g.unnumbered l line
      | .all =>
        if l.emptyGroup ≤ 1 then g.numbered l line
        else if !line.isEmpty || g.empties = l.emptyGroup then
          { g.numbered l line with empties := 1 }
        else { g.unnumbered l line with empties := g.empties + 1 }

def styleOf? (text : String) : Option (Except Regex.Flaw Style) :=
  match text.toList with
  | ['a'] => some (.ok .all)
  | ['t'] => some (.ok .filled)
  | ['n'] => some (.ok .none)
  | 'p' :: pattern => some ((Regex.parse .basic pattern).map .matching)
  | _ => none

def usage : Usage where
  bare := "p"
  valued := "bdfhilnsvw"
  long := [("header-numbering=", 'h'), ("body-numbering=", 'b'), ("footer-numbering=", 'f'),
    ("starting-line-number=", 'v'), ("line-increment=", 'i'), ("no-renumber", 'p'),
    ("join-blank-lines=", 'l'), ("number-separator=", 's'), ("number-width=", 'w'),
    ("number-format=", 'n'), ("section-delimiter=", 'd')]

/-- A number among the options, or what is wrong with it. -/
def number (o : Options) (c : Char) (what : String) (usual : Int) (least : Option Int := none) :
    Except String Int :=
  match o.value? c with
  | none => .ok usual
  | some text =>
    let wrong (reason : String) := "invalid " ++ what ++ ": " ++ quoted text ++ reason
    match Sizes.intOfText text with
    | .error flaw => .error (wrong flaw.reason)
    | .ok n => if least.any (n < ·) then .error (wrong ": Numerical result out of range") else .ok n

def layout (o : Options) : Except String Layout := do
  let start ← number o 'v' "starting line number" 1
  let step ← number o 'i' "line number increment" 1
  let group ← number o 'l' "line number of blank lines" 1 (some 0)
  let width ← number o 'w' "line number field width" 6 (some 1)
  let style (c : Char) (usual : String) : Except String Style :=
    match styleOf? ((o.value? c).getD usual) with
    | some (.ok s) => .ok s
    | some (.error flaw) => .error flaw.message
    | none => .ok .none
  let header ← style 'h' "n"
  let body ← style 'b' "t"
  let footer ← style 'f' "n"
  let delimiter := match (o.value? 'd').map String.toList with
    | none => ['\\', ':']
    | some [c] => [c, ':']
    | some cs => cs
  return {
    styleOf := fun | .header => header | .body => body | .footer => footer
    delimiter, start, step
    restarts := !o.has 'p'
    emptyGroup := group.toNat
    width := width.toNat
    separator := ((o.value? 's').getD "\t").toList
    filler := match o.value? 'n' with
      | some "ln" => none
      | some "rz" => some '0'
      | _ => some ' ' }

/-- Words among the options that mean nothing. -/
def badWords (o : Options) : List String :=
  let styles : List (Char × String) := [('h', "header"), ('b', "body"), ('f', "footer")]
  o.given.filterMap fun (c, text) =>
    match styles.lookup c with
    | some part => if (styleOf? text).isSome then none
      else some ("invalid " ++ part ++ " numbering style: " ++ quoted text)
    | none => if c = 'n' && !(["ln", "rn", "rz"].contains text) then
        some ("invalid line numbering format: " ++ quoted text) else none

end Numbering

def numberLines (p : Process) : Work Unit :=
  withOptions p Numbering.usage fun o => do
    match (Numbering.badWords o).reverse with
    | last :: before =>
      before.reverse.forM (complain p ·)
      askForHelp p last
    | [] => match Numbering.layout o with
      | .error flaw => complain p flaw
      | .ok l =>
        let number (text : List Char) : Numbering.Progress :=
          (Chars.bareLines text).foldl (Numbering.Progress.add l) { number := l.start }
        let text ← showJoined p o.operands (fun text => (number text).output.reverse.flatten)
          fun text => if text.isEmpty || text.getLast? = some '\n' then text else text ++ ['\n']
        if (number text).overflow then complain p "line number overflow"
        noteClosed p o.operands "-"

end LayerCache.Program
