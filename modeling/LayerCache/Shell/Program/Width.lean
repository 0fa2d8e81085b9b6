import LayerCache.Shell.Program.Lines
import LayerCache.Shell.Program.Sizes

/-! Programs that mind the columns of a screen: lines broken at a width, and tabs. -/
namespace LayerCache.Program

namespace Folding

structure Style where
  width : Nat
  bytes : Bool
  atBlanks : Bool

/-- The column behind a character. -/
def Style.after (s : Style) (column : Nat) (c : Char) : Nat :=
  if s.bytes then column + 1
  else if c = '\x08' then column - 1
  else if c = '\r' then 0
  else if c = '\t' then column + 8 - column % 8
  else column + 1

/-- Lines no wider than allowed. `line` is the one under way, its last character first. -/
def broken (s : Style) : Nat → List Char → Nat → List Char → List (List Char)
  | 0, line, _, rest => [line.reverse ++ rest]
  | _ + 1, line, _, [] => if line.isEmpty then [] else [line.reverse]
  | fuel + 1, line, column, c :: rest =>
    let next := s.after column c
    if next ≤ s.width || line.isEmpty then broken s fuel (c :: line) next rest
    else
      let tail := line.takeWhile fun c => c != ' ' && c != '\t'
      if s.atBlanks && tail.length < line.length then
        (line.drop tail.length).reverse ::
          broken s fuel tail (tail.reverse.foldl s.after 0) (c :: rest)
      else line.reverse :: broken s fuel [] 0 (c :: rest)

def usage : Usage where
  bare := "bs"
  valued := "w"
  loose := "0123456789"
  long := [("bytes", 'b'), ("spaces", 's'), ("width=", 'w')]

end Folding

def fold (p : Process) : Work Unit :=
  withOptions p Folding.usage fun o => do
    let given := match o.given.reverse.find? fun (c, _) => c = 'w' || c.isDigit with
      | some ('w', text) => text
      | some (c, text) => String.singleton c ++ text
      | none => "80"
    let wrong (reason : String) : Work Unit :=
      complain p ("invalid number of columns: " ++ quoted given ++ reason)
    match Sizes.ofText "" given with
    | .error flaw => wrong flaw.reason
    | .ok 0 => wrong ": Numerical result out of range"
    | .ok width => do
      let style : Folding.Style := ⟨width, o.has 'b', o.has 's'⟩
      eachFile p o.operands because fun _ text => (Chars.wholeLines text).forM fun line =>
        let body := Chars.bare line
        print (((Folding.broken style (3 * body.length + 3) [] 0 body).intersperse ['\n']).flatten ++
          if line.getLast? = some '\n' then ['\n'] else [])
      noteClosed p o.operands "-"

/-- Where tabs lead: to stops that are listed, and behind these to every multiple of a number, or to
places at a distance from the last stop. -/
structure TabStops where
  listed : List Nat := []
  multiples : Option Nat := none
  beyond : Option Nat := none

namespace TabStops

/-- The stop behind a column, if there is one. -/
def next? (t : TabStops) (column : Nat) : Option Nat :=
  let every (n : Nat) : Nat := column + (n - column % n)
  match t.listed, t.multiples, t.beyond with
  | [], none, none => some (every 8)
  | [], some n, _ | [], none, some n => some (every n)
  | [n], none, none => some (every n)
  | listed, multiples, beyond => match listed.find? (column < ·) with
    | some stop => some stop
    | none => match multiples, beyond with
      | some n, _ => some (every n)
      | none, some n => some (column + (n - (column - listed.getLastD 0) % n))
      | none, none => none

/-- Adds stops that are written in a text. -/
def read : Nat → TabStops → Option Char → List Char → Except String TabStops
  | 0, t, _, _ => .ok t
  | _ + 1, t, _, [] => .ok t
  | fuel + 1, t, mark, c :: rest =>
    if c = ',' || c = ' ' || c = '\t' then read fuel t mark rest
    else if c = '/' || c = '+' then
      if rest.head?.any Char.isDigit || mark.isNone then read fuel t (some c) rest
      else .error ("tab size contains invalid character(s): " ++ quoted (String.ofList (c :: rest)))
    else if c.isDigit then
      let digits := (c :: rest).takeWhile Char.isDigit
      let after := (c :: rest).drop digits.length
      let n := (Chars.number? digits).getD 0
      if Sizes.bound ≤ n then
        .error ("tab stop is too large " ++ quoted (String.ofList digits))
      else if after.head?.any fun c => c = '/' || c = '+' then
        .error (quoted (String.ofList (after.take 1)) ++ " specifier not at start of number: " ++
          quoted (String.ofList after))
      else match mark with
        | some m =>
          if t.multiples.isSome || t.beyond.isSome then
            .error (quoted (String.singleton m) ++ " specifier only allowed with the last value")
          else read fuel (if m = '/' then { t with multiples := if n = 0 then none else some n }
            else { t with beyond := if n = 0 then none else some n }) mark after
        | none => read fuel { t with listed := t.listed ++ [n] } none after
    else .error ("tab size contains invalid character(s): " ++ quoted (String.ofList (c :: rest)))

/-- What is wrong with the stops listed. -/
def flaw? (t : TabStops) : Option String :=
  if t.listed.contains 0 then some "tab size cannot be 0"
  else if (t.listed.zip t.listed.tail).any fun (a, b) => b ≤ a then
    some "tab sizes must be ascending"
  else none

/-- The stops that texts name one after the other. A mark in front of a number holds for the rest of
its text. -/
def ofTexts (texts : List String) : Except String TabStops := do
  let t ← texts.foldlM (fun t text => read (text.length + 1) t none text.toList) {}
  match t.flaw? with
  | some text => throw text
  | none => return t

end TabStops

namespace Tabs

/-- Output under way on a line; `converts` tells that tabs still count on it. -/
structure Draft where
  column : Nat := 0
  converts : Bool := true
  output : List (List Char) := []
  /-- Blanks that may become a tab, the last first. -/
  pending : List Char := []
  oneBefore : Bool := false
  afterBlank : Bool := true

def isBlank (c : Char) : Bool := c = ' ' || c = '\t'

def Draft.put (d : Draft) (cs : List Char) : Draft := { d with output := cs :: d.output }

/-- A line feed starts a line anew. -/
def Draft.endLine (d : Draft) (c : Char) : Draft :=
  if c = '\n' then { output := d.output } else d

/-- Takes a character with blanks in place of tabs. -/
def Draft.spread (t : TabStops) (whole : Bool) (d : Draft) (c : Char) : Draft :=
  if !d.converts then (d.put [c]).endLine c
  else
    let d := if c = '\t' then
        let stop := (t.next? d.column).getD (d.column + 1)
        { d.put (List.replicate (stop - d.column) ' ') with column := stop }
      else if c = '\x08' then { d.put [c] with column := d.column - 1 }
      else { d.put [c] with column := d.column + 1 }
    { d with converts := whole || isBlank c }.endLine c

/-- Puts out the blanks that wait. -/
def Draft.flush (d : Draft) : Draft :=
  match d.pending.reverse with
  | [] => d
  | first :: rest =>
    let first := if !rest.isEmpty && d.oneBefore then '\t' else first
    { d.put (first :: rest) with pending := [], oneBefore := false }

/-- Takes a character with tabs in place of blanks. -/
def Draft.gather (t : TabStops) (whole : Bool) (d : Draft) (c : Char) : Draft :=
  if !d.converts then (d.put [c]).endLine c
  else
    let finish (d : Draft) (c : Char) : Draft :=
      let blank := isBlank c
      ({ d.flush with afterBlank := blank, converts := d.converts && (whole || blank) }.put [c]).endLine c
    if isBlank c then match t.next? d.column with
      | none => finish { d with converts := false } c
      | some stop =>
        let kept (waiting : List Char) : List Char :=
          if d.oneBefore then waiting.reverse.take 1 else []
        if c = '\t' then
          let waiting := if d.pending.isEmpty then [] else d.pending.dropLast ++ ['\t']
          finish { d with column := stop, pending := kept waiting } c
        else
          let column := d.column + 1
          if d.afterBlank && column = stop then
            let waiting := if d.pending.isEmpty then ['\t'] else d.pending.dropLast ++ ['\t']
            finish { d with column, pending := kept waiting } '\t'
          else { d with
            column
            oneBefore := d.oneBefore || column = stop
            pending := c :: d.pending
            afterBlank := true }
    else if c = '\x08' then finish { d with column := d.column - 1 } c
    else finish { d with column := d.column + 1 } c

def stops (o : Options) : Except String TabStops :=
  TabStops.ofTexts (o.given.filterMap fun (c, text) =>
    if c = 't' then some text else if c.isDigit then some (String.singleton c ++ text) else none)

def run (p : Process) (u : Usage) (whole : Options → Bool)
    (step : TabStops → Bool → Draft → Char → Draft) : Work Unit :=
  withOptions p u fun o => match stops o with
    | .error flaw => complain p flaw
    | .ok t => do
      let _ ← showJoined p o.operands fun text =>
        (text.foldl (step t (whole o)) {}).flush.output.reverse.flatten
      noteClosed p o.operands "-"

end Tabs

def expand (p : Process) : Work Unit :=
  Tabs.run p { bare := "i", valued := "t", loose := "0123456789", long := [("tabs=", 't'),
      ("initial", 'i')] } (!·.has 'i') Tabs.Draft.spread

def unexpand (p : Process) : Work Unit :=
  Tabs.run p { bare := "a", valued := "t", loose := "0123456789", long := [("tabs=", 't'),
      ("all", 'a'), ("first-only", 'F')] }
    (fun o => !o.has 'F' && (o.has 'a' || o.has 't')) Tabs.Draft.gather

end LayerCache.Program
