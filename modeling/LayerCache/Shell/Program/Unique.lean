import LayerCache.Shell.Program.Lines
import LayerCache.Shell.Program.Sizes

/-! Lines that are the same as the ones before them. -/
namespace LayerCache.Program
namespace Unique

/-- The part of a line that counts: behind so many fields and characters, up to so many. -/
structure Part where
  fields : Nat := 0
  skipped : Nat := 0
  width : Option Nat := none
  fold : Bool := false

def isBlank (c : Char) : Bool := c = ' ' || c = '\t'

def dropFields : Nat → List Char → List Char
  | 0, line => line
  | n + 1, line => dropFields n ((line.dropWhile isBlank).dropWhile (!isBlank ·))

def Part.key (k : Part) (line : List Char) : List Char :=
  let part := (dropFields k.fields line).drop k.skipped
  let part := k.width.elim part part.take
  if k.fold then part.map Char.toUpper else part

/-- Runs of lines with the same key. -/
def runs (k : Part) (lines : List (List Char)) : List (List (List Char)) :=
  (lines.foldl (fun done line => match done with
    | (key, first :: group) :: rest =>
      if k.key line = key then (key, line :: first :: group) :: rest
      else (k.key line, [line]) :: done
    | _ => (k.key line, [line]) :: done) []).reverse.map fun (_, group) => group.reverse

/-- Which lines are shown: single ones, the first of several, and the later ones. -/
structure Choice where
  single : Bool
  first : Bool
  later : Bool

def Choice.select (c : Choice) (group : List (List Char)) : List (List Char) :=
  match group with
  | [line] => if c.single then [line] else []
  | group => if c.later then (if c.first then group else group.dropLast)
    else if c.first then group.take 1 else []

/-- Where empty lines part the runs. -/
inductive Parting where
  | before
  | after
  | between
  | around
  deriving DecidableEq, Repr

def parted (parting : Option Parting) (groups : List (List (List Char))) : List (List Char) :=
  let groups := groups.filter fun g => !g.isEmpty
  match parting with
  | none => groups.flatten
  | some .before => groups.flatMap fun g => [] :: g
  | some .after => groups.flatMap fun g => g ++ [[]]
  | some .between => ((groups.intersperse [[]])).flatten
  | some .around =>
    if groups.isEmpty then [] else groups.flatMap (fun g => [] :: g) ++ [[]]

def repeatedWays : List (List String × Option Parting) :=
  [(["none"], none), (["prepend"], some .before), (["separate"], some .between)]

def groupWays : List (List String × Option Parting) :=
  [(["prepend"], some .before), (["append"], some .after), (["separate"], some .between),
    (["both"], some .around)]

def usage : Usage where
  bare := "cdDiuz0123456789"
  valued := "fsw"
  long := [("count", 'c'), ("repeated", 'd'), ("all-repeated?", 'A'), ("group?", 'G'),
    ("ignore-case", 'i'), ("unique", 'u'), ("skip-fields=", 'f'), ("skip-chars=", 's'),
    ("check-chars=", 'w'), ("zero-terminated", 'z')]

/-- The number of an option, where the last one given counts. -/
def number (o : Options) (c : Char) (what : String) : Except String (Option Nat) :=
  match o.value? c with
  | none => .ok none
  | some text => match Sizes.ofText "" text with
    | .ok n => .ok (some n)
    | .error .tooLarge => .ok (some Sizes.bound)
    | .error .notNumber => .error (text ++ ": invalid number of " ++ what)

/-- Numbers of fields and of characters as they used to be written, apart from other operands. -/
def oldNumbers (args : List String) : List String :=
  args.map fun a => match a.toList with
    | '+' :: c :: cs => if (c :: cs).all Char.isDigit then "-s" ++ String.ofList (c :: cs) else a
    | '-' :: c :: cs => if (c :: cs).all Char.isDigit then "-f" ++ String.ofList (c :: cs) else a
    | _ => a

def run (p : Process) (o : Options) (k : Part) (ending : Char) (repeated : Option Parting)
    (grouped : Option Parting) : Work Unit := do
  let name := o.operands.headD "-"
  match ← readFile name with
  | .error fault =>
    complain p (if fault = .isFolder || name = "-" then
      "error reading " ++ quotedFile name ++ ": " ++ fault.reason
      else because name fault.reason)
  | .ok text =>
    let all := runs k (Chars.bareRecords ending text)
    let later := o.has 'D' || o.has 'A'
    let choice : Choice := ⟨!(o.has 'd' || later), !o.has 'u', later⟩
    let shown := if o.has 'G' then parted grouped all
      else if o.has 'c' then all.flatMap fun g => (choice.select g).map fun line =>
        Chars.padLeft 7 (naturals g.length) ++ ' ' :: line
      else parted repeated (all.map choice.select)
    let output := shown.flatMap fun line => line ++ [ending]
    match o.operands[1]? with
    | none | some "-" => print output
    | some file => match ← saveFile file output with
      | .ok () => pure ()
      | .error fault => complain p (because file fault.reason)

end Unique

def unique (p : Process) : Work Unit :=
  withOptions { p with args := Unique.oldNumbers p.args } Unique.usage fun o =>
    withChoice p "all-repeated"
      (let given := (o.value? 'A').getD "none"; if given = "" then "none" else given)
      Unique.repeatedWays fun repeated =>
    withChoice p "group"
      (let given := (o.value? 'G').getD "separate"; if given = "" then "separate" else given)
      Unique.groupWays fun grouped =>
      match (do
        let fields ← Unique.number o 'f' "fields to skip"
        let skipped ← Unique.number o 's' "bytes to skip"
        let width ← Unique.number o 'w' "bytes to compare"
        return Unique.Part.mk (fields.getD 0) (skipped.getD 0) width (o.has 'i')) with
      | .error flaw => complain p flaw
      | .ok k =>
        if 2 < o.operands.length then
          askForHelp p ("extra operand " ++ quotedFile ((o.operands[2]?).getD ""))
        else if o.has 'G' && o.hasAny "cdDAu" then
          askForHelp p "--group is mutually exclusive with -c/-d/-D/-u"
        else if o.has 'c' && (o.has 'D' || o.has 'A') then
          askForHelp p "printing all duplicated lines and repeat counts is meaningless"
        else Unique.run p o k (if o.has 'z' then Char.ofNat 0 else '\n') repeated grouped

end LayerCache.Program
