import LayerCache.Shell.Calendar.Format
import LayerCache.Shell.Calendar.Reader
import LayerCache.Shell.Program.Files

/-! Programs about dates and times. -/
namespace LayerCache.Program

/-- How fine a standard date is written, and the format for that. -/
def isoForms : List (List String × String) :=
  [(["hours"], "%Y-%m-%dT%H%:z"), (["minutes"], "%Y-%m-%dT%H:%M%:z"), (["date"], "%Y-%m-%d"),
    (["seconds"], "%Y-%m-%dT%H:%M:%S%:z"), (["ns"], "%Y-%m-%dT%H:%M:%S,%N%:z")]

def plainForms : List (List String × String) :=
  [(["date"], "%Y-%m-%d"), (["seconds"], "%Y-%m-%d %H:%M:%S%:z"),
    (["ns"], "%Y-%m-%d %H:%M:%S.%N%:z")]

def mailForm : String := "%a, %d %b %Y %H:%M:%S %z"

def usualForm : String := "%a %b %e %H:%M:%S %Z %Y"

def momentOf (d : Disk) (place : Place) : Moment :=
  ⟨d.timeOf place, ((d.traits.find? place).elim 0 Traits.nanos)⟩

def now (d : Disk) : Moment := ⟨d.clock, 0⟩

/-- The formats that options ask for, in order. -/
def withForms (p : Process) (o : Options) (work : List String → Work Unit) : Work Unit :=
  go o.given []
where
  go : List (Char × String) → List String → Work Unit
    | [], forms => work forms.reverse
    | ('I', "") :: rest, forms => go rest ("%Y-%m-%d" :: forms)
    | ('I', word) :: rest, forms =>
      withChoice p "iso-8601" word isoForms fun form => go rest (form :: forms)
    | ('3', word) :: rest, forms =>
      withChoice p "rfc-3339" word plainForms fun form => go rest (form :: forms)
    | ('R', _) :: rest, forms => go rest (mailForm :: forms)
    | _ :: rest, forms => go rest forms

def date (p : Process) : Work Unit :=
  withOptions p ⟨"Ru", "dfrs", [("date=", 'd'), ("debug", 'D'), ("file=", 'f'),
      ("iso-8601?", 'I'), ("reference=", 'r'), ("resolution", 'z'), ("rfc-3339=", '3'),
      ("rfc-email", 'R'), ("rfc-2822", 'R'), ("rfc-822", 'R'), ("set=", 's'), ("utc", 'u'),
      ("uct", 'u'), ("universal", 'u')], true, "I"⟩ fun o => withForms p o fun forms => do
    let d := (← get).disk
    let given := "dfr".toList.filter o.has
    let operandForm := o.operands.head?.filter (Text.startsWith · "+")
    let form := (forms.head?.or (operandForm.map fun f => String.ofList (f.toList.drop 1))).getD
      usualForm
    let tell (m : Moment) : Work Unit := printLine (Calendar.write m form)
    let tellText (text : String) : Work Unit := match Calendar.read? (now d) text with
      | some m => tell m
      | none => complain p ("invalid date " ++ quoted text)
    if 1 < given.length then
      askForHelp p "the options to specify dates for printing are mutually exclusive"
    else if 1 < forms.length then complain p "multiple output formats specified"
    else if 1 < o.operands.length then
      askForHelp p ("extra operand " ++ quoted ((o.operands[1]?).getD ""))
    else match o.operands.head? with
      | some operand =>
        if operandForm.isSome then
          if !forms.isEmpty then complain p "multiple output formats specified"
          else one o tellText tell
        else if !given.isEmpty || o.has 's' then
          askForHelp p ("the argument " ++ quoted operand ++ " lacks a leading '+';\nwhen using " ++
            "an option to specify date(s), any non-option\nargument must be a format string " ++
            "beginning with '+'")
        else match Calendar.readStamp? (now d) operand with
          | some m => do
            complain p "cannot set date: Operation not permitted"
            tell m
          | none => complain p ("invalid date " ++ quoted operand)
      | none => one o tellText tell
where
  one (o : Options) (tellText : String → Work Unit) (tell : Moment → Work Unit) : Work Unit := do
    let d := (← get).disk
    match o.value? 'd', o.value? 'f', o.value? 'r' with
    | some text, _, _ => tellText text
    | _, some file, _ => do
      match ← readFile file with
      | .ok text => (Chars.bareLines text).forM fun line => tellText (String.ofList line)
      | .error fault => complain p (because file fault.reason)
    | _, _, some file => match d.stat (path file) with
      | .ok (place, _) => tell (momentOf d place)
      | .error fault => complain p (because file fault.reason)
    | _, _, _ => tell (now d)

def timeWords : List (List String × Char) :=
  [(["atime", "access", "use"], 'a'), (["mtime", "modify"], 'm')]

/-- The moment that files are to have, or none if it is now. -/
def withMoment (p : Process) (o : Options) (work : Option Moment → Work Unit) : Work Unit := do
  let d := (← get).disk
  let onText (base : Moment) (text : String) : Work Unit :=
    match Calendar.read? base text with
    | some m => work (some m)
    | none => complain p ("invalid date format " ++ quoted text)
  match o.value? 'r', o.value? 'd', o.value? 't' with
  | some file, text?, _ => match d.look (!o.has 'h') (path file) with
    | .error fault =>
      complain p ("failed to get attributes of " ++ quotedFile file ++ ": " ++ fault.reason)
    | .ok (place, _) => match text? with
      | some text => onText (momentOf d place) text
      | none => work (some (momentOf d place))
  | none, some text, _ => onText (now d) text
  | none, none, some text => match Calendar.readStamp? (now d) text with
    | some m => work (some m)
    | none => complain p ("invalid date format " ++ quoted text)
  | none, none, none => work none

/-- Gives a file a new time, and makes it if there is none. -/
def touchOne (p : Process) (o : Options) (moment : Option Moment) (name : String) : Work Unit := do
  let d := (← get).disk
  let at? := path name
  let missing := match d.find .file at? with
    | .ok (.free _ _) => true
    | _ => false
  let opening : Option Fault := match d.find .file at? with
    | .error .isFolder => none
    | .error fault => some fault
    | .ok _ => none
  let d := if missing && !o.has 'c' && !o.has 'h' then (d.write at? .empty).toOption.getD d else d
  match d.look (!o.has 'h') at? with
  | .error fault =>
    if o.has 'c' || o.has 'h' then
      if !(fault = .notFound && o.has 'c') then
        complain p ("setting times of " ++ quotedFile name ++ ": " ++ fault.reason)
    else match opening with
      | some fault => complain p ("cannot touch " ++ quotedFile name ++ ": " ++ fault.reason)
      | none => complain p ("setting times of " ++ quotedFile name ++ ": " ++ fault.reason)
  | .ok (place, _) =>
    let disk := match moment with
      | some m => d.changeTraits place ({ · with time := some m.seconds, nanos := m.nanos })
      | none => if missing then d else (d.wait 1).forgetTime place
    modify fun e => { e with disk }

def touch (p : Process) : Work Unit :=
  withOptions p ⟨"acfhm", "dtr", [("time=", 'T'), ("no-create", 'c'), ("date=", 'd'),
      ("reference=", 'r'), ("no-dereference", 'h')], true, ""⟩ fun o => do
    let go : Work Unit := withMoment p o fun moment =>
      if o.operands.isEmpty then askForHelp p "missing file operand"
      else o.operands.forM fun name => do
        if name != "-" then touchOne p o moment name
    let stamp := (o.value? 't').filter fun text => (Calendar.readStamp? (now p.disk) text).isNone
    if let some text := stamp then complain p ("invalid date format " ++ quoted text)
    else if o.has 't' && (o.has 'd' || o.has 'r') then
      askForHelp p "cannot specify times from more than one source"
    else match o.value? 'T' with
      | some word => withChoice p "time" word timeWords fun _ => go
      | none => go

/-- Nothing happens for a while. -/
def sleep (p : Process) : Work Unit :=
  withOptions p {} fun o => do
    let seconds? (text : String) : Option Nat :=
      let cs := text.toList
      let digits := cs.takeWhile Char.isDigit
      let rest := cs.drop digits.length
      let part := if rest.head? = some '.' then (rest.drop 1).takeWhile Char.isDigit else []
      let unit := rest.drop (if rest.head? = some '.' then part.length + 1 else 0)
      let factor? := match unit with
        | [] => some 1
        | [c] => [('s', 1), ('m', 60), ('h', 3600), ('d', 86400)].lookup c
        | _ => none
      if text = "infinity" || text = "inf" then some 0
      else if digits.isEmpty && part.isEmpty then none
      else factor?.map fun k =>
        (Chars.number? digits).getD 0 * k + if part.any (· != '0') then 1 else 0
    let flaws := o.operands.filter fun text => (seconds? text).isNone
    if o.operands.isEmpty then askForHelp p "missing operand"
    else if !flaws.isEmpty then
      let told := flaws.map fun text => "invalid time interval " ++ quoted text
      askForHelp p (Text.join ("\n" ++ p.name ++ ": ") told)
    else
      let total := (o.operands.filterMap seconds?).foldl (· + ·) 0
      modify fun e => { e with disk := e.disk.wait total }

end LayerCache.Program
