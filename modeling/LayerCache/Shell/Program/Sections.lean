import LayerCache.Shell.Program.Match
import LayerCache.Shell.Program.Options

/-! A file cut at lines that are counted or found by patterns. -/
namespace LayerCache.Program

namespace Sections

/-- How often a cut is made once more. -/
inductive Repetition where
  | times (n : Nat)
  | always
  deriving DecidableEq, Repr

inductive Mark where
  | line (n : Nat)
  /-- A line that a pattern finds, and so many lines behind it; what lies before it is left out or
  becomes a section. -/
  | found (r : Regex) (offset : Int) (isLeftOut : Bool)

structure Cut where
  text : String
  mark : Mark
  repetition : Repetition := .times 0

/-- What is left of the lines, where the search for patterns is, and the sections made. -/
structure Progress where
  rest : List (List Char)
  /-- The number of the first line left. -/
  first : Nat := 1
  /-- The number of the line that was looked at last. -/
  seen : Nat := 0
  sections : List (List Char) := []

/-- Why cutting ended early; the section that was begun, and what is said if anything is. -/
inductive Stop where
  | done (last : Option (List Char))
  | flawed (last : Option (List Char)) (flaw : String)

def Progress.take (s : Progress) (n : Nat) : Progress :=
  { s with rest := s.rest.drop n, first := s.first + n }

def Progress.add (s : Progress) (section_ : List Char) : Progress :=
  { s with sections := section_ :: s.sections }

def onRepetition (n : Nat) : String :=
  if n = 0 then "" else " on repetition " ++ toString n

def cutAtLine (matched : Bool) (text : String) (n repetition : Nat) (s : Progress) :
    Except (Progress × Stop) Progress :=
  let flaw (last : Option (List Char)) : Except (Progress × Stop) Progress :=
    .error (s, .flawed last (text ++ ": line number out of range" ++ onRepetition repetition))
  let count := n * (repetition + 1) - s.first
  if matched && s.rest.isEmpty then flaw (some [])
  else if s.rest.length < count then flaw (some s.rest.flatten)
  else
    let t := (s.take count).add (s.rest.take count).flatten
    let t := { t with seen := t.first - 1 }
    if matched then .ok { t.take 1 with seen := t.first }
    else if t.rest.isEmpty then
      .error (t, .flawed none (text ++ ": line number out of range" ++ onRepetition repetition))
    else .ok t

def cutAtPattern (matched : Bool) (text : String) (r : Regex) (offset : Int) (isLeftOut : Bool)
    (r? : Repetition) (repetition : Nat) (s : Progress) : Except (Progress × Stop) Progress :=
  let skipped := s.seen + 1 - s.first
  let isFound (line : List Char) : Bool :=
    (Regex.find? ⟨(Chars.bare line).toArray, false⟩ r 0).isSome
  let before := (s.rest.drop skipped).takeWhile (!isFound ·)
  let whole := if isLeftOut then none else some s.rest.flatten
  if s.rest.length ≤ skipped + before.length then
    if r? = .always then .error (s, .done whole)
    else .error (s, .flawed whole (text ++ ": match not found" ++ onRepetition repetition))
  else
    let line := s.first + skipped + before.length
    let stop : Int := line + offset
    let count := (stop - s.first).toNat
    let flaw (last : Option (List Char)) : Except (Progress × Stop) Progress :=
      .error (s, .flawed last (text ++ ": line number out of range"))
    if stop < s.first then flaw (if isLeftOut then none else some [])
    else if s.rest.length < count then flaw whole
    else
      let t := s.take count
      let t := if isLeftOut then t else t.add (s.rest.take count).flatten
      let t := { t with seen := if 0 < offset then stop.toNat else line }
      .ok (if matched then t.take 1 else t)

def Cut.once (matched : Bool) (c : Cut) (repetition : Nat) (s : Progress) :
    Except (Progress × Stop) Progress :=
  match c.mark with
  | .line n => cutAtLine matched (quoted (toString n)) n repetition s
  | .found r offset isLeftOut =>
    cutAtPattern matched (quoted c.text) r offset isLeftOut c.repetition repetition s

/-- Makes a cut as often as it is to be made. -/
def Cut.repeatedly (matched : Bool) (c : Cut) : Nat → Nat → Progress →
    Except (Progress × Stop) Progress
  | 0, _, s => .ok s
  | fuel + 1, repetition, s => do
    let ends : Bool := match c.repetition with
      | .times n => n < repetition
      | .always => false
    if ends then return s
    let t ← c.once matched repetition s
    repeatedly matched c fuel (repetition + 1) t

def cutAll (matched : Bool) (cuts : List Cut) (lines : List (List Char)) : Progress × Stop :=
  let start : Progress := { rest := lines }
  match cuts.foldlM (fun s (c : Cut) => c.repeatedly matched (2 * lines.length + 3 +
    match c.repetition with
      | .times n => n
      | .always => 0) 0 s) start with
  | .ok s => (s, .done (some s.rest.flatten))
  | .error result => result

/-- A number between braces. -/
def repetition (text : String) : Except String Repetition :=
  match text.toList.reverse with
  | '}' :: rest =>
    let inner := String.ofList (rest.reverse.drop 1)
    if inner = "*" then .ok .always
    else match Text.number? inner with
      | some n => .ok (.times n)
      | none => .error (quoted ("\x7b" ++ inner) ++
          "\x7d: integer required between '\x7b' and '\x7d'")
  | _ => .error (quoted text ++ ": '\x7d' is required in repeat count")

def pattern (text : String) (delimiter : Char) (cs : List Char) : Except String Mark :=
  match Chars.cutLast delimiter cs with
  | none => .error (fileName text ++ ": closing delimiter '" ++ String.singleton delimiter ++
      "' missing")
  | some (body, rest) => do
    let r ← (Regex.parse .basic body).mapError fun flaw =>
      quoted text ++ ": invalid regular expression: " ++ flaw.message
    let offset ← if rest.isEmpty then .ok 0 else match Chars.int? rest with
      | some n => .ok n
      | none => .error (quoted text ++ ": integer expected after delimiter")
    return .found r offset (delimiter = '%')

/-- The cuts, and a warning for each line that is named twice; `last` is the line named before. -/
def read : Nat → Nat → List String → Except String (List Cut × List String)
  | 0, _, _ => .ok ([], [])
  | _ + 1, _, [] => .ok ([], [])
  | fuel + 1, last, text :: rest => do
    let (mark, last, warnings) ← match text.toList with
      | '/' :: cs => do
        let mark ← pattern text '/' cs
        pure (mark, last, [])
      | '%' :: cs => do
        let mark ← pattern text '%' cs
        pure (mark, last, [])
      | _ => match Text.number? text with
        | none => .error (quoted text ++ ": invalid pattern")
        | some 0 => .error (fileName text ++ ": line number must be greater than zero")
        | some n =>
          if n < last then .error ("line number " ++ quoted text ++
            " is smaller than preceding line number, " ++ toString last)
          else .ok (Mark.line n, n, if n = last then ["warning: line number " ++ quoted text ++
            " is the same as preceding line number"] else [])
    let (times, rest) ← match rest with
      | next :: more =>
        if Text.startsWith next "\x7b" then do
          let times ← repetition next
          pure (times, more)
        else pure (.times 0, rest)
      | [] => pure (.times 0, [])
    let (cuts, others) ← read fuel last rest
    return (⟨text, mark, times⟩ :: cuts, warnings ++ others)

/-- How the number of a section is written in its name. -/
structure NumberForm where
  before : List Char := []
  flags : List Char := ['0']
  width : Nat := 2
  precision : Nat := 0
  base : Nat := 10
  upper : Bool := false
  after : List Char := []

def plainPart : List Char → List Char × List Char
  | '%' :: '%' :: rest => let (text, more) := plainPart rest; ('%' :: text, more)
  | '%' :: rest => ([], '%' :: rest)
  | c :: rest => let (text, more) := plainPart rest; (c :: text, more)
  | [] => ([], [])

def numberForm (text : String) : Except String NumberForm :=
  let (before, rest) := plainPart text.toList
  match rest with
  | [] => .error "missing % conversion specification in suffix"
  | _ :: rest =>
    let flags := rest.takeWhile ("-+ #0'".toList.contains ·)
    let rest := rest.drop flags.length
    let width := rest.takeWhile Char.isDigit
    let rest := rest.drop width.length
    let precision := if rest.head? = some '.' then (rest.drop 1).takeWhile Char.isDigit else []
    let rest := if rest.head? = some '.' then rest.drop (precision.length + 1) else rest
    match rest with
    | [] => .error "missing conversion specifier in suffix"
    | c :: rest =>
      match [('d', 10), ('i', 10), ('u', 10), ('o', 8), ('x', 16), ('X', 16)].lookup c with
      | none => .error ("invalid conversion specifier in suffix: " ++ String.singleton c)
      | some base =>
        let (after, more) := plainPart rest
        if !more.isEmpty then .error "too many % conversion specifications in suffix"
        else .ok ⟨before, flags, (Chars.number? width).getD 0, (Chars.number? precision).getD 0,
          base, c = 'X', after⟩

def NumberForm.write (f : NumberForm) (n : Nat) : List Char :=
  let digits := Chars.padLeft f.precision (Nat.toDigits f.base n) '0'
  let digits := if f.upper then digits.map Char.toUpper else digits
  let lead := if f.flags.contains '#' && n != 0 then
      if f.base = 16 then ['0', if f.upper then 'X' else 'x'] else if f.base = 8 then ['0'] else []
    else []
  let body := if f.flags.contains '-' then Chars.padRight f.width (lead ++ digits)
    else if f.flags.contains '0' then lead ++ Chars.padLeft (f.width - lead.length) digits '0'
    else Chars.padLeft f.width (lead ++ digits)
  f.before ++ body ++ f.after

def usage : Usage where
  bare := "kqsz"
  valued := "bfn"
  long := [("digits=", 'n'), ("quiet", 'q'), ("silent", 's'), ("keep-files", 'k'),
    ("elide-empty-files", 'z'), ("prefix=", 'f'), ("suffix-format=", 'b'),
    ("suppress-matched", 'm')]

def formOf (o : Options) : Except String NumberForm :=
  match o.value? 'b', o.value? 'n' with
  | some text, _ => numberForm text
  | none, none => .ok {}
  | none, some text => match Text.number? text with
    | some n => .ok { width := n }
    | none => .error ("invalid number: " ++ quoted text)

/-- Writes the sections into files and tells their sizes; gives the names of the files, or nothing
where one could not be written. -/
def save (p : Process) (o : Options) (name : Nat → String) :
    Nat → List (List Char) → Work (Option (List String))
  | _, [] => return some []
  | i, text :: rest => do
    if o.has 'z' && text.isEmpty then save p o name i rest
    else match ← saveFile (name i) text with
      | .error fault =>
        complain p (because (name i) fault.reason)
        return none
      | .ok () =>
        if !o.hasAny "qs" then printLine (naturals text.length)
        let others ← save p o name (i + 1) rest
        return others.map (name i :: ·)

/-- A folder can be opened but not read, so that the first section is begun all the same. -/
def cutUnread (fault : Fault) (cuts : List Cut) : Progress × Stop :=
  let last := match cuts.head?.map Cut.mark with
    | some (.found _ _ true) => none
    | _ => some []
  ({ rest := [] }, .flawed last ("read error: " ++ fault.reason))

def finish (p : Process) (o : Options) (form : NumberForm) (s : Progress) (stop : Stop) :
    Work Unit := do
  let name (i : Nat) : String := (o.value? 'f').getD "xx" ++ String.ofList (form.write i)
  let (last, flaw) := match stop with
    | .done last => (last, none)
    | .flawed last flaw => (last, some flaw)
  let sections := s.sections.reverse ++ last.toList
  let names ← save p o name 0 sections
  match names, flaw with
  | some names, some flaw =>
    complain p flaw
    if !o.has 'k' then names.forM fun name => discard (onDisk (·.remove (path name)))
  | _, _ => pure ()

end Sections

def splitAtMarks (p : Process) : Work Unit :=
  withOptions p Sections.usage fun o =>
    match Sections.formOf o, o.operands with
    | .error flaw, _ => complain p flaw
    | .ok _, [] => askForHelp p "missing operand"
    | .ok _, [name] => askForHelp p ("missing operand after " ++ quotedFile name)
    | .ok form, name :: marks => do
      let unread := "cannot open " ++ quotedFile name ++ " for reading: "
      match ← readFile name, Sections.read (marks.length + 1) 0 marks with
      | .error fault, cuts =>
        if fault != .isFolder && name != "-" then complain p (unread ++ fault.reason)
        else match cuts with
          | .ok (cuts, _) =>
            let (s, stop) := Sections.cutUnread fault cuts
            Sections.finish p o form s stop
          | .error flaw => complain p flaw
      | .ok _, .error flaw => complain p flaw
      | .ok text, .ok (cuts, warnings) =>
        for warning in warnings do
          write errors (p.name ++ ": " ++ warning ++ "\n").toList
        let (s, stop) := Sections.cutAll (o.has 'm') cuts (Chars.wholeLines text)
        errorsFirst (Sections.finish p o form s stop)

end LayerCache.Program
