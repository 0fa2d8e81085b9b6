import LayerCache.Shell.Program.Columns
import LayerCache.Shell.Program.Decimals

/-! Numbers with units, read and written in fields of lines. -/
namespace LayerCache.Program

namespace Units

/-- A fraction that has been rounded to the bits of an extended number. -/
structure Quantity where
  num : Int
  den : Nat

namespace Quantity

def near (num : Int) (den : Nat) : Quantity :=
  match Decimals.Real.round .extended (num < 0) num.natAbs den with
  | .finite true n d => ⟨-n, d⟩
  | .finite false n d => ⟨n, d⟩
  | _ => ⟨num, den⟩

def ofNat (n : Nat) : Quantity := near n 1

def times (a b : Quantity) : Quantity := near (a.num * b.num) (a.den * b.den)

/-- Divides by a number above zero. -/
def per (a b : Quantity) : Quantity := near (a.num * b.den) (a.den * b.num.natAbs)

def plus (a b : Quantity) : Quantity := near (a.num * b.den + b.num * a.den) (a.den * b.den)

def power (base : Nat) : Nat → Quantity
  | 0 => ⟨1, 1⟩
  | 1 => ofNat base
  | n + 1 => (power base n).times (ofNat base)

/-- Whether the number without its sign reaches a bound. -/
def reaches (a : Quantity) (bound : Nat) : Bool := bound * a.den ≤ a.num.natAbs

/-- Divides until the number is below a base, and tells how often. -/
def reduce (base : Nat) : Nat → Quantity → Quantity × Nat
  | 0, a => (a, 0)
  | fuel + 1, a =>
    if a.reaches base then
      let (b, n) := reduce base fuel (a.per (ofNat base))
      (b, n + 1)
    else (a, 0)

end Quantity

inductive Scale where
  | plain
  | auto
  | si
  | iec
  | iecWithMark
  deriving DecidableEq, Repr

def Scale.base : Scale → Nat
  | plain | auto | si => 1000
  | iec | iecWithMark => 1024

inductive Rounding where
  | up
  | down
  | fromZero
  | towardsZero
  | nearest
  deriving DecidableEq, Repr

def Rounding.apply (r : Rounding) (a : Quantity) : Quantity :=
  let low := a.num / a.den
  let isWhole := a.num % a.den = 0
  let isNegative : Bool := a.num < 0
  let above := if isWhole then low else low + 1
  ⟨match r with
    | up => above
    | down => low
    | fromZero => if isNegative then low else above
    | towardsZero => if isNegative then above else low
    | nearest =>
      let half := (2 * a.num.natAbs + a.den) / (2 * a.den)
      if isNegative then -half else half, 1⟩

/-- Rounds to so many places. -/
def Rounding.places (r : Rounding) (n : Nat) (a : Quantity) : Quantity :=
  (r.apply (a.times (.power 10 n))).per (.power 10 n)

/-- What is done about fields that are not numbers. -/
inductive Strictness where
  | abort
  | fail
  | warn
  | ignore
  deriving DecidableEq, Repr

/-- How a number is laid out. -/
structure Form where
  before : String := ""
  after : String := ""
  /-- Zeros before the number fill so many places. -/
  zeros : Nat := 0
  width : Option Nat := none
  isLeft : Bool := false
  precision : Option Nat := none

structure Plan where
  source : Scale := .plain
  target : Scale := .plain
  sourceUnit : Nat := 1
  targetUnit : Nat := 1
  rounding : Rounding := .fromZero
  form : Form := {}
  suffix : Option (List Char) := none
  separator : Option Char := none
  fields : Ranges := [(1, some 1)]
  strictness : Strictness := .abort
  ending : Char := '\n'

inductive Flaw where
  | tooLarge
  | notNumber
  | forbiddenUnit
  | unknownUnit
  | noMark
  | junk (rest : List Char)

def Flaw.message (f : Flaw) (text : String) : String :=
  match f with
  | tooLarge => "value too large to be converted: " ++ quoted text
  | notNumber => "invalid number: " ++ quoted text
  | forbiddenUnit => "rejecting suffix in input: " ++ quoted text ++ " (consider using --from)"
  | unknownUnit => "invalid suffix in input: " ++ quoted text
  | noMark => "missing 'i' suffix in input: " ++ quoted text ++ " (e.g Ki/Mi/Gi)"
  | junk rest => "invalid suffix in input " ++ quoted text ++ ": " ++ quoted (String.ofList rest)

def letters : List Char := ['K', 'M', 'G', 'T', 'P', 'E', 'Z', 'Y', 'R', 'Q']

/-- Digits that can be told apart, and those that a number may have. -/
def safeDigits : Nat := 18

def mostDigits : Nat := 33

/-- Digits at the start of a text. -/
def digits (cs : List Char) : Except Flaw (Quantity × Nat × List Char) :=
  let ds := cs.takeWhile Char.isDigit
  if mostDigits < (ds.dropWhile (· = '0')).length then .error .tooLarge
  else
    let value := ds.foldl (fun (v : Quantity) c =>
      (v.times (.ofNat 10)).plus (.ofNat (c.toNat - '0'.toNat))) ⟨0, 1⟩
    .ok (value, ds.length, cs.drop ds.length)

/-- A number with a point, its places, and what follows it. -/
def decimal (cs : List Char) : Except Flaw (Quantity × Nat × List Char) := do
  let isNegative := cs.head? = some '-'
  let cs := if isNegative then cs.drop 1 else cs
  let (whole, count, rest) ← digits cs
  if count = 0 && rest.head? != some '.' then throw .notNumber
  let signed (q : Quantity) : Quantity := if isNegative then ⟨-q.num, q.den⟩ else q
  match rest with
  | '.' :: rest =>
    let (part, places, rest) ← digits rest
    if places = 0 && rest.head? != some '.' then throw .notNumber
    return (signed (whole.plus (part.per (.power 10 places))), places, rest)
  | _ => return (signed whole, 0, rest)

def isBlank (c : Char) : Bool := c = ' ' || c = '\t'

/-- A number with its unit, and its places. -/
def Scale.read (s : Scale) (cs : List Char) : Except Flaw (Quantity × Nat) := do
  let (value, places, rest) ← decimal cs
  if rest.isEmpty then return (value, places)
  match rest.dropWhile isBlank with
  | [] => throw .unknownUnit
  | letter :: rest =>
    if !letters.contains letter then throw .unknownUnit
    if s = .plain then throw .forbiddenUnit
    let hasMark := rest.head? = some 'i'
    if s = .iecWithMark && !hasMark then throw .noMark
    let takesMark := hasMark && (s = .auto || s = .iecWithMark)
    let rest := if takesMark then rest.drop 1 else rest
    let base := if s = .auto && hasMark then 1024 else s.base
    if !rest.isEmpty then throw (.junk rest)
    return (value.times (.power base (letters.idxOf letter + 1)), 0)

/-- A number with places, filled with zeros to a width. -/
def shown (zeros places : Nat) (q : Quantity) : List Char :=
  let sign := if q.num < 0 then ['-'] else []
  let text := Decimals.fixed places false q.num.natAbs q.den
  sign ++ Chars.padLeft (zeros - sign.length) text '0'

def Plan.write (plan : Plan) (q : Quantity) (places : Nat) : List Char :=
  let zeros := plan.form.zeros
  if plan.target = .plain then shown zeros places (plan.rounding.places places q)
  else
    let base := plan.target.base
    let (reduced, power) := Quantity.reduce base 64 q
    let adjusted := match plan.form.precision with
      | some n => min (power * 3) n
      | none => if reduced.reaches 10 then 0 else 1
    let rounded := plan.rounding.places adjusted reduced
    let (rounded, power) := if rounded.reaches base
      then (rounded.per (.ofNat base), power + 1) else (rounded, power)
    let hasPoint := rounded.num != 0 && !rounded.reaches 10 && 0 < power
    let places := plan.form.precision.getD (if hasPoint then 1 else 0)
    let letter := if power = 0 then [] else (letters[power - 1]?).toList
    shown zeros places rounded ++ letter ++
      (if plan.target = .iecWithMark && 0 < power then ['i'] else [])

/-- A number that cannot be written. -/
def Plan.unwritable? (plan : Plan) (q : Quantity) (places : Nat) : Option String :=
  let power := (Quantity.reduce 10 5000 q).2
  let value := (if q.num < 0 then "-" else "") ++
    String.ofList (Decimals.general 6 false q.num.natAbs q.den)
  if plan.target = .plain && safeDigits < power + places then
    some (if places = 0 then "value too large to be printed: '" ++ value ++
        "' (consider using --to)"
      else "value/precision too large to be printed: '" ++ value ++ "/" ++ toString places ++
        "' (consider using --to)")
  else if mostDigits - 1 < power then
    some ("value too large to be printed: '" ++ value ++ "' (cannot handle values > 999Q)")
  else none

/-- A field as it is to be written, or why it cannot be. -/
def Plan.convert (plan : Plan) (place : Nat) (field : List Char) : Except String (List Char) := do
  let bare := match plan.suffix with
    | some s => if s.isSuffixOf field && s.length < field.length
        then field.take (field.length - s.length) else field
    | none => field
  let text := bare.dropWhile isBlank
  let isAligned := plan.form.width.isNone && plan.separator.isNone &&
    (text.length < bare.length || 1 < place)
  let (value, places) ← (plan.source.read text).mapError fun flaw =>
    flaw.message (String.ofList text)
  let value := if plan.sourceUnit = 1 && plan.targetUnit = 1 then value
    else (value.times (.ofNat plan.sourceUnit)).per (.ofNat plan.targetUnit)
  let places := plan.form.precision.getD places
  match plan.unwritable? value places with
  | some flaw => throw flaw
  | none =>
    let written := plan.write value places ++ plan.suffix.getD []
    let width := if isAligned then bare.length else plan.form.width.getD 0
    let padded := if plan.form.isLeft then Chars.padRight width written
      else Chars.padLeft width written
    return plan.form.before.toList ++ padded ++ plan.form.after.toList

/-- Fields of a line: runs of blanks and what follows them, or what lies between separators. -/
def fieldsOf (separator : Option Char) (line : List Char) : List (List Char) :=
  match separator with
  | some c => Chars.split c line
  | none => go (line.length + 1) line
where
  go : Nat → List Char → List (List Char)
    | 0, _ => []
    | fuel + 1, line =>
      let isGap (c : Char) : Bool := isBlank c || c = '\n'
      let lead := line.takeWhile isGap
      let rest := line.drop lead.length
      let word := rest.takeWhile (!isGap ·)
      match rest.drop word.length with
      | [] => [lead ++ word]
      | _ :: more => (lead ++ word) :: go fuel more

/-- Writes the fields of a line, up to the one that ends all work. -/
def Plan.writeFields (p : Process) (plan : Plan) : Nat → List (List Char) → Work Bool
  | _, [] => return true
  | place, field :: rest => do
    let isFine ← if !plan.fields.keeps place then do
        print field
        pure true
      else match plan.convert place field with
        | .ok text => do
          print text
          pure true
        | .error flaw => do
          if plan.strictness != .ignore then complain p flaw 2
          if plan.strictness = .abort then return false
          print field
          pure false
    if !rest.isEmpty then print [plan.separator.getD ' ']
    let others ← plan.writeFields p (place + 1) rest
    return isFine && others

/-- Goes through lines; one that is not fine may end all work. -/
def Plan.writeLines (p : Process) (plan : Plan) (isFine : Bool) : List (List Char) → Work Unit
  | [] => finish (if isFine || plan.strictness = .warn || plan.strictness = .ignore then 0 else 2)
  | line :: rest => do
    let isGood ← plan.writeFields p 1
      (fieldsOf plan.separator (Chars.bareRecord plan.ending line))
    if !isGood && plan.strictness = .abort then finish 2
    else
      if line.getLast? = some plan.ending then print [plan.ending]
      plan.writeLines p (isFine && isGood) rest

def usage : Usage where
  bare := "z"
  valued := "d"
  long := [("from=", 'f'), ("from-unit=", 'F'), ("to=", 't'), ("to-unit=", 'T'), ("round=", 'r'),
    ("padding=", 'p'), ("suffix=", 's'), ("grouping", 'g'), ("delimiter=", 'd'), ("field=", 'c'),
    ("debug", 'D'), ("header?", 'h'), ("format=", 'm'), ("invalid=", 'i'),
    ("zero-terminated", 'z')]

/-- A size of a unit: a letter is a power of 1000, and of 1024 with an `i` behind it. -/
def unitSize (text : String) : Except String Nat :=
  let cs := text.toList
  let cs := match cs.reverse with
    | 'i' :: c :: rest => if c.isDigit then cs ++ ['B'] else (c :: rest).reverse
    | c :: _ => if c.isDigit then cs else cs ++ ['B']
    | [] => cs
  match Sizes.ofText (String.ofList letters) (String.ofList cs) with
  | .ok (n + 1) => .ok (n + 1)
  | _ => .error ("invalid unit size: " ++ quoted text)

/-- What stands before the directive of a format, counting a doubled sign once, and the rest. -/
def formatStart : Nat → List Char → Option (Nat × List Char)
  | _, [] => none
  | n, '%' :: '%' :: rest => formatStart (n + 1) rest
  | n, '%' :: rest => some (n, rest)
  | n, _ :: rest => formatStart (n + 1) rest

def formatFlags : Bool → List Char → Bool × List Char
  | _, '0' :: rest => formatFlags true rest
  | zero, '\'' :: rest => formatFlags zero rest
  | zero, ' ' :: rest => formatFlags zero rest
  | zero, rest => (zero, rest)

/-- A number with a sign at the start of a text. -/
def leadingInt (cs : List Char) : Option Int × List Char :=
  let bare := match cs with
    | '-' :: rest => rest
    | '+' :: rest => rest
    | _ => cs
  let digits := bare.takeWhile Char.isDigit
  match Chars.number? digits with
  | some n => (some (if cs.head? = some '-' then -n else n), bare.drop digits.length)
  | none => (none, cs)

def hasDirective : List Char → Bool
  | '%' :: '%' :: rest => hasDirective rest
  | '%' :: _ => true
  | _ :: rest => hasDirective rest
  | [] => false

/-- Takes the width, the alignment and the places from a format. -/
def Form.ofFormat (form : Form) (text : String) : Except String Form := do
  let (start, rest) ← match formatStart 0 text.toList with
    | some found => .ok found
    | none => .error ("format " ++ quoted text ++ " has no % directive")
  let (hasZero, rest) := formatFlags false rest
  let (width, rest) := leadingInt rest
  let form := match width with
    | none | some 0 => form
    | some n => if n < 0 then { form with width := some n.natAbs, isLeft := true }
      else if hasZero then { form with zeros := n.natAbs }
      else { form with width := some n.natAbs }
  if rest.isEmpty then throw ("format " ++ quoted text ++ " ends in %")
  let (precision, rest) ← match rest with
    | '.' :: rest =>
      let (precision, more) := leadingInt rest
      if rest.head?.any (fun c => c = ' ' || c = '\t' || c = '+') || precision.any (· < 0) then
        .error ("invalid precision in format " ++ quoted text)
      else .ok (some (precision.getD 0).natAbs, more)
    | _ => .ok (none, rest)
  match rest with
  | 'f' :: after =>
    if hasDirective after then throw ("format " ++ quoted text ++ " has too many % directives")
    return { form with precision, after := String.ofList after
                       before := String.ofList (text.toList.take start) }
  | _ => throw ("invalid format " ++ quoted text ++
      ", directive must be %[0]['][-][N][.][N]f")

def withPadding (form : Form) (text : String) : Except String Form :=
  match Sizes.intOfText text with
  | .ok n => if n = 0 then .error ("invalid padding value " ++ quoted text)
    else .ok { form with width := some n.natAbs, isLeft := n < 0 }
  | .error _ => .error ("invalid padding value " ++ quoted text)

/-- What one option changes. -/
def Plan.take (plan : Plan) (option : Char × String) : Except String Plan := do
  let (c, text) := option
  match c with
  | 'F' =>
    let n ← unitSize text
    return { plan with sourceUnit := n }
  | 'T' =>
    let n ← unitSize text
    return { plan with targetUnit := n }
  | 'p' =>
    let form ← withPadding plan.form text
    return { plan with form }
  | 's' => return { plan with suffix := some text.toList }
  | 'd' => match text.toList with
    | [] => return { plan with separator := some (Char.ofNat 0) }
    | [c] => return { plan with separator := some c }
    | _ => throw "the delimiter must be a single character"
  | 'h' => if text != "" && (Text.number? text).getD 0 = 0 then
      throw ("invalid header value " ++ quoted text) else return plan
  | _ => return plan

def scales : List (List String × Scale) :=
  [(["none"], .plain), (["auto"], .auto), (["si"], .si), (["iec"], .iec),
    (["iec-i"], .iecWithMark)]

def roundings : List (List String × Rounding) :=
  [(["up"], .up), (["down"], .down), (["from-zero"], .fromZero), (["towards-zero"], .towardsZero),
    (["nearest"], .nearest)]

def strictnesses : List (List String × Strictness) :=
  [(["abort"], .abort), (["fail"], .fail), (["warn"], .warn), (["ignore"], .ignore)]

/-- Takes a choice among words, if the option was given. -/
def withChosen {α : Type} (p : Process) (o : Options) (c : Char) (name : String)
    (table : List (List String × α)) (usual : α) (work : α → Work Unit) : Work Unit :=
  match o.value? c with
  | none => work usual
  | some word => withChoice p name word table work

/-- The plan that all options but those with words make. -/
def planOf (o : Options) (plan : Plan) : Except String Plan := do
  let plan ← o.given.foldlM (fun plan option => plan.take option) plan
  let plan ← match o.value? 'm' with
    | some format =>
      if o.has 'g' then throw "--grouping cannot be combined with --format"
      let form ← plan.form.ofFormat format
      pure { plan with form }
    | none => pure plan
  if o.has 'g' && plan.target != .plain then throw "grouping cannot be combined with --to"
  return { plan with ending := if o.has 'z' then Char.ofNat 0 else '\n' }

def fieldsFlaw? (o : Options) : Except (String × Bool) (Option Ranges) :=
  match o.values 'c' with
  | [] => .ok none
  | ["-"] => .ok (some [(1, none)])
  | [text] => match Ranges.ofText false text with
    | .ok ranges => .ok (some ranges)
    | .error flaw => .error (Columns.message true flaw, true)
  | _ => .error ("multiple field specifications", false)

def run (p : Process) (o : Options) (plan : Plan) : Work Unit := do
  if o.operands.isEmpty then
    let some text ← takeInput p "error reading input" | return
    let lines := Chars.wholeRecords plan.ending text
    let titles := match o.value? 'h' with
      | none => 0
      | some text => (Text.number? text).getD 1
    print (lines.take titles).flatten
    plan.writeLines p true (lines.drop titles)
  else plan.writeLines p true (o.operands.map fun line => line.toList ++ [plan.ending])

end Units

/-- Converts numbers from one unit to another. -/
def convertUnits (p : Process) : Work Unit :=
  withOptions p Units.usage fun o =>
    Units.withChosen p o 'f' "from" Units.scales .plain fun source =>
    let targets := Units.scales.filter fun (_, s) => s != .auto
    Units.withChosen p o 't' "to" targets .plain fun target =>
    Units.withChosen p o 'r' "round" Units.roundings .fromZero fun rounding =>
    Units.withChosen p o 'i' "invalid" Units.strictnesses .abort fun strictness =>
      match Units.fieldsFlaw? o with
      | .error (flaw, true) => askForHelp p flaw
      | .error (flaw, false) => complain p flaw
      | .ok fields =>
        let fields := fields.getD [(1, some 1)]
        match Units.planOf o { source, target, rounding, strictness, fields } with
        | .error flaw => complain p flaw
        | .ok plan => do
          if o.has 'D' && plan.source = .plain && plan.target = .plain && !o.hasAny "gpm" then
            write errors (p.name ++ ": no conversion option specified\n").toList
          Units.run p o plan

end LayerCache.Program
