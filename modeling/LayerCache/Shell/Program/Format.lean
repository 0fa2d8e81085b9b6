import LayerCache.Shell.Program.Escape

/-! Formats with places for arguments, and the programs that print their arguments. -/
namespace LayerCache.Program

/-- A width or a precision: none, a number, or one taken from the arguments. -/
inductive Measure where
  | none
  | fixed (n : Nat)
  | given

/-- A place for an argument, and how it was written. -/
structure Place where
  flags : List Char
  width : Measure
  precision : Measure
  conversion : Char

inductive FormatPart where
  | text (cs : List Char)
  | place (p : Place)

/-- Where a format ends: at its end, at an escape that stops all, or at a mistake. -/
inductive FormatEnd where
  | done
  | stopped
  | wrong (flaw : String)
  /-- A place that makes no sense. -/
  | badPlace (text : List Char)

def takeMeasure (cs : List Char) : Measure × List Char :=
  match cs with
  | '*' :: rest => (.given, rest)
  | cs =>
    let digits := cs.takeWhile Char.isDigit
    ((Chars.number? digits).elim Measure.none Measure.fixed, cs.drop digits.length)

namespace Dialect

def flagChars (d : Dialect) : List Char :=
  if d = .script then "-+ #0".toList else "-+ #0'I".toList

/-- Whether a conversion allows what stands before it. -/
def allows (d : Dialect) (isBare hasPrecision : Bool) (flags : List Char) (c : Char) : Bool :=
  let forbids (flag conversions : String) : Bool :=
    flags.any flag.toList.contains && conversions.toList.contains c
  if d = .script then "diouxXcsbeEfFgGaA".toList.contains c
  else if c = 'b' || c = 'q' then isBare
  else "diouxXcseEfFgGaA".toList.contains c && !(hasPrecision && c = 'c') &&
    !forbids "'I" "aAceEosxX" && !forbids "#" "cdisu" && !forbids "0" "cs"

/-- A place, read behind its percent sign; one that makes no sense is given up to its last
character. -/
def takePlace (d : Dialect) (cs : List Char) : Except (List Char) (Place × List Char) :=
  let flags := cs.takeWhile d.flagChars.contains
  let (width, rest) := takeMeasure (cs.drop flags.length)
  let dotted := rest.head? = some '.'
  let (precision, rest) := match rest with
    | '.' :: rest => match takeMeasure rest with
      | (.none, rest) => (Measure.fixed 0, rest)
      | other => other
    | rest => (.none, rest)
  let rest := if d = .script then rest else rest.dropWhile "hlLjzt".toList.contains
  match rest with
  | c :: after =>
    if d.allows (rest.length = cs.length) dotted flags c then
      .ok (⟨flags, width, precision, c⟩, after)
    else .error (cs.take (cs.length - after.length))
  | [] => .error (if d = .script then [] else cs)

/-- The parts of a format up to its end. -/
def parts (d : Dialect) : Nat → List Char → List FormatPart × FormatEnd
  | 0, _ => ([], .done)
  | _ + 1, [] => ([], .done)
  | fuel + 1, '%' :: '%' :: rest =>
    let (others, stop) := parts d fuel rest
    (.text ['%'] :: others, stop)
  | fuel + 1, '%' :: rest => match d.takePlace rest with
    | .ok (place, rest) => let (others, stop) := parts d fuel rest; (.place place :: others, stop)
    | .error text => ([], .badPlace text)
  | fuel + 1, c :: rest =>
    match if c = '\\' then d.takeEscape false rest else .nothing with
    | .wrong flaw => ([], .wrong flaw)
    | .stop => ([], .stopped)
    | .text cs rest =>
      let (others, stop) := parts d fuel rest
      (.text cs :: others, stop)
    | .nothing =>
      let (others, stop) := parts d fuel rest
      (.text [c] :: others, stop)

end Dialect

/-- What is wrong with an argument that should be a number. -/
inductive NumberFlaw where
  | notNumber
  | partly
  | outOfRange
  /-- A character that stands for its number has others behind it. -/
  | trailing (rest : List Char)
  deriving DecidableEq, Repr

def NumberFlaw.message (d : Dialect) (arg : String) : NumberFlaw → String
  | notNumber =>
    if d = .script then arg ++ ": expected numeric value"
    else quoted arg ++ ": expected a numeric value"
  | partly =>
    if d = .script then arg ++ ": not completely converted"
    else quoted arg ++ ": value not completely converted"
  | outOfRange => (if d = .script then arg else quoted arg) ++ ": Numerical result out of range"
  | trailing rest => "warning: " ++ String.ofList rest ++
      ": character(s) following character constant have been ignored"

/-- Output under way: what is left of the arguments, and what was wrong with those used. -/
structure Filling where
  args : List String
  output : List (List Char) := []
  /-- What was wrong, each with the amount of output there was before. -/
  flaws : List (Nat × String × NumberFlaw) := []
  /-- An argument said where to stop, perhaps by a mistake. -/
  stop : Dialect.Stop := .atEnd

namespace Filling

def next (f : Filling) : Option String × Filling := (f.args.head?, { f with args := f.args.tail })

def say (f : Filling) (text : List Char) : Filling := { f with output := text :: f.output }

def isSpace (c : Char) : Bool := c = ' ' || ('\t' ≤ c && c ≤ '\r')

def ofDigits (base : Nat) (cs : List Char) : Option (Nat × List Char) :=
  let value (c : Char) : Nat := if c.isDigit then c.toNat - '0'.toNat
    else if c.isAlpha then c.toLower.toNat - 'a'.toNat + 10 else base
  let digits := cs.takeWhile fun c => value c < base
  if digits.isEmpty then none
  else some (digits.foldl (fun n c => base * n + value c) 0, cs.drop digits.length)

/-- The whole number a text begins with, and what follows it. -/
def leading (cs : List Char) : Int × List Char :=
  let (negative, rest) := match cs with
    | '-' :: rest => (true, rest)
    | '+' :: rest => (false, rest)
    | rest => (false, rest)
  let based (base : Nat) (digits : List Char) := (ofDigits base digits).or (ofDigits 8 rest)
  let found := match rest with
    | '0' :: 'x' :: digits | '0' :: 'X' :: digits => based 16 digits
    | '0' :: 'b' :: digits | '0' :: 'B' :: digits => based 2 digits
    | '0' :: _ => ofDigits 8 rest
    | rest => ofDigits 10 rest
  match found with
  | none => (0, cs)
  | some (n, rest) => (if negative then -n else n, rest)

/-- The next argument as a number; `read` gives it with the rest and tells if it was too large. -/
def number {α : Type} (d : Dialect) (ofNat : Nat → α) (read : List Char → α × List Char × Bool)
    (f : Filling) : α × Filling :=
  match f.next with
  | (none, f) => (ofNat 0, f)
  | (some arg, f) =>
    let note (flaw : NumberFlaw) : Filling :=
      { f with flaws := (f.output.length, arg, flaw) :: f.flaws }
    let plain : α × Filling :=
      let cs := arg.toList.dropWhile isSpace
      let (n, rest, large) := read cs
      if large && d != .script then (n, note .outOfRange)
      else if rest = cs && !arg.isEmpty then (n, note .notNumber)
      else if !rest.isEmpty then (n, note .partly)
      else if large then (n, note .outOfRange) else (n, f)
    match arg.toList with
    | '\'' :: rest | '"' :: rest => match rest with
      | c :: more =>
        (ofNat c.toNat, if d = .script || more.isEmpty then f else note (.trailing more))
      | [] => if d = .script then (ofNat 0, f) else plain
    | _ => plain

/-- Whole numbers with a sign have 64 bits. -/
def signed (cs : List Char) : Int × List Char × Bool :=
  let (n, rest) := leading cs
  let most : Int := (2 : Int).pow 63
  if most ≤ n then (most - 1, rest, true) else if n < -most then (-most, rest, true)
  else (n, rest, false)

/-- Without a sign they have 64 bits too; numbers below zero count back from the end. -/
def unsigned (cs : List Char) : Int × List Char × Bool :=
  let (n, rest) := leading cs
  let most : Int := (2 : Int).pow 64
  if most ≤ n.natAbs then (most - 1, rest, true) else (n % most, rest, false)

def width (d : Dialect) : Decimals.Width := if d = .script then .double else .extended

/-- Numbers with a fraction; those too large are infinite. -/
def fractional (d : Dialect) (cs : List Char) : Decimals.Real × List Char × Bool :=
  let (x, rest) := Decimals.leading (width d) cs
  let tiny := match x with
    | .finite _ num den => d = .script && num != 0 && num * Nat.pow 2 1022 < den
    | _ => false
  (x, rest, tiny || (x matches .infinite _) && cs.any Char.isDigit)

def measure (d : Dialect) (f : Filling) : Measure → Option Int × Filling
  | .none => (none, f)
  | .fixed n => (some (n : Int), f)
  | .given => let (n, f) := f.number d Int.ofNat signed; (some n, f)

/-- Puts a text into its place. -/
def pad (flags : List Char) (width : Option Int) (filler : Char) (lead body : List Char) :
    List Char :=
  let w := (width.getD 0).natAbs
  if flags.contains '-' || width.getD 0 < 0 then Chars.padRight w (lead ++ body)
  else if filler = '0' then lead ++ Chars.padLeft (w - lead.length) body '0'
  else Chars.padLeft w (lead ++ body)

def ofNumber (flags : List Char) (width precision : Option Int) (conversion : Char) (n : Int) :
    List Char :=
  let alternate := flags.contains '#' && n != 0
  let sign := if n < 0 then ['-'] else if flags.contains '+' then ['+']
    else if flags.contains ' ' then [' '] else []
  let (lead, digits) := match conversion with
    | 'x' => (if alternate then ['0', 'x'] else [], Nat.toDigits 16 n.toNat)
    | 'X' => (if alternate then ['0', 'X'] else [], (Nat.toDigits 16 n.toNat).map Char.toUpper)
    | 'o' => ([], (if alternate then ['0'] else []) ++ Nat.toDigits 8 n.toNat)
    | 'u' => ([], Nat.toDigits 10 n.toNat)
    | _ => (sign, Nat.toDigits 10 n.natAbs)
  let precision := precision.filter (0 ≤ ·)
  let digits := if precision = some 0 && n = 0 && !(conversion = 'o' && flags.contains '#') then []
    else digits
  let filler := if flags.contains '0' && precision.isNone then '0' else ' '
  pad flags width filler lead (Chars.padLeft ((precision.getD 1).toNat) digits '0')

def ofReal (w : Decimals.Width) (flags : List Char) (width precision : Option Int)
    (conversion : Char) (x : Decimals.Real) : List Char :=
  let digits := (precision.filter (0 ≤ ·)).map Int.toNat
  let (negative, text) := Decimals.written w conversion digits (flags.contains '#') x
  let sign := if negative then ['-'] else if flags.contains '+' then ['+']
    else if flags.contains ' ' then [' '] else []
  let (lead, body) := if conversion.toLower = 'a' && (x matches .finite _ _ _) then
    (sign ++ text.take 2, text.drop 2) else (sign, text)
  pad flags width (if flags.contains '0' && (x matches .finite _ _ _) then '0' else ' ') lead body

def fillPlace (d : Dialect) (f : Filling) (p : Place) : Filling :=
  let (width?, f) := f.measure d p.width
  let (precision, f) := f.measure d p.precision
  let cut (cs : List Char) := precision.elim cs fun n => if n < 0 then cs else cs.take n.toNat
  let put (cs : List Char) : List Char := pad p.flags width? ' ' [] cs
  match p.conversion with
  | 's' =>
    let (arg, f) := f.next
    f.say (put (cut (arg.getD "").toList))
  | 'q' =>
    let (arg, f) := f.next
    f.say (put ((arg.map (Quoting.shell false false)).getD "").toList)
  | 'c' =>
    let (arg, f) := f.next
    f.say (put [(arg.getD "").toList.headD (Char.ofNat 0)])
  | 'b' =>
    let (arg, f) := f.next
    let cs := (arg.getD "").toList
    let (text, stop) := d.unescape (cs.length + 1) cs
    { f.say (put (cut text)) with stop }
  | 'd' | 'i' =>
    let (n, f) := f.number d Int.ofNat signed
    f.say (ofNumber p.flags width? precision p.conversion n)
  | 'o' | 'u' | 'x' | 'X' =>
    let (n, f) := f.number d Int.ofNat unsigned
    f.say (ofNumber p.flags width? precision p.conversion n)
  | conversion =>
    let (x, f) := f.number d (fun n => .finite false n 1) (fractional d)
    f.say (ofReal (width d) p.flags width? precision conversion x)

def fill (d : Dialect) (f : Filling) (part : FormatPart) : Filling :=
  if f.stop != .atEnd then f
  else match part with
    | .text cs => f.say cs
    | .place p => fillPlace d f p

/-- A format is used again as long as it takes arguments and some are left. -/
def fillAll (d : Dialect) (parts : List FormatPart) : Nat → Filling → Filling
  | 0, f => f
  | fuel + 1, f =>
    let g := parts.foldl (fill d) f
    if g.args.isEmpty || g.stop != .atEnd || g.args.length = f.args.length then g
    else fillAll d parts fuel g

end Filling

/-- What is said of a format's end, and whether it is a mistake. -/
def endFormat (p : Process) (d : Dialect) : FormatEnd → Work Unit
  | .done => pure ()
  | .stopped => finish 0
  | .wrong flaw => complain p flaw
  | .badPlace text =>
    let shown := "%" ++ String.ofList text
    if d != .script then complain p (shown ++ ": invalid conversion specification")
    else if text.isEmpty then complain p "missing format character" 2
    else complain p (shown ++ ": invalid directive") 2

def printf (p : Process) (inScript : Bool) : Work Unit :=
  let args := match p.args with
    | "--" :: rest => rest
    | args => args
  match args with
  | [] =>
    if inScript then complain p "usage: printf format [arg ...]" 2
    else askForHelp p "missing operand"
  | format :: args => do
    let d : Dialect := if inScript then .script else .printing
    let (parts, stop) := d.parts (format.length + 1) format.toList
    let rounds := if stop matches .done then args.length + 1 else 1
    let f := Filling.fillAll d parts rounds { args }
    let parts := f.output.reverse
    let done ← f.flaws.reverse.foldlM (fun done (place, arg, flaw) => do
      if !inScript then print ((parts.take place).drop done).flatten
      match flaw with
      | .trailing _ => write errors (p.name ++ ": " ++ flaw.message d arg ++ "\n").toList
      | _ => complain p (flaw.message d arg)
      return if inScript then 0 else place) 0
    let text := (parts.drop done).flatten
    if !inScript then print text
    match f.stop with
    | .atEnd => endFormat p d stop
    | .early => if inScript then pure () else finish 0
    | .flawed flaw => complain p flaw
    if inScript then print text
    else if (stop matches .done) && f.stop = .atEnd && f.args.length = args.length then
      f.args.head?.forM fun arg => write errors
        (p.name ++ ": warning: ignoring excess arguments, starting with " ++ quoted arg ++
          "\n").toList

/-- Prints its arguments. Escapes in them count in scripts, and elsewhere if they are asked for. -/
def echo (p : Process) (inScript : Bool) : Work Unit := do
  let isOption (a : String) := if inScript then a = "-n"
    else Text.startsWith a "-" && a != "-" && (a.toList.drop 1).all fun c => "neE".toList.contains c
  let options := if inScript then p.args.take 1 |>.filter isOption else p.args.takeWhile isOption
  let letters := options.flatMap fun a => a.toList.drop 1
  let text := (Text.join " " (p.args.drop options.length)).toList
  let ending := if letters.contains 'n' then [] else ['\n']
  let escapes := inScript || (letters.filter (· != 'n')).getLast? = some 'e'
  if escapes then
    let d : Dialect := if inScript then .script else .echoing
    let (text, stop) := d.unescape (text.length + 1) text
    print (if stop = .atEnd then text ++ ending else text)
  else print (text ++ ending)

end LayerCache.Program
