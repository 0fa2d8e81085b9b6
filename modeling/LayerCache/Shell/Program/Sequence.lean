import LayerCache.Shell.Program.Decimals
import LayerCache.Shell.Program.Options

/-! Numbers counted up or down, which may have fractions. They are counted exactly. -/
namespace LayerCache.Program

namespace Sequence

/-- A number as it was given: its value as a fraction, the columns it takes, and its places. -/
structure Figure where
  num : Int
  den : Nat
  width : Int
  places : Int
  isEndless : Bool := false
  deriving Repr

/-- Columns and places of a text for a number. -/
def measures (cs : List Char) : Int × Int :=
  let whole := cs.takeWhile fun c => c != 'e' && c != 'E'
  let hasPower := whole.length < cs.length
  let before := whole.takeWhile (· != '.')
  let hasPoint := before.length < whole.length
  let part := whole.drop (before.length + 1)
  let exponent : Int := if hasPower then (Chars.int? (cs.drop (whole.length + 1))).getD 0 else 0
  let partLength : Int := part.length
  let width : Int := whole.length +
    if !hasPoint then 0
    else if part.isEmpty then -1
    else if before.getLast?.any Char.isDigit then 0 else 1
  let places : Int := if hasPoint then partLength else 0
  if !hasPower then (width, places)
  else if exponent < 0 then
    (width + (if !hasPoint || part.isEmpty then 1 else 0) - exponent, places - exponent)
  else
    let left := places - min places exponent
    let width := if hasPoint && left = 0 && !part.isEmpty then width - 1 else width
    (width + exponent - min partLength exponent, left)

inductive Reading where
  | number (g : Figure)
  | noNumber
  | notANumber

def hexValue (c : Char) : Option Nat :=
  if c.isDigit then some (c.toNat - 48)
  else if 'a' ≤ c.toLower && c.toLower ≤ 'f' then some (c.toLower.toNat - 87)
  else none

def read (text : String) : Reading :=
  let cs := text.toList.dropWhile fun c => c = ' ' || ('\t' ≤ c && c ≤ '\r') || c = '+'
  let (sign, bare) : Int × List Char := match cs with
    | '-' :: rest => (-1, rest)
    | rest => (1, rest)
  let word := bare.map Char.toLower
  if word = "nan".toList then .notANumber
  else if word = "inf".toList || word = "infinity".toList then .number ⟨sign, 1, 0, 0, true⟩
  else match bare with
    | '0' :: x :: digits =>
      if x = 'x' || x = 'X' then match digits.mapM hexValue with
        | some (d :: ds) =>
          .number ⟨sign * ((d :: ds).foldl (fun n d => n * 16 + d) 0 : Nat), 1, 0, 0, false⟩
        | _ => .noNumber
      else decimal sign bare cs
    | _ => decimal sign bare cs
where
  decimal (sign : Int) (bare cs : List Char) : Reading :=
    match Decimals.takeDecimal? bare with
    | some (d, []) =>
      let (width, places) := measures cs
      if d.ten < 0 then .number ⟨sign * d.digits, Nat.pow 10 d.ten.natAbs, width, places, false⟩
      else .number ⟨sign * (d.digits * Nat.pow 10 d.ten.natAbs : Nat), 1, width, places, false⟩
    | _ => .noNumber

/-- How a number is written within other text. -/
structure Form where
  opening : List Char := []
  flags : List Char := []
  width : Nat := 0
  precision : Option Nat := none
  conversion : Char := 'f'
  closing : List Char := []

/-- Text up to a percent sign that is not doubled, and the rest from there. -/
def plainText : List Char → List Char × List Char
  | '%' :: '%' :: rest =>
    let (text, rest) := plainText rest
    ('%' :: text, rest)
  | '%' :: rest => ([], '%' :: rest)
  | c :: rest =>
    let (text, rest) := plainText rest
    (c :: text, rest)
  | [] => ([], [])

def form? (text : String) : Except String Form :=
  let flaw (what : String) : Except String Form := .error ("format " ++ quoted text ++ " " ++ what)
  match plainText text.toList with
  | (_, []) => flaw "has no % directive"
  | (opening, _ :: rest) =>
    let flags := rest.takeWhile "-+#0 '".toList.contains
    let rest := rest.drop flags.length
    let width := rest.takeWhile Char.isDigit
    let rest := rest.drop width.length
    let (precision, rest) := match rest with
      | '.' :: more =>
        let digits := more.takeWhile Char.isDigit
        (some ((Chars.number? digits).getD 0), more.drop digits.length)
      | rest => (none, rest)
    let rest := match rest with
      | 'L' :: rest => rest
      | rest => rest
    match rest with
    | [] => flaw "ends in %"
    | c :: rest =>
      if !"efgaEFGA".toList.contains c then
        flaw ("has unknown %" ++ String.singleton c ++ " directive")
      else match plainText rest with
        | (closing, []) =>
          .ok ⟨opening, flags, (Chars.number? width).getD 0, precision, c, closing⟩
        | _ => flaw "has too many % directives"

def Form.write (f : Form) (num : Int) (den : Nat) : List Char :=
  let digits := f.precision.getD 6
  let showsPoint := f.flags.contains '#'
  let body := match f.conversion.toLower with
    | 'e' => Decimals.scientific digits showsPoint num.natAbs den
    | 'f' => Decimals.fixed digits showsPoint num.natAbs den
    | _ => Decimals.general digits showsPoint num.natAbs den
  let body := if f.conversion.isUpper then body.map Char.toUpper else body
  let lead := if num < 0 then ['-'] else if f.flags.contains '+' then ['+']
    else if f.flags.contains ' ' then [' '] else []
  let missing := f.width - lead.length - body.length
  let padded := if f.flags.contains '-' then lead ++ body ++ List.replicate missing ' '
    else if f.flags.contains '0' then lead ++ List.replicate missing '0' ++ body
    else List.replicate missing ' ' ++ lead ++ body
  f.opening ++ padded ++ f.closing

/-- The form that shows numbers as they were given, in one width if that is asked for. -/
def usualForm (equal : Bool) (first step last : Figure) : Form :=
  let places := max first.places step.places
  let widen (g : Figure) : Int := g.width + (places - g.places) +
    if g.places = 0 && 0 < places then 1 else 0
  let firstWidth := first.width + (places - first.places) +
    if first.places = 0 && 0 < places then 1 else 0
  let lastWidth := if 0 < last.places && places = 0 then last.width - last.places - 1
    else widen last
  { flags := if equal then ['0'] else []
    width := if equal then (max firstWidth lastWidth).toNat else 0
    precision := some places.toNat }

/-- As many numbers of an endless sequence as anyone takes. -/
def mostNumbers : Nat := 100000

/-- How many numbers there are. -/
def count (first step last : Figure) : Nat :=
  if last.isEndless then if (0 < step.num) = (0 < last.num) then mostNumbers else 0
  else
    let distance := (last.num * first.den - first.num * last.den) * step.den
    let stride := step.num * (last.den * first.den)
    if distance * stride < 0 then 0 else (distance.natAbs / stride.natAbs) + 1

/-- The number of an index over a common denominator. -/
def number (first step : Figure) (i : Nat) : Int × Nat :=
  (first.num * step.den + i * step.num * first.den, first.den * step.den)

def usage : Usage where
  bare := "w"
  valued := "sf"
  long := [("equal-width", 'w'), ("format=", 'f'), ("separator=", 's')]
  anywhere := false

/-- Options end where numbers begin, be they below zero. -/
def cutOptions : List String → List String × List String
  | [] => ([], [])
  | a :: rest =>
    let isNumber := match a.toList with
      | '-' :: c :: _ => c.isDigit || c = '.'
      | _ => false
    if isNumber || !Text.startsWith a "-" || a = "-" then ([], a :: rest)
    else if a = "--" then ([a], rest)
    else
      let waits := a = "-s" || a = "-f" || a = "-ws" || a = "-wf" ||
        (Text.startsWith a "--s" || Text.startsWith a "--f") && !a.toList.contains '='
      match waits, rest with
      | true, value :: rest =>
        let (options, operands) := cutOptions rest
        (a :: value :: options, operands)
      | _, rest =>
        let (options, operands) := cutOptions rest
        (a :: options, operands)

end Sequence

open Sequence in
def sequence (p : Process) : Work Unit :=
  let (options, operands) := Sequence.cutOptions p.args
  withOptions { p with args := options } Sequence.usage fun o => do
    let form : Except String (Option Form) := match o.value? 'f' with
      | none => .ok none
      | some text => (form? text).map some
    let given : Except String (List Figure) := operands.mapM fun a => match Sequence.read a with
      | .number g => .ok g
      | .noNumber => .error ("invalid floating point argument: " ++ quoted a)
      | .notANumber => .error ("invalid 'not-a-number' argument: " ++ quoted a)
    if operands.isEmpty then askForHelp p "missing operand"
    else if 3 < operands.length then
      askForHelp p ("extra operand " ++ quoted ((operands[3]?).getD ""))
    else match form, given with
      | .error text, _ => complain p text
      | _, .error text => askForHelp p text
      | .ok form, .ok given =>
        let one : Figure := ⟨1, 1, 1, 0, false⟩
        let (first, step, last) := match given with
          | [last] => (one, one, last)
          | [first, last] => (first, one, last)
          | [first, step, last] => (first, step, last)
          | _ => (one, one, one)
        if step.num = 0 then
          askForHelp p ("invalid Zero increment value: " ++ quoted ((operands[1]?).getD ""))
        else if form.isSome && o.has 'w' then
          askForHelp p "format string may not be specified when printing equal width strings"
        else
          let form := form.getD (usualForm (o.has 'w') first step last)
          let isMinusZero := first.num = 0 && operands.length != 1 &&
            (operands.head?.getD "").toList.contains '-'
          let texts := (List.range (count first step last)).map fun i =>
            let (num, den) := number first step i
            (if i = 0 && isMinusZero then ['-'] else []) ++ form.write num den
          if !texts.isEmpty then
            printLine (texts.intersperse ((o.value? 's').getD "\n").toList).flatten

end LayerCache.Program
