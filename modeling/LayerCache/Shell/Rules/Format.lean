import LayerCache.Shell.Program.Format
import LayerCache.Shell.Rules.Value

/-! Values in the places of a format, and numbers written as texts. -/
namespace LayerCache.Rules

open Program (Filling)

namespace Format

inductive Flaw where
  | tooFew
  | badConversion (n : Nat)
  deriving DecidableEq, Repr

def Flaw.message (who : String) (format : List Char) : Flaw → String
  | tooFew => "not enough arguments passed to " ++ who ++ "(\"" ++ String.ofList format ++ "\")"
  | badConversion n => "improper conversion(number " ++ toString n ++ ") in " ++ who ++ "(\"" ++
      String.ofList format ++ "\")"

/-- A number as the conversions without a sign take it. -/
def unsigned (n : Int) : Int := n.emod Figure.word

/-- The number in decimal digits of a format, with its sign removed. -/
def number (x : Float) (form : List Char) : List Char :=
  match Figure.wholeText? x with
  | some cs => cs
  | none => ofFormat form
where
  ofFormat (form : List Char) : List Char :=
    let flags := (form.drop 1).takeWhile "-+ #0".toList.contains
    let rest := form.drop (1 + flags.length)
    let width := rest.takeWhile Char.isDigit
    let rest := rest.drop width.length
    let (precision, rest) := match rest with
      | '.' :: rest =>
        let digits := rest.takeWhile Char.isDigit
        (some (((Chars.number? digits).getD 0 : Nat) : Int), rest.drop digits.length)
      | rest => (none, rest)
    real flags ((Chars.number? width).map fun n => (n : Int)) precision (rest.headD 'g') x
  /-- A number that is none is shown below zero. -/
  real (flags : List Char) (width precision : Option Int) (conversion : Char) (x : Float) :
      List Char :=
    match Figure.exact x with
    | .nan => Filling.pad flags width ' ' []
        (if conversion.isUpper then "-NAN".toList else "-nan".toList)
    | r => Filling.ofReal .double flags width precision conversion r

end Format

/-- A value as a text; a format says how fractions are written. -/
def Value.toList (form : List Char) : Value → List Char
  | unset => []
  | number x => Format.number x form
  | text cs | given cs => cs

namespace Format

/-- A value in a place of its own. -/
def put (form flags : List Char) (width precision : Option Int) (conversion : Char)
    (value : Value) : Option (List Char) :=
  let x := value.toFloat
  let whole := Figure.clamp x
  match conversion with
  | 's' =>
    let cs := value.toList form
    let cs := match precision with
      | some n => if n < 0 then cs else cs.take n.toNat
      | none => cs
    some (Filling.pad flags width ' ' [] cs)
  | 'c' =>
    let c := match value.number?, value with
      | some x, .number _ | some x, .given _ | some x, .unset =>
        if value matches .unset then Char.ofNat 0 else Char.ofNat ((Figure.clamp x).emod 256).toNat
      | _, _ => (value.toList form).headD (Char.ofNat 0)
    some (Filling.pad flags width ' ' [] [c])
  | 'd' | 'i' => some (Filling.ofNumber flags width precision 'd' whole)
  | 'o' | 'u' | 'x' | 'X' => some (Filling.ofNumber flags width precision conversion (unsigned whole))
  | 'e' | 'E' | 'f' | 'g' | 'G' => some (number.real flags width precision conversion x)
  | _ => none

/-- A width or precision, perhaps taken from the values. -/
def measure (cs : List Char) (values : List Value) :
    Option (Option Int × List Char × List Value) :=
  match cs, values with
  | '*' :: rest, value :: values => some (some (Figure.clamp value.toFloat), rest, values)
  | '*' :: _, [] => none
  | cs, values =>
    let digits := cs.takeWhile Char.isDigit
    some ((Chars.number? digits).map fun n => (n : Int), cs.drop digits.length, values)

/-- The text of a format with values in its places. It ends at the first mistake. -/
def fill (form : List Char) :
    Nat → Nat → List Char → List Value → List (List Char) × Option Flaw
  | 0, _, _, _ => ([], none)
  | fuel + 1, count, cs, values => match cs with
    | [] => ([], none)
    | '%' :: '%' :: rest => on [('%' : Char)] (fill form fuel count rest values)
    | '%' :: rest =>
      let flags := rest.takeWhile "-+ #0".toList.contains
      let place? := do
        let (width, rest, values) ← measure (rest.drop flags.length) values
        match rest with
        | '.' :: rest =>
          let (precision, rest, values) ← measure rest values
          return (width, some (precision.getD 0), rest, values)
        | rest => return (width, none, rest, values)
      match place? with
      | none => ([], some .tooFew)
      | some (_, _, _, []) => ([], some .tooFew)
      | some (width, precision, rest, value :: values) =>
        let size := rest.takeWhile "hl".toList.contains
        match rest.drop size.length with
        | [] => ([], some (.badConversion (count + 1)))
        | c :: rest =>
          if 1 < size.length || (!size.isEmpty && !"dioxXu".toList.contains c) then
            ([], some (.badConversion (count + 1)))
          else match put form flags width precision c value with
            | none => ([], some (.badConversion (count + 1)))
            | some text => on text (fill form fuel (count + 1) rest values)
    | cs =>
      let plain := cs.takeWhile (· != '%')
      on plain (fill form fuel count (cs.drop plain.length) values)
where
  on (text : List Char) (others : List (List Char) × Option Flaw) :
      List (List Char) × Option Flaw :=
    (text :: others.1, others.2)

end Format
end LayerCache.Rules
