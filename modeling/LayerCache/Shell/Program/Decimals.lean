import LayerCache.Decimal.Binary64
import LayerCache.Text.Ascii

/-! Numbers with fractions in the texts of programs: read as the nearest of some width, and
written with a number of places or of digits, rounded from their exact value with a half to the
even neighbour. -/
namespace LayerCache.Program.Decimals

/-- Digits with the power of ten they are counted in, and the rest. -/
def takeDecimal? (cs : List Char) : Option (Binary64.Decimal × List Char) := do
  let whole := cs.takeWhile Char.isDigit
  let rest := cs.drop whole.length
  let (part, rest) := match rest with
    | '.' :: more =>
      let part := more.takeWhile Char.isDigit
      (part, if whole.isEmpty && part.isEmpty then rest else more.drop part.length)
    | rest => ([], rest)
  let digits ← Chars.number? (whole ++ part)
  let (ten, rest) := match rest with
    | c :: more =>
      if c != 'e' && c != 'E' then (0, rest)
      else
        let (sign, digits) : Int × List Char := match more with
          | '-' :: digits => (-1, digits)
          | '+' :: digits => (1, digits)
          | digits => (1, digits)
        let power := digits.takeWhile Char.isDigit
        match Chars.number? power with
        | some n => (sign * (n : Int), digits.drop power.length)
        | none => (0, rest)
    | [] => (0, [])
  return (⟨digits, ten - part.length⟩, rest)

/-- Bits that a number is rounded to. -/
inductive Width where
  | double
  | extended
  deriving DecidableEq, Repr

def Width.bits : Width → Nat
  | double => 53
  | extended => 64

/-- A number in exact arithmetic. -/
inductive Real where
  | finite (negative : Bool) (num den : Nat)
  | infinite (negative : Bool)
  | nan
  deriving DecidableEq, Repr

/-- The power of two that leaves so many bits before the point. -/
def exponentFor (bits num den : Nat) : Int :=
  let guess := (num.log2 : Int) - den.log2
  let (n, d) := Binary64.overPower num den guess
  (if d ≤ n then guess else guess - 1) - ((bits : Int) - 1)

/-- Powers of ten beyond which nothing is finite or differs from zero. -/
def Width.farthestTen : Width → Int
  | double => 400
  | extended => 4950

/-- The nearest number of some width. -/
def Real.round (w : Width) (negative : Bool) (num den : Nat) : Real :=
  match w with
  | .double => match Binary64.ofFraction negative num den with
    | .finite negative mantissa exponent =>
      let (den, num) := Binary64.overPower 1 mantissa exponent
      .finite negative num den
    | .infinite negative => .infinite negative
    | .nan => .nan
  | .extended =>
    if num = 0 then .finite negative 0 1
    else
      let e := exponentFor w.bits num den
      let (n, d) := Binary64.overPower num den e
      let (den, num) := Binary64.overPower 1 (Binary64.roundDiv n d) e
      .finite negative num den

def Real.ofDecimal (w : Width) (negative : Bool) (d : Binary64.Decimal) : Real :=
  let magnitude := (Nat.repr d.digits).length + d.ten
  if d.digits = 0 || magnitude < -w.farthestTen then .finite negative 0 1
  else if w.farthestTen < magnitude then .infinite negative
  else
    let (num, den) := d.fraction
    .round w negative num den

def hexDigit? (c : Char) : Option Nat :=
  if c.isDigit then some (c.toNat - '0'.toNat)
  else if 'a' ≤ c.toLower && c.toLower ≤ 'f' then some (c.toLower.toNat - 'a'.toNat + 10)
  else none

/-- A number in hexadecimal digits behind `0x`, with a power of two if one is given, and the
rest. -/
def takeHexadecimal? (cs : List Char) : Option (Nat × Int × List Char) := do
  let whole := cs.takeWhile fun c => (hexDigit? c).isSome
  let rest := cs.drop whole.length
  let (part, rest) := match rest with
    | '.' :: more =>
      let part := more.takeWhile fun c => (hexDigit? c).isSome
      (part, if whole.isEmpty && part.isEmpty then rest else more.drop part.length)
    | rest => ([], rest)
  if whole.isEmpty && part.isEmpty then none
  else
    let n := (whole ++ part).foldl (fun n c => n * 16 + (hexDigit? c).getD 0) 0
    let least : Int := -4 * part.length
    match rest with
    | c :: more =>
      let (sign, digits) : Int × List Char := match more with
        | '-' :: digits => (-1, digits)
        | '+' :: digits => (1, digits)
        | digits => (1, digits)
      let power := digits.takeWhile Char.isDigit
      match if c = 'p' || c = 'P' then Chars.number? power else none with
      | some k => return (n, least + sign * (k : Int), digits.drop power.length)
      | none => return (n, least, rest)
    | [] => return (n, least, [])

/-- The number a text begins with, and what follows it; without one, zero and the whole text. -/
def leading (w : Width) (cs : List Char) : Real × List Char :=
  let (negative, rest) := match cs with
    | '-' :: rest => (true, rest)
    | '+' :: rest => (false, rest)
    | rest => (false, rest)
  let word := rest.map Char.toLower
  let decimal := match takeDecimal? rest with
    | some (d, rest) => (.ofDecimal w negative d, rest)
    | none => (.finite false 0 1, cs)
  if word.take 8 = "infinity".toList then (.infinite negative, rest.drop 8)
  else if word.take 3 = "inf".toList then (.infinite negative, rest.drop 3)
  else if word.take 3 = "nan".toList then (.nan, rest.drop 3)
  else if word.take 2 = "0x".toList then match takeHexadecimal? (rest.drop 2) with
    | some (n, two, rest) =>
      let (num, den) := Binary64.overPower n 1 (-two)
      (.round w negative num den, rest)
    | none => decimal
  else decimal

/-- Digits with a point before the last of them. -/
def pointed (places : Nat) (showsPoint : Bool) (n : Nat) : List Char :=
  let digits := Chars.padLeft (places + 1) (Nat.toDigits 10 n) '0'
  digits.take (digits.length - places) ++
    (if places = 0 && !showsPoint then [] else ['.']) ++ digits.drop (digits.length - places)

def fixed (places : Nat) (showsPoint : Bool) (num den : Nat) : List Char :=
  pointed places showsPoint (Binary64.roundDiv (num * Nat.pow 10 places) den)

/-- One digit before the point and some places behind it, with the power of ten. -/
def scaled (places : Nat) (num den : Nat) : Nat × Int :=
  if num = 0 then (0, 0)
  else
    let power := Binary64.places num den - 1
    let shift := (places : Int) - power
    let n := if shift < 0 then Binary64.roundDiv num (den * Nat.pow 10 shift.natAbs)
      else Binary64.roundDiv (num * Nat.pow 10 shift.natAbs) den
    if n = Nat.pow 10 (places + 1) then (n / 10, power + 1) else (n, power)

def scientific (places : Nat) (showsPoint : Bool) (num den : Nat) : List Char :=
  let (n, power) := scaled places num den
  pointed places showsPoint n ++ ['e', if power < 0 then '-' else '+'] ++
    Chars.padLeft 2 (Nat.toDigits 10 power.natAbs) '0'

/-- Zeros behind the point tell nothing, nor does a point with nothing behind it. -/
def withoutZeros (cs : List Char) : List Char :=
  let mantissa := cs.takeWhile (· != 'e')
  let kept := if mantissa.contains '.' then
      (match mantissa.reverse.dropWhile (· = '0') with
      | '.' :: rest => rest
      | rest => rest).reverse
    else mantissa
  kept ++ cs.drop mantissa.length

/-- So many digits in the shorter of the two ways. -/
def general (digits : Nat) (showsPoint : Bool) (num den : Nat) : List Char :=
  let digits := max 1 digits
  let power := (scaled (digits - 1) num den).2
  let text :=
    if power < -4 || (digits : Int) ≤ power then scientific (digits - 1) showsPoint num den
    else fixed ((digits : Int) - 1 - power).toNat showsPoint num den
  if showsPoint then text else withoutZeros text

/-- Hexadecimal digits and a power of two. -/
def hexadecimal (w : Width) (precision : Option Nat) (showsPoint : Bool) (num den : Nat) :
    List Char :=
  let all := (w.bits - 1) / 4
  let (lead, part, power) : Nat × Nat × Int :=
    if num = 0 then (0, 0, 0)
    else
      let e := exponentFor w.bits num den
      let (n, d) := Binary64.overPower num den e
      let mantissa := n / d
      (mantissa / Nat.pow 16 all, mantissa % Nat.pow 16 all, e + 4 * all)
  let count := precision.getD all
  let rounded := if count < all then
      Binary64.roundDiv (lead * Nat.pow 16 all + part) (Nat.pow 16 (all - count))
    else (lead * Nat.pow 16 all + part) * Nat.pow 16 (count - all)
  let digits := Chars.padLeft count (Nat.toDigits 16 (rounded % Nat.pow 16 count)) '0'
  let digits := if count = 0 then [] else digits
  let digits := if precision.isNone then (digits.reverse.dropWhile (· = '0')).reverse else digits
  ['0', 'x'] ++ Nat.toDigits 16 (rounded / Nat.pow 16 count) ++
    (if digits.isEmpty && !showsPoint then [] else ['.']) ++ digits ++
    ['p', if power < 0 then '-' else '+'] ++ Nat.toDigits 10 power.natAbs

/-- Whether a number is below zero, and how it is written without its sign. -/
def written (w : Width) (conversion : Char) (precision : Option Nat) (showsPoint : Bool)
    (x : Real) : Bool × List Char :=
  let upper := conversion.isUpper
  let places := precision.getD 6
  let (negative, text) := match x with
    | .nan => (false, ['n', 'a', 'n'])
    | .infinite negative => (negative, ['i', 'n', 'f'])
    | .finite negative num den => (negative, match conversion.toLower with
        | 'e' => scientific places showsPoint num den
        | 'f' => fixed places showsPoint num den
        | 'a' => hexadecimal w precision showsPoint num den
        | _ => general places showsPoint num den)
  (negative, if upper then text.map Char.toUpper else text)

end LayerCache.Program.Decimals
