/-! Numbers of the 64-bit binary floating point format, in exact arithmetic: the nearest one to a
decimal, and the shortest decimal that is nearest to it alone. -/
namespace LayerCache

/-- `finite` stands for the mantissa times a power of two. -/
inductive Binary64 where
  | finite (negative : Bool) (mantissa : Nat) (exponent : Int)
  | infinite (negative : Bool)
  | nan
  deriving DecidableEq, Repr

namespace Binary64

def twoTo (n : Nat) : Nat := Nat.pow 2 n

def tenTo (n : Nat) : Nat := Nat.pow 10 n

def leastExponent : Int := -1074

def mostExponent : Int := 971

/-- The quotient to the nearest whole number, a half to the even neighbour. -/
def roundDiv (num den : Nat) : Nat :=
  let q := num / den
  let r := num % den
  if den < 2 * r ∨ (2 * r = den ∧ q % 2 = 1) then q + 1 else q

/-- A fraction over a power of two, as a fraction. -/
def overPower (num den : Nat) (exponent : Int) : Nat × Nat :=
  if exponent < 0 then (num * twoTo exponent.natAbs, den) else (num, den * twoTo exponent.natAbs)

/-- The power of two that leaves 53 bits before the point, or the least one there is. -/
def exponentFor (num den : Nat) : Int :=
  let guess := (num.log2 : Int) - den.log2
  let (n, d) := overPower num den guess
  max leastExponent ((if d ≤ n then guess else guess - 1) - 52)

def ofFraction (negative : Bool) (num den : Nat) : Binary64 :=
  if num = 0 then finite negative 0 leastExponent
  else
    let e := exponentFor num den
    let (n, d) := overPower num den e
    let m := roundDiv n d
    let (m, e) := if m = twoTo 53 then (twoTo 52, e + 1) else (m, e)
    if mostExponent < e then infinite negative else finite negative m e

/-- Decimals beyond these powers of ten are infinite or zero whatever their digits. -/
def farthestTen : Int := 400

/-- The number nearest to `digits` times a power of ten. -/
def ofDecimal (negative : Bool) (digits : Nat) (ten : Int) : Binary64 :=
  let magnitude := (Nat.repr digits).length + ten
  if digits = 0 ∨ magnitude < -farthestTen then finite negative 0 leastExponent
  else if farthestTen < magnitude then infinite negative
  else if ten < 0 then ofFraction negative digits (tenTo ten.natAbs)
  else ofFraction negative (digits * tenTo ten.natAbs) 1

/-- The number of decimal places before the point, negative for leading zeros after it. -/
def places (num den : Nat) : Int :=
  if den ≤ num then (Nat.repr (num / den)).length
  else
    let q := den / num
    let n := (Nat.repr q).length
    (if num * tenTo (n - 1) < den then 1 else 2) - (n : Int)

/-- Digits with the power of ten they are counted in. -/
structure Decimal where
  digits : Nat
  ten : Int
  deriving DecidableEq, Repr

def Decimal.fraction (d : Decimal) : Nat × Nat :=
  if d.ten < 0 then (d.digits, tenTo d.ten.natAbs) else (d.digits * tenTo d.ten.natAbs, 1)

/-- Between the midpoints to the two neighbours; a midpoint itself belongs to the even one. -/
def nearestTo (mantissa : Nat) (exponent : Int) (d : Decimal) : Bool :=
  let (num, den) := d.fraction
  let (n, m) := overPower num den (exponent - 2)
  let low := 4 * mantissa - (if mantissa = twoTo 52 ∧ leastExponent < exponent then 1 else 2)
  let high := 4 * mantissa + 2
  if mantissa % 2 = 0 then low * m ≤ n && n ≤ high * m else low * m < n && n < high * m

/-- The decimal with the given count of digits that is nearest, if it stands for this number. -/
def onGrid (mantissa : Nat) (exponent : Int) (count : Nat) : Option Decimal :=
  let (den, num) := overPower 1 mantissa exponent
  let ten := places num den - count
  let (n, d) := if ten < 0 then (num * tenTo ten.natAbs, den) else (num, den * tenTo ten.natAbs)
  let below : Decimal := ⟨n / d, ten⟩
  let above : Decimal := ⟨n / d + 1, ten⟩
  match nearestTo mantissa exponent below, nearestTo mantissa exponent above with
  | true, true => some (if 2 * (n % d) < d then below else above)
  | true, false => some below
  | false, true => some above
  | false, false => none

/-- Seventeen digits always do. -/
def shortest (mantissa : Nat) (exponent : Int) : Decimal :=
  ((List.range 17).findSome? fun k => onGrid mantissa exponent (k + 1)).getD ⟨0, 0⟩

/-- Written without an exponent; whole numbers end in a point and a zero. -/
def Decimal.positional (d : Decimal) : String :=
  let digits := Nat.repr d.digits
  if 0 ≤ d.ten then digits ++ "".pushn '0' d.ten.natAbs ++ ".0"
  else
    let padded := "".pushn '0' (d.ten.natAbs + 1 - digits.length) ++ digits
    let front := padded.length - d.ten.natAbs
    String.ofList (padded.toList.take front) ++ "." ++ String.ofList (padded.toList.drop front)

/-- Zeros at the end of the digits go into the power of ten. -/
def Decimal.stripZeros : Nat → Decimal → Decimal
  | 0, d => d
  | n + 1, d =>
    if d.digits ≠ 0 ∧ d.digits % 10 = 0 then stripZeros n ⟨d.digits / 10, d.ten + 1⟩ else d

def render : Binary64 → String
  | nan => "nan"
  | infinite negative => if negative then "-inf" else "inf"
  | finite negative mantissa exponent =>
    let sign := if negative then "-" else ""
    if mantissa = 0 then sign ++ "0.0"
    else sign ++ ((shortest mantissa exponent).stripZeros 20).positional

end Binary64
end LayerCache
