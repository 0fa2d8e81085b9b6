import LayerCache.Shell.Program.Decimals

/-! Values of rules: numbers, texts, and texts from outside that may stand for numbers. -/
namespace LayerCache.Rules

open Program (Decimals.Real)

inductive Value where
  | unset
  | number (x : Float)
  | text (cs : List Char)
  /-- A text from outside. If it looks like a number it counts as one. -/
  | given (cs : List Char)
  deriving Inhabited

namespace Figure

/-- The exact value of a number. -/
def exact (x : Float) : Decimals.Real :=
  let bits := x.toBits.toNat
  let negative := bits / Nat.pow 2 63 = 1
  let exponent := bits / Nat.pow 2 52 % 2048
  let mantissa := bits % Nat.pow 2 52
  if exponent = 2047 then if mantissa = 0 then .infinite negative else .nan
  else
    let (m, e) : Nat × Int := if exponent = 0 then (mantissa, -1074)
      else (mantissa + Nat.pow 2 52, exponent - 1075)
    let (den, num) := Binary64.overPower 1 m e
    .finite negative num den

def ofFraction (negative : Bool) (num den : Nat) : Float :=
  let x := match Binary64.ofFraction negative num den with
    | .finite _ mantissa exponent => (Float.ofNat mantissa).scaleB exponent
    | .infinite _ => 1.0 / 0.0
    | .nan => 0.0 / 0.0
  if negative then -x else x

def ofExact (r : Decimals.Real) : Float :=
  match r with
  | .finite negative num den => ofFraction negative num den
  | .infinite negative => if negative then -1.0 / 0.0 else 1.0 / 0.0
  | .nan => 0.0 / 0.0

def ofInt (n : Int) : Float := ofFraction (n < 0) n.natAbs 1

def ofBool (b : Bool) : Float := if b then 1.0 else 0.0

def isBlank (c : Char) : Bool := c = ' ' || ('\t' ≤ c && c ≤ '\r')

/-- The number a text begins with, and what follows it. -/
def leading (cs : List Char) : Float × List Char :=
  let (r, rest) := Program.Decimals.leading .double (cs.dropWhile isBlank)
  (ofExact r, rest)

/-- The number that all of a text spells, with blanks around it. It ends with a digit or a point. -/
def whole? (cs : List Char) : Option Float :=
  let inner := ((cs.dropWhile isBlank).reverse.dropWhile isBlank).reverse
  let word := (inner.dropWhile fun c => c = '+' || c = '-').map Char.toLower
  let isName := word = "inf".toList || word = "nan".toList
  if !isName && !inner.getLast?.any fun c => c.isDigit || c = '.' then none
  else match leading inner with
    | (x, []) => some x
    | _ => none

/-- The whole part of a number, if it is finite. -/
def truncated? (x : Float) : Option Int :=
  match exact x with
  | .finite negative num den => some (if negative then -(num / den : Nat) else (num / den : Nat))
  | _ => none

/-- A number without a fraction. -/
def toInt? (x : Float) : Option Int :=
  match exact x with
  | .finite negative num den =>
    if num % den != 0 then none
    else some (if negative then -(num / den : Nat) else (num / den : Nat))
  | _ => none

/-- The words that whole numbers are held in. -/
def word : Int := 18446744073709551616

/-- What is left of a whole number in a word: large ones stop at its ends. -/
def clamp (x : Float) : Int :=
  match exact x with
  | .nan => -word / 2
  | .infinite negative => if negative then 1 - word / 2 else word - 1
  | .finite .. =>
    let n := (truncated? x).getD 0
    if n < -word / 2 then 1 - word / 2 else min n (word - 1)

/-- A number without a fraction as it is written; ones that no word holds are not. -/
def wholeText? (x : Float) : Option (List Char) :=
  (toInt? x).bind fun n =>
    if n < -word / 2 || word < n then none else some (toString (min n (word - 1))).toList

/-- The remainder of a division, with the sign of what was divided. -/
def remainder (x y : Float) : Float :=
  match exact x, exact y with
  | .finite negative a b, .finite _ c d =>
    if c = 0 then 0.0 / 0.0 else ofFraction negative (a * d % (c * b)) (b * d)
  | .finite .., .infinite _ => x
  | _, _ => 0.0 / 0.0

end Figure

namespace Value

def ofNat (n : Nat) : Value := number (Figure.ofInt n)

def ofBool (b : Bool) : Value := number (Figure.ofBool b)

def toFloat : Value → Float
  | unset => 0.0
  | number x => x
  | text cs | given cs => (Figure.leading cs).1

/-- A value that is compared as a number, if it is one. -/
def number? : Value → Option Float
  | unset => some 0.0
  | number x => some x
  | text _ => none
  | given cs => Figure.whole? cs

def holds : Value → Bool
  | unset => false
  | number x => x != 0.0
  | text cs => !cs.isEmpty
  | given cs => match Figure.whole? cs with
    | some x => x != 0.0
    | none => !cs.isEmpty

end Value
end LayerCache.Rules
