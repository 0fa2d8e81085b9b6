import LayerCache.Json.Reader
import LayerCache.Toml.Basic

/-! Reading numbers, dates and times. Each reader takes as much as it can and returns the rest. -/
namespace LayerCache.Toml.Scalar

abbrev Chars := List Char

def isDigit (c : Char) : Bool := Json.isDigit c

def digitsValue (cs : Chars) : Nat := Json.digitsValue cs

/-- Digits that may be parted by single underscores. -/
def moreDigits (digit : Char → Bool) : Chars → Option (Chars × Chars)
  | [] => some ([], [])
  | '_' :: c :: rest =>
    if digit c then (moreDigits digit rest).map fun (read, rest) => (c :: read, rest) else none
  | c :: rest =>
    if digit c then (moreDigits digit rest).map fun (read, rest) => (c :: read, rest)
    else if c == '_' then none
    else some ([], c :: rest)

def someDigits (digit : Char → Bool) : Chars → Option (Chars × Chars)
  | c :: rest =>
    if digit c then (moreDigits digit rest).map fun (read, rest) => (c :: read, rest) else none
  | [] => none

def sign : Chars → Option Char × Chars
  | '+' :: rest => (some '+', rest)
  | '-' :: rest => (some '-', rest)
  | cs => (none, cs)

/-- The digits of a decimal number; none follow a zero in front. -/
def decimalDigits : Chars → Option (Chars × Chars)
  | '0' :: rest => some (['0'], rest)
  | cs => someDigits isDigit cs

def least64 : Int := -0x8000000000000000

def most64 : Int := 0x7fffffffffffffff

def bounded (n : Int) : Option Toml :=
  if least64 ≤ n ∧ n ≤ most64 then some (.integer n) else none

def hexDigit (c : Char) : Bool := (Json.hexValue c).isSome

def octalDigit (c : Char) : Bool := '0' ≤ c && c ≤ '7'

def binaryDigit (c : Char) : Bool := c == '0' || c == '1'

def inBase (base : Nat) (cs : Chars) : Nat :=
  cs.foldl (fun n c => n * base + (Json.hexValue c).getD 0) 0

def based (base : Nat) (digit : Char → Bool) (cs : Chars) : Option (Toml × Chars) := do
  let (digits, rest) ← someDigits digit cs
  return (← bounded (inBase base digits), rest)

def fraction : Chars → Option (Chars × Chars)
  | '.' :: rest => someDigits isDigit rest
  | cs => some ([], cs)

/-- The power of ten after an `e`, if there is one. -/
def power : Chars → Option (Option Int × Chars)
  | c :: rest =>
    if c == 'e' || c == 'E' then do
      let (s, rest) := sign rest
      let (digits, rest) ← someDigits isDigit rest
      let n : Int := digitsValue digits
      return (some (if s == some '-' then -n else n), rest)
    else some (none, c :: rest)
  | [] => some (none, [])

def special (cs : Chars) : Option (Binary64 × Chars) :=
  let (s, rest) := sign cs
  match rest with
  | 'i' :: 'n' :: 'f' :: rest => some (.infinite (s == some '-'), rest)
  | 'n' :: 'a' :: 'n' :: rest => some (.nan, rest)
  | _ => none

/-- Too large a number is refused, unless it is negative. -/
def decimal (cs : Chars) : Option (Toml × Chars) := do
  let (s, unsigned) := sign cs
  let negative := s == some '-'
  let (whole, rest) ← decimalDigits unsigned
  let (part, rest') ← fraction rest
  let (ten, rest') ← power rest'
  if part.isEmpty && ten.isNone then
    let n : Int := digitsValue whole
    return (← bounded (if negative then -n else n), rest)
  else
    let value := Binary64.ofDecimal negative (digitsValue (whole ++ part))
      (ten.getD 0 - part.length)
    if value = .infinite false then none else return (.float value, rest')

def number (cs : Chars) : Option (Toml × Chars) :=
  match cs with
  | '0' :: 'x' :: rest => based 16 hexDigit rest
  | '0' :: 'o' :: rest => based 8 octalDigit rest
  | '0' :: 'b' :: rest => based 2 binaryDigit rest
  | _ => match special cs with
    | some (value, rest) => some (.float value, rest)
    | none => decimal cs

/-- Exactly so many digits, up to a greatest value. -/
def fixed (count least most : Nat) (cs : Chars) : Option (Nat × Chars) :=
  let digits := cs.take count
  let n := digitsValue digits
  if digits.length = count ∧ digits.all isDigit ∧ least ≤ n ∧ n ≤ most then some (n, cs.drop count)
  else none

def mark (c : Char) : Chars → Option Chars
  | d :: rest => if c == d then some rest else none
  | [] => none

def date (cs : Chars) : Option (Date × Chars) := do
  let (year, rest) ← fixed 4 0 9999 cs
  let rest ← mark '-' rest
  let (month, rest) ← fixed 2 1 12 rest
  let rest ← mark '-' rest
  let (day, rest) ← fixed 2 1 (daysIn year month) rest
  return (⟨year, month, day⟩, rest)

/-- Digits past the ninth are dropped. -/
def nanoseconds (cs : Chars) : Nat × Chars :=
  match cs with
  | '.' :: rest =>
    let digits := rest.takeWhile isDigit
    if digits.isEmpty then (0, cs)
    else
      let kept := digits.take 9
      (digitsValue kept * Nat.pow 10 (9 - kept.length), rest.dropWhile isDigit)
  | _ => (0, cs)

/-- A minute may have a leap second. -/
def time (cs : Chars) : Option (Time × Chars) := do
  let (hour, rest) ← fixed 2 0 23 cs
  let rest ← mark ':' rest
  let (minute, rest) ← fixed 2 0 59 rest
  let rest ← mark ':' rest
  let (second, rest) ← fixed 2 0 60 rest
  let (nano, rest) := nanoseconds rest
  return (⟨hour, minute, second, nano⟩, rest)

def offset (cs : Chars) : Option (Option Offset × Chars) :=
  match cs with
  | c :: rest =>
    if c == 'Z' || c == 'z' then some (some .universal, rest)
    else if c == '+' || c == '-' then do
      let (hours, rest) ← fixed 2 0 23 rest
      let rest ← mark ':' rest
      let (minutes, rest) ← fixed 2 0 59 rest
      let count := hours * 60 + minutes
      return (some (.minutes (c == '-' && count != 0) count), rest)
    else some (none, cs)
  | [] => some (none, [])

/-- After a date a time may follow, with a separator and perhaps an offset. -/
def afterDate (d : Date) (cs : Chars) : Option (Datetime × Chars) :=
  let alone := some (⟨some d, none, none⟩, cs)
  match cs with
  | c :: rest =>
    if c == 'T' || c == 't' || c == ' ' then
      match time rest with
      | some (t, rest) => (offset rest).map fun (o, rest) => (⟨some d, some t, o⟩, rest)
      | none => alone
    else alone
  | [] => alone

def datetime (cs : Chars) : Option (Datetime × Chars) :=
  match date cs with
  | some (d, rest) => afterDate d rest
  | none => (time cs).map fun (t, rest) => (⟨none, some t, none⟩, rest)

def numeral (cs : Chars) : Option (Toml × Chars) :=
  match datetime cs with
  | some (d, rest) => some (.datetime d, rest)
  | none => number cs

end LayerCache.Toml.Scalar

/-! Tables that stand for dates: the first key says so, and its text is the date. The table at the
top is always a table. -/
namespace LayerCache.Toml

def dateKey : String := "$__toml_private_datetime"

def marked? : Fields → Option Toml
  | (key, value) :: _ => if key = dateKey then some value else none
  | [] => none

def dateOf? : Toml → Option Toml
  | .text s => match Scalar.datetime s.toList with
    | some (d, []) => some (.datetime d)
    | _ => none
  | _ => none

mutual

/-- A value with the dates its tables stand for, unless one of them is none. -/
def reveal : Toml → Option Toml
  | .array items => (revealItems items).map .array
  | .table fields => match marked? fields with
    | some value => dateOf? value
    | none => (revealFields fields).map .table
  | v => some v

def revealItems : List Toml → Option (List Toml)
  | [] => some []
  | item :: items => do return (← reveal item) :: (← revealItems items)

def revealFields : List (String × Toml) → Option Fields
  | [] => some []
  | (key, value) :: fields => do return (key, ← reveal value) :: (← revealFields fields)

end

@[simp] theorem reveal_empty_table : reveal (.table []) = some (.table []) := rfl

end LayerCache.Toml
