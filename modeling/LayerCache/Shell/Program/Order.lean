import LayerCache.Text.Ascii

/-! The order of names with numbers in them, in which `f9` stands before `f10`. -/
namespace LayerCache.Program.Version

/-- The weight of what stands first: the end, letters, and other characters behind them; a tilde
stands before everything. -/
def weight : List Char → Int
  | [] => -1
  | c :: _ =>
    if c.isDigit then 0 else if c.isAlpha then c.toNat else if c = '~' then -2
    else (c.toNat + 256 : Nat)

/-- Compares pieces without digits and numbers in turn. -/
def compareParts : Nat → List Char → List Char → Ordering
  | 0, _, _ => .eq
  | fuel + 1, a, b =>
    if a.isEmpty && b.isEmpty then .eq
    else if a.head?.any (!Char.isDigit ·) || b.head?.any (!Char.isDigit ·) then
      (compare (weight a) (weight b)).then (compareParts fuel a.tail b.tail)
    else
      let number (cs : List Char) : List Char := (cs.takeWhile Char.isDigit).dropWhile (· = '0')
      let rest (cs : List Char) : List Char := cs.dropWhile Char.isDigit
      ((compare (number a).length (number b).length).then
        (if number a < number b then .lt else if number b < number a then .gt else .eq)).then
        (compareParts fuel (rest a) (rest b))

/-- What is left behind the endings of a name that stand next. -/
def dropEndings : Nat → List Char → List Char
  | 0, cs => cs
  | fuel + 1, '.' :: c :: rest =>
    if c.isAlpha || c = '~' then dropEndings fuel (rest.dropWhile fun d => d.isAlphanum || d = '~')
    else '.' :: c :: rest
  | _ + 1, cs => cs

/-- A name without the endings that it closes with. -/
def stem : Nat → List Char → List Char
  | 0, cs => cs
  | _ + 1, [] => []
  | fuel + 1, c :: rest =>
    let after := dropEndings rest.length rest
    if after.isEmpty then [c]
    else c :: rest.take (rest.length - after.length) ++ stem fuel after

/-- How names with a dot in front rank. -/
def rank (cs : List Char) : Nat :=
  if cs.isEmpty then 0 else if cs = ['.'] then 1 else if cs = ['.', '.'] then 2
  else if cs.head? = some '.' then 3 else 4

/-- Compares names, at first without their endings. -/
def order (a b : List Char) : Ordering :=
  let parts (a b : List Char) := compareParts (a.length + b.length + 1) a b
  let stemOf (cs : List Char) := stem cs.length cs
  ((compare (rank a) (rank b)).then (parts (stemOf a) (stemOf b))).then (parts a b)

end LayerCache.Program.Version

/-! What lines are compared by: their characters, or numbers, months and versions in front. -/
namespace LayerCache.Program

/-- What a text is taken for. -/
inductive Comparison where
  | text
  | number
  | general
  | human
  | month
  | version
  | random
  deriving DecidableEq, Repr

structure Order where
  comparison : Comparison := .text
  folded : Bool := false
  /-- Characters that count. -/
  counts : Option (Char → Bool) := none
  reversed : Bool := false

namespace Order

/-- A line feed is a blank where it does not end a line. -/
def isBlank (c : Char) : Bool := c = ' ' || c = '\t' || c = '\n'

def digitsAt (cs : List Char) : List Char × List Char :=
  (cs.takeWhile Char.isDigit, cs.dropWhile Char.isDigit)

/-- A sign, the digits around a point, and what follows. -/
def numberAt (cs : List Char) : Bool × List Char × List Char × List Char :=
  let cs := cs.dropWhile isBlank
  let isNegative := cs.head? = some '-'
  let (whole, rest) := digitsAt (if isNegative then cs.drop 1 else cs)
  match rest with
  | '.' :: rest =>
    let (part, rest) := digitsAt rest
    (isNegative, whole, part, rest)
  | rest => (isNegative, whole, [], rest)

/-- Compares numerators over powers of ten. -/
def compareScaled (a b : Int × Nat) : Ordering :=
  compare (a.1 * (Nat.pow 10 b.2 : Nat)) (b.1 * (Nat.pow 10 a.2 : Nat))

/-- The number a text begins with, zero if there is none. -/
def scaled (cs : List Char) : Int × Nat :=
  let (isNegative, whole, part, _) := numberAt cs
  let n : Int := (Chars.number? (whole ++ part)).getD 0
  (if isNegative then -n else n, part.length)

/-- The power of the unit behind a number. -/
def unitPower (cs : List Char) : Int :=
  let (isNegative, whole, part, rest) := numberAt cs
  if (whole ++ part).all (· = '0') then 0
  else
    let known := [('K', 1), ('k', 1), ('M', 2), ('G', 3), ('T', 4), ('P', 5), ('E', 6), ('Z', 7),
      ('Y', 8), ('R', 9), ('Q', 10)]
    let n : Nat := (rest.head?.bind fun c => known.lookup c).getD 0
    if isNegative then -n else n

def months : List String :=
  ["JAN", "FEB", "MAR", "APR", "MAY", "JUN", "JUL", "AUG", "SEP", "OCT", "NOV", "DEC"]

/-- The place of a month in the year; other texts come before all. -/
def monthOf (cs : List Char) : Nat :=
  let name := String.ofList (((cs.dropWhile isBlank).take 3).map Char.toUpper)
  (months.idxOf? name).elim 0 (· + 1)

/-- Numbers with exponents: texts that are none come first, and those that are not a value. -/
structure General where
  rank : Nat
  value : Int × Nat := (0, 0)

def hexValue (c : Char) : Nat :=
  if c.isDigit then c.toNat - '0'.toNat else c.toLower.toNat - 'a'.toNat + 10

def isHexDigit (c : Char) : Bool := c.isDigit || ('a' ≤ c.toLower && c.toLower ≤ 'f')

/-- The exponent behind one of two letters, zero if there is none. -/
def exponentAt (letter : Char) : List Char → Int
  | c :: rest =>
    if c.toLower != letter then 0
    else
      let digits := match rest with
        | '+' :: rest | '-' :: rest => rest
        | rest => rest
      let n : Nat := (Chars.number? (digits.takeWhile Char.isDigit)).getD 0
      if rest.head? = some '-' then -n else n
  | [] => 0

/-- The largest power of ten that a number may have. -/
def largest : Nat := 4932

def General.ofDecimal (cs : List Char) : Option General :=
  let (whole, rest) := digitsAt cs
  let (part, rest) := match rest with
    | '.' :: rest => digitsAt rest
    | rest => ([], rest)
  (Chars.number? (whole ++ part)).map fun (n : Nat) =>
    let e := exponentAt 'e' rest - part.length
    if n = 0 then ⟨3, (0, 0)⟩
    else if e + (whole ++ part).length > largest + 1 then ⟨4, (1, 0)⟩
    else if e < -(largest + 60 : Int) then ⟨3, (0, 0)⟩
    else if e < 0 then ⟨3, (n, e.natAbs)⟩
    else ⟨3, (((n * Nat.pow 10 e.natAbs : Nat) : Int), 0)⟩

def General.ofHex (cs : List Char) : Option General :=
  let whole := cs.takeWhile isHexDigit
  let (part, rest) := match cs.drop whole.length with
    | '.' :: rest => (rest.takeWhile isHexDigit, rest.dropWhile isHexDigit)
    | rest => ([], rest)
  if (whole ++ part).isEmpty then none
  else
    let n := (whole ++ part).foldl (fun n c => 16 * n + hexValue c) 0
    let e := exponentAt 'p' rest - (4 * part.length : Nat)
    if e < -20000 then some ⟨3, (0, 0)⟩
    else if 20000 < e then some ⟨4, (1, 0)⟩
    else if e < 0 then some ⟨3, ((n * Nat.pow 5 e.natAbs : Nat), e.natAbs)⟩
    else some ⟨3, ((n * Nat.pow 2 e.natAbs : Nat), 0)⟩

def General.negate (g : General) : General :=
  ⟨if g.rank = 4 then 2 else g.rank, (-g.value.1, g.value.2)⟩

def General.ofText (cs : List Char) : General :=
  let cs := cs.dropWhile fun c => c = ' ' || ('\t' ≤ c && c ≤ '\r')
  let isNegative := cs.head? = some '-'
  let cs := if isNegative || cs.head? = some '+' then cs.drop 1 else cs
  let begins (word : String) : Bool := word.toList.isPrefixOf (cs.map Char.toLower)
  let found : Option General :=
    if begins "inf" then some ⟨4, (1, 0)⟩
    else if begins "nan" then some ⟨1, (0, 0)⟩
    else if begins "0x" then (General.ofHex (cs.drop 2)).or (some ⟨3, (0, 0)⟩)
    else General.ofDecimal cs
  match found with
  | none => ⟨0, (0, 0)⟩
  | some g => if isNegative then g.negate else g

def compareChars (a b : List Char) : Ordering :=
  if a < b then .lt else if b < a then .gt else .eq

def measured : Comparison → List Char → List Char → Ordering
  | .text, a, b => compareChars a b
  | .number, a, b => compareScaled (scaled a) (scaled b)
  | .general, a, b =>
    let (a, b) := (General.ofText a, General.ofText b)
    (compare a.rank b.rank).then (compareScaled a.value b.value)
  | .human, a, b =>
    (compare (unitPower a) (unitPower b)).then (compareScaled (scaled a) (scaled b))
  | .month, a, b => compare (monthOf a) (monthOf b)
  | .version, a, b => Version.order a b
  | .random, a, b => compareChars a b

/-- Compares by one order alone. -/
def apply (o : Order) (a b : List Char) : Ordering :=
  let shown (cs : List Char) : List Char :=
    let cs := o.counts.elim cs cs.filter
    if o.folded then cs.map Char.toUpper else cs
  let result := measured o.comparison (shown a) (shown b)
  if o.reversed then result.swap else result

/-- Letters that stand for orders, as they are shown. -/
def letters : List Char := "bdfghiMnRrV".toList

/-- Letters that do not go together. -/
def conflict? (given : List Char) : Option (List Char) :=
  let count (cs : String) := (cs.toList.filter given.contains).length
  if count "nghM" + min 1 (count "VRdi") ≤ 1 then none
  else
    some ((letters.filter fun c => c != 'b' && c != 'r' && given.contains c).filter fun c =>
      c != 'i' || !given.contains 'd')

def ofLetters (given : List Char) : Order where
  comparison := (([('n', Comparison.number), ('g', .general), ('h', .human), ('M', .month),
    ('V', .version), ('R', .random)].find? fun (c, _) => given.contains c).map Prod.snd).getD .text
  folded := given.contains 'f'
  counts := if given.contains 'd' then some fun c => isBlank c || c.isAlphanum
    else if given.contains 'i' then some fun c => ' ' ≤ c && c ≤ '~' else none
  reversed := given.contains 'r'

end Order
end LayerCache.Program
