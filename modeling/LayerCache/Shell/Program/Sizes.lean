import LayerCache.Text.Ascii

/-! Whole numbers with units behind them, as options of programs take them. -/
namespace LayerCache.Program.Sizes

inductive Flaw where
  | notNumber
  | tooLarge
  deriving DecidableEq, Repr

def powerOf (c : Char) : Option Nat :=
  [('k', 1), ('K', 1), ('m', 2), ('M', 2), ('g', 3), ('G', 3), ('t', 4), ('T', 4), ('P', 5),
    ('E', 6), ('Z', 7), ('Y', 8), ('R', 9), ('Q', 10)].lookup c

/-- What a unit of those known multiplies by. Powers of 1024 are the rule, and a `B` behind one
makes it a power of 1000. -/
def unit? (known : List Char) : List Char → Option Nat
  | [] => some 1
  | c :: rest =>
    if !known.contains c then none
    else match c, rest with
      | 'b', [] => some 512
      | 'B', [] => some 1024
      | 'c', [] => some 1
      | 'w', [] => some 2
      | c, rest => (powerOf c).bind fun n =>
        if rest.isEmpty || rest = ['i', 'B'] then some (Nat.pow 1024 n)
        else if rest = ['B'] || rest = ['D'] then some (Nat.pow 1000 n)
        else none

def isBlank (c : Char) : Bool := c = ' ' || ('\t' ≤ c && c ≤ '\r')

/-- The words a number has to fit in. -/
def bound : Nat := Nat.pow 2 64

/-- A number, perhaps with a unit; a unit alone counts once. -/
def ofText (known text : String) : Except Flaw Nat :=
  let cs := text.toList.dropWhile isBlank
  let cs := if cs.head? = some '+' then cs.drop 1 else cs
  let digits := cs.takeWhile Char.isDigit
  let rest := cs.drop digits.length
  match Chars.number? digits, unit? known.toList rest with
  | some n, some m => if n * m < bound then .ok (n * m) else .error .tooLarge
  | none, some m => if rest.isEmpty then .error .notNumber else .ok m
  | _, none => .error .notNumber

/-- A whole number with a sign. -/
def intOfText (text : String) : Except Flaw Int :=
  match Chars.int? (text.toList.dropWhile isBlank) with
  | some n => if n.natAbs < bound / 2 then .ok n else .error .tooLarge
  | none => .error .notNumber

def Flaw.reason : Flaw → String
  | .notNumber => ""
  | .tooLarge => ": Value too large for defined data type"

/-- The units that most programs know. -/
def usual : String := "bkKmMGTPEZYRQ"

end LayerCache.Program.Sizes
