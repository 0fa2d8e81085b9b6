import LayerCache.Text.Lines

/-! Who may do what with a file: three bits for each of owner, group and others, with three more
above them, and the texts that change them. -/
namespace LayerCache

abbrev Mode := Nat

namespace Mode

/-- Bits that a part of a text stands for: those named, or those that a class has now. -/
inductive Bits where
  | named (n : Nat)
  /-- With leave to enter where any class has it already, or for folders. -/
  | entering (n : Nat)
  | ofClass (shift : Nat)
  deriving DecidableEq, Repr

structure Step where
  /-- The bits of the classes named, or none if no class is. -/
  who : Nat
  sign : Char
  bits : Bits
  deriving DecidableEq, Repr

def whole : Nat := 0o7777

def classBits (c : Char) : Option Nat :=
  [('u', 0o4700), ('g', 0o2070), ('o', 0o1007), ('a', whole)].lookup c

def letterBits (c : Char) : Option Nat :=
  [('r', 0o444), ('w', 0o222), ('x', 0o111), ('X', 0), ('s', 0o6000), ('t', 0o1000)].lookup c

def classShift (c : Char) : Option Nat := [('u', 6), ('g', 3), ('o', 0)].lookup c

def unite (ns : List Nat) : Nat := ns.foldl (· ||| ·) 0

def without (n m : Nat) : Nat := n - (n &&& m)

/-- The bits named behind a sign. -/
def bitsOf (text : List Char) : Option Bits :=
  match text with
  | [c] => match classShift c with
    | some shift => some (.ofClass shift)
    | none => ofLetters text
  | text => ofLetters text
where
  ofLetters (text : List Char) : Option Bits := do
    let n := unite (← text.mapM letterBits)
    return if text.contains 'X' then .entering n else .named n

def isSign (c : Char) : Bool := c = '+' || c = '-' || c = '='

/-- The steps behind the classes of a clause: a sign and bits, as often as they come. -/
def steps? (who : Nat) : Nat → List Char → Option (List Step)
  | 0, _ => none
  | fuel + 1, text => match text with
    | [] => some []
    | sign :: rest =>
      if !isSign sign then none
      else do
        let part := rest.takeWhile (!isSign ·)
        return ⟨who, sign, ← bitsOf part⟩ :: (← steps? who fuel (rest.drop part.length))

def clause? (clause : List Char) : Option (List Step) := do
  let classes := clause.takeWhile fun c => (classBits c).isSome
  steps? (unite (classes.filterMap classBits)) (clause.length + 1) (clause.drop classes.length)

def octal? (text : List Char) : Option Nat :=
  if text.isEmpty || !text.all fun c => '0' ≤ c && c ≤ '7' then none
  else some (text.foldl (fun n c => n * 8 + (c.toNat - '0'.toNat)) 0)

/-- Puts one step into effect; where no class is named, bits of the mask stay out. -/
def Step.apply (mask : Nat) (isFolder : Bool) (n : Mode) (s : Step) : Mode :=
  let value := match s.bits with
    | .named bits => bits
    | .entering bits => if isFolder || n &&& 0o111 != 0 then bits ||| 0o111 else bits
    | .ofClass shift => ((n >>> shift) &&& 7) * 0o111
  let allowed := if s.who = 0 then without whole mask else s.who
  let bits := value &&& allowed
  if s.sign = '+' then n ||| bits
  else if s.sign = '-' then without n bits
  else without n (if s.who = 0 then whole else s.who) ||| bits

def apply (mask : Nat) (isFolder : Bool) (steps : List Step) (n : Mode) : Mode :=
  steps.foldl (Step.apply mask isFolder) n

/-- A change of access, told the mask, whether it is of a folder, and the access until now. -/
abbrev Change := Nat → Bool → Mode → Mode

def setIdBits : Nat := 0o6000

/-- A number of few digits leaves the upper bits of folders alone. -/
def ofNumber (digits : List Char) (n : Nat) : Change := fun _ isFolder now =>
  if isFolder && digits.length < 5 then n ||| (now &&& setIdBits) else n

def ofText? (text : String) : Option Change :=
  let cs := text.toList
  if cs.head?.any Char.isDigit then match octal? cs with
    | some n => if n ≤ whole then some (ofNumber cs n) else none
    | none => none
  else do
    let clauses := (Text.split ',' text).map String.toList
    if clauses.any fun clause => !clause.any isSign then none
    let steps ← clauses.mapM clause?
    return fun mask isFolder now => apply mask isFolder steps.flatten now

/-- Access as nine letters, with the upper bits shown in the places of the last of each three. -/
def letters (n : Mode) : List Char :=
  let part (shift above : Nat) (special : Char) : List Char :=
    let m := (n >>> shift) &&& 7
    let enters := m &&& 1 != 0
    [if m &&& 4 != 0 then 'r' else '-', if m &&& 2 != 0 then 'w' else '-',
      if n &&& above != 0 then (if enters then special else special.toUpper)
      else if enters then 'x' else '-']
  part 6 0o4000 's' ++ part 3 0o2000 's' ++ part 0 0o1000 't'

end Mode
end LayerCache
