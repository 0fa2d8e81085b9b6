import LayerCache.Shell.Program.Options
import LayerCache.Shell.Program.Sizes

/-! Lines in an order that is drawn from bytes. -/
namespace LayerCache.Program

namespace Shuffle

/-- Bytes to draw from, and a number drawn from them that has not been used up: one of those up to
`most`. -/
structure Source where
  bytes : List Char
  number : Nat := 0
  most : Nat := 0

abbrev Draw := StateT Source Option

/-- Takes bytes until there are enough numbers to choose from. -/
def Source.widen (least : Nat) : Nat → Source → Option Source
  | 0, s => some s
  | fuel + 1, s =>
    if least ≤ s.most then some s
    else match s.bytes with
      | [] => none
      | c :: rest => widen least fuel ⟨rest, s.number * 256 + c.toNat, s.most * 256 + 255⟩

/-- A number below `choices`, each as likely as another. A draw that would favour some is made once
more, with what it left. -/
def drawBelow (choices : Nat) : Nat → Draw Nat
  | 0 => pure 0
  | fuel + 1 => do
    let s ← (← get).widen (choices - 1) 16
    if s.most = choices - 1 then
      set { s with number := 0, most := 0 }
      return s.number
    let excess := s.most - (choices - 1)
    let unusable := excess % choices
    let last := s.most - unusable
    if s.number ≤ last then
      set { s with number := s.number / choices, most := excess / choices }
      return s.number % choices
    else
      set { s with number := s.number - (last + 1), most := unusable - 1 }
      drawBelow choices fuel

def draw (choices : Nat) : Draw Nat := drawBelow choices 64

/-- The first places of an order of all items, each changed with one that was drawn. -/
def arrange {α : Type} : Nat → Nat → Array α → Draw (Array α)
  | 0, _, items => return items
  | count + 1, i, items => do
    let j := i + (← draw (items.size - i))
    arrange count (i + 1) (items.swapIfInBounds i j)

def choose {α : Type} (count : Nat) (items : List α) : Draw (List α) :=
  if count = 1 then do
    let i ← draw items.length
    return (items[i]?).toList
  else do
    let all ← arrange count 0 items.toArray
    return all.toList.take count

/-- So many items of a stream whose length is not known: later ones take the places of others. A
place is drawn before it is known whether there is one more. -/
def sample {α : Type} (count : Nat) : Nat → Array α → List α → Draw (List α)
  | seen, kept, [] => do
    if kept.size = count then discard (draw (seen + 1))
    return kept.toList
  | seen, kept, item :: rest =>
    if kept.size < count then sample count (seen + 1) (kept.push item) rest
    else do
      let j ← draw (seen + 1)
      sample count (seen + 1) (kept.setIfInBounds j item) rest

/-- Items drawn one by one, as many as there are bytes for; and whether those were enough. -/
def repeatedly {α : Type} (items : Array α) : Nat → Source → List α → List α × Bool
  | 0, _, done => (done.reverse, true)
  | count + 1, s, done => match (draw items.size).run s with
    | some (i, s) => repeatedly items count s ((items[i]?).toList ++ done)
    | none => (done.reverse, false)

def usage : Usage where
  bare := "erz"
  valued := "ino"
  long := [("echo", 'e'), ("input-range=", 'i'), ("head-count=", 'n'), ("output=", 'o'),
    ("random-source=", 's'), ("repeat", 'r'), ("zero-terminated", 'z')]

/-- Two numbers with a dash between them; the second may be one less than the first. -/
def range (text : String) : Except String (Nat × Nat) := do
  let flaw (reason : String) : String := "invalid input range: " ++ quoted text ++ reason
  let bound (part : String) : Except String Nat := match Sizes.ofText "" part with
    | .ok n => .ok n
    | .error f => .error (flaw f.reason)
  let start := String.ofList (text.toList.takeWhile (· != '-'))
  let low ← bound start
  if text.toList.length = start.toList.length then throw (flaw "")
  let high ← bound (String.ofList (text.toList.drop (start.toList.length + 1)))
  if high + 1 < low then throw (flaw "") else return (low, high)

/-- How many lines are wanted at most. -/
def limit? (o : Options) : Except String (Option Nat) :=
  (o.values 'n').foldlM (fun least text => match Sizes.ofText "" text with
    | .ok n => .ok (some (least.elim n (min n)))
    | .error .tooLarge => .ok least
    | .error .notNumber => .error ("invalid line count: " ++ quoted text)) none

def rangeOf? (o : Options) : Except String (Option (Nat × Nat)) :=
  match o.values 'i' with
  | [] => .ok none
  | [text] => (range text).map some
  | text :: _ => (range text).bind fun _ => .error "multiple -i options specified"

def severalFlaw? (o : Options) : Option String :=
  let several (c : Char) : Bool := match o.values c with
    | first :: rest => rest.any (· != first)
    | [] => false
  if several 'o' then some "multiple output files specified"
  else if several 's' then some "multiple random sources specified"
  else none

/-- The lines to choose from, without their ends; nothing where they cannot be read. -/
def linesOf (p : Process) (o : Options) (ending : Char) (range : Option (Nat × Nat))
    (count : Option Nat) : Work (Option (List (List Char))) := do
  match range with
  | some (low, high) =>
    return some ((List.range (high + 1 - low)).map fun i => naturals (low + i))
  | none =>
    if o.has 'e' then return some (o.operands.map String.toList)
    if count = some 0 then return some []
    let name := o.operands.headD "-"
    match ← readFile name with
    | .ok text => return some (Chars.bareRecords ending text)
    | .error fault =>
      complain p (if name = "-" || fault = .isFolder then "read error: " ++ fault.reason
        else because name fault.reason)
      return none

/-- The lines drawn, and whether there were bytes enough. -/
def drawn (p : Process) (o : Options) (count : Option Nat) (lines : List (List Char))
    (bytes : List Char) : List (List Char) × Bool :=
  let isStream := !o.hasAny "ei" && o.operands.headD "-" = "-" && !p.rereads
  let once : Draw (List (List Char)) := match count with
    | some n => do
      let lines ← if isStream then sample n 0 #[] lines else pure lines
      choose (min n lines.length) lines
    | none => choose lines.length lines
  if o.has 'r' then repeatedly lines.toArray (count.getD 100000) { bytes } []
  else match once.run { bytes } with
    | some (chosen, _) => (chosen, true)
    | none => ([], false)

def run (p : Process) (o : Options) (range : Option (Nat × Nat)) (count : Option Nat) :
    Work Unit := do
  let ending := if o.has 'z' then Char.ofNat 0 else '\n'
  let source := (o.value? 's').getD "/dev/urandom"
  match ← linesOf p o ending range count with
  | none => pure ()
  | some lines => match ← readFile source with
    | .error .isFolder => complain p (quoted source ++ ": read error: " ++ Fault.isFolder.reason)
    | .error fault => complain p (because source fault.reason)
    | .ok bytes =>
      let (chosen, isEnough) := drawn p o count lines bytes
      let text := chosen.flatMap (· ++ [ending])
      if o.has 'r' && lines.isEmpty && count != some 0 then complain p "no lines to repeat"
      else
        match o.value? 'o' with
        | none => print text
        | some name => match ← saveFile name text with
          | .ok () => pure ()
          | .error fault => complain p (because name fault.reason)
        if !isEnough then complain p (quoted source ++ ": end of file")

end Shuffle

def shuffle (p : Process) : Work Unit :=
  withOptions p Shuffle.usage fun o =>
    match Shuffle.rangeOf? o, Shuffle.limit? o, Shuffle.severalFlaw? o with
    | .error flaw, _, _ | _, .error flaw, _ | _, _, some flaw => complain p flaw
    | .ok range, .ok count, none =>
      let extra := if range.isSome then o.operands else o.operands.drop 1
      if o.has 'e' && range.isSome then askForHelp p "cannot combine -e and -i options"
      else match o.has 'e', extra with
        | false, operand :: _ => askForHelp p ("extra operand " ++ quotedFile operand)
        | _, _ => Shuffle.run p o range count

end LayerCache.Program
