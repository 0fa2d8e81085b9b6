import LayerCache.Shell.Program.Sizes
import LayerCache.Shell.Program.Start

/-! A file cut into pieces that become files of their own. -/
namespace LayerCache.Program

namespace Pieces

/-- How a text is cut into a given number of pieces. -/
inductive Share where
  | bytes
  | lines
  | inTurn
  deriving DecidableEq, Repr

/-- How a text is cut. -/
inductive Cut where
  | lines (n : Nat)
  | bytes (n : Nat)
  /-- Whole lines, as many as fit. -/
  | fitting (n : Nat)
  /-- A number of pieces; perhaps only one of them is shown. -/
  | share (s : Share) (n : Nat) (only : Option Nat)

def groups {α : Type} (size : Nat) : Nat → List α → List (List α)
  | 0, _ => []
  | fuel + 1, xs => if xs.isEmpty then [] else xs.take size :: groups size fuel (xs.drop size)

/-- Pieces of a size that end with a line if one ends in them. -/
def fitLines (ending : Char) (size : Nat) : Nat → List Char → List (List Char)
  | 0, _ => []
  | fuel + 1, text =>
    if text.length < size then if text.isEmpty then [] else [text]
    else
      let part := text.take size
      let tail := (part.reverse.takeWhile (· != ending)).length
      let count := if tail = part.length then part.length else part.length - tail
      text.take count :: fitLines ending size fuel (text.drop count)

/-- Sizes of pieces that differ by one at most, the larger ones first. -/
def evenSizes (total n : Nat) : List Nat :=
  (List.range n).map fun i => total / n + if i < total % n then 1 else 0

def byteShares : List Nat → List Char → List (List Char)
  | [], _ => []
  | size :: sizes, text => text.take size :: byteShares sizes (text.drop size)

/-- Pieces that go on to the end of the line in which an even share would end. -/
def lineShares (ending : Char) : List Nat → Nat → List Char → List (List Char)
  | [], _, _ => []
  | stop :: stops, done, text =>
    if stop ≤ done then [] :: lineShares ending stops done text
    else
      let skipped := text.take (stop - 1 - done)
      let rest := text.drop skipped.length
      let piece := skipped ++ rest.takeWhile (· != ending) ++
        (rest.dropWhile (· != ending)).take 1
      piece :: lineShares ending stops (done + piece.length) (text.drop piece.length)

def sums : Nat → List Nat → List Nat
  | _, [] => []
  | total, n :: ns => (total + n) :: sums (total + n) ns

def turns (n : Nat) (lines : List (List Char)) : List (List Char) :=
  (List.range n).map fun i =>
    (lines.zipIdx.filterMap fun (line, k) => if k % n = i then some line else none).flatten

def Cut.apply (c : Cut) (ending : Char) (text : List Char) : List (List Char) :=
  let lines := Chars.wholeRecords ending text
  match c with
  | .lines n => (groups n lines.length lines).map List.flatten
  | .bytes n => groups n text.length text
  | .fitting n => fitLines ending n (text.length + 1) text
  | .share .bytes n _ => byteShares (evenSizes text.length n) text
  | .share .lines n _ => lineShares ending (sums 0 (evenSizes text.length n)) 0 text
  | .share .inTurn n _ => turns n lines

/-- Names of pieces: letters or digits behind a base. -/
structure Naming where
  base : String
  alphabet : List Char := "abcdefghijklmnopqrstuvwxyz".toList
  length : Nat := 2
  /-- More letters are taken when those given are used up. -/
  grows : Bool := true
  start : Nat := 0
  ending : String := ""

/-- A number in the letters of an alphabet. -/
def spelt (alphabet : List Char) : Nat → Nat → List Char
  | 0, _ => []
  | length + 1, n =>
    spelt alphabet length (n / alphabet.length) ++ [(alphabet[n % alphabet.length]?).getD 'a']

/-- The letters of a piece. Names that start with the last letter are left out where they may grow,
as longer ones start with it. -/
def suffix? (alphabet : List Char) (grows : Bool) : Nat → Nat → Nat → Option (List Char)
  | 0, _, _ => none
  | fuel + 1, length, n =>
    let size := alphabet.length
    if grows then
      let known := (size - 1) * Nat.pow size (length - 1)
      if n < known then some (spelt alphabet length n)
      else (suffix? alphabet grows fuel (length + 1) (n - known)).map
        fun rest => (alphabet.getLast?).toList ++ rest
    else if n < Nat.pow size length then some (spelt alphabet length n) else none

def Naming.name? (g : Naming) (i : Nat) : Option String :=
  (suffix? g.alphabet g.grows 12 g.length (g.start + i)).map fun letters =>
    g.base ++ String.ofList letters ++ g.ending

structure Plan where
  cut : Cut
  naming : Naming
  ending : Char
  skipsEmpty : Bool
  tells : Bool
  filter : Option String

/-- Gives one piece to a command, or makes a file of it; tells whether that went well. -/
def Plan.put (launch : Launch) (p : Process) (plan : Plan) (name : String) (piece : List Char) :
    Work Bool := do
  match plan.filter with
  | none =>
    if plan.tells then printLine ("creating file " ++ quotedFile name).toList
    match ← saveFile name piece with
    | .ok () => return true
    | .error fault =>
      complain p (because name fault.reason)
      return false
  | some command =>
    if plan.tells then printLine ("executing with FILE=" ++ fileName name).toList
    let o ← get
    let bindings := p.bindings.insert "FILE" name
    match launch { p with
        name := shellName, args := ["-c", command], bindings, input := piece, disk := o.disk } with
    | .error fault =>
      complain p (because shellName fault.reason)
      return false
    | .ok effects =>
      takeOver { effects with input := o.input, ending := .code 0 }
      match effects.ending with
      | .code 0 | .killed 13 => return true
      | ending =>
        complain p ("with FILE=" ++ name ++ ", " ++ (match ending with
          | .code n => "exit " ++ toString n
          | .killed n => "signal " ++ Signals.signalName n) ++ " from command: " ++ command)
          ending.status
        return false

def Plan.putAll (launch : Launch) (p : Process) (plan : Plan) : Nat → List (List Char) → Work Unit
  | _, [] => pure ()
  | i, piece :: rest =>
    if plan.skipsEmpty && piece.isEmpty then plan.putAll launch p i rest
    else match plan.naming.name? i with
      | none => complain p "output file suffixes exhausted"
      | some name => do
        if ← plan.put launch p name piece then plan.putAll launch p (i + 1) rest

def usage : Usage where
  bare := "0123456789deux"
  valued := "Cablnt"
  long := [("bytes=", 'b'), ("lines=", 'l'), ("line-bytes=", 'C'), ("suffix-length=", 'a'),
    ("elide-empty-files", 'e'), ("unbuffered", 'u'), ("numeric-suffixes?", 'd'),
    ("hex-suffixes?", 'x'), ("filter=", 'F'), ("additional-suffix=", 'A'), ("separator=", 't'),
    ("verbose", 'v'), ("number=", 'n')]

/-- What is wrong with the options, and whether help is offered. -/
abbrev Flaw := String × Bool

def positive (what text : String) : Except Flaw Nat :=
  match Sizes.ofText Sizes.usual text with
  | .ok (n + 1) => .ok (n + 1)
  | .ok 0 | .error .notNumber => .error ("invalid number of " ++ what ++ ": " ++ quoted text, false)
  | .error .tooLarge => .ok Sizes.bound

def plainCount (what text shown : String) : Except Flaw Nat :=
  match Text.number? text with
  | some (n + 1) => .ok (n + 1)
  | _ => .error ("invalid number of " ++ what ++ ": " ++ quoted shown, false)

def share (text : String) : Except Flaw Cut := do
  let (kind, rest) := match text.toList with
    | 'l' :: '/' :: rest => (Share.lines, String.ofList rest)
    | 'r' :: '/' :: rest => (Share.inTurn, String.ofList rest)
    | _ => (Share.bytes, text)
  match Text.split '/' rest with
  | [n] => return .share kind (← plainCount "chunks" n rest) none
  | [k, n] =>
    match Text.number? k with
    | none => throw ("invalid number of chunks: " ++ quoted rest, false)
    | some i =>
      let count ← plainCount "chunks" n n
      if 0 < i && i ≤ count then return .share kind count (some (i - 1))
      else throw ("invalid chunk number: " ++ quoted k, false)
  | _ => throw ("invalid number of chunks: " ++ quoted rest, false)

/-- How to cut, as one option says. -/
def cutOf (option : Char × String) : Except Flaw (Option Cut) :=
  let (c, text) := option
  match c with
  | 'l' => (plainLines text).map some
  | 'b' => (positive "bytes" text).map fun n => some (.bytes n)
  | 'C' => (positive "lines" text).map fun n => some (.fitting n)
  | 'n' => (share text).map some
  | _ => .ok none
where
  plainLines (text : String) : Except Flaw Cut := (positive "lines" text).map .lines

def cuts (o : Options) : Except Flaw Cut := do
  let chosen ← o.given.filterMapM cutOf
  let digits := o.given.filterMap fun (c, _) => if c.isDigit then some c else none
  let old := (Chars.number? digits).toList.map Cut.lines
  match chosen ++ old with
  | [] => return .lines 1000
  | [.lines 0] => throw ("invalid number of lines: '0'", false)
  | [cut] => return cut
  | _ => throw ("cannot split in more than one way", true)

def lengthFor (size : Nat) : Nat → Nat → Nat
  | 0, _ => 0
  | fuel + 1, n => if n = 0 then 0 else lengthFor size fuel (n / size) + 1

def naming (o : Options) (cut : Cut) (base : String) : Except Flaw Naming := do
  let length ← match o.value? 'a' with
    | none => .ok 0
    | some text => match Text.number? text with
      | some n => .ok n
      | none => .error ("invalid suffix length: " ++ quoted text, false)
  let ending := (o.value? 'A').getD ""
  if ending.toList.contains '/' then
    throw ("invalid suffix " ++ quoted ending ++ ", contains directory separator", true)
  let (alphabet, start) := match o.last? "dx" with
    | some ('d', text) => ("0123456789".toList, text)
    | some (_, text) => ("0123456789abcdef".toList, text)
    | none => ("abcdefghijklmnopqrstuvwxyz".toList, "")
  let isDigit (c : Char) : Bool := alphabet.contains c
  if !start.toList.all isDigit then
    throw (quoted start ++ ": invalid start value for " ++
      (if alphabet.length = 10 then "numerical" else "hexadecimal") ++ " suffix", true)
  let first := start.toList.foldl (fun n c => n * alphabet.length + alphabet.idxOf c) 0
  let needed := match cut with
    | .share _ n _ => lengthFor alphabet.length 64 (n - 1 + if first < n then first else 0)
    | _ => 0
  if length != 0 && length < needed then
    throw ("the suffix length needs to be at least " ++ toString needed, false)
  let size := if length = 0 then max 2 needed else length
  if size < start.length then
    throw ("numerical suffix start value is too large for the suffix length", true)
  return { base, alphabet, length := size, start := first, ending
           grows := length = 0 && start = "" && needed = 0 }

def ending (o : Options) : Except Flaw Char := do
  let one (text : String) : Except Flaw Char := match text.toList with
    | [] => .error ("empty record separator", false)
    | [c] => .ok c
    | ['\\', '0'] => .ok (Char.ofNat 0)
    | _ => .error ("multi-character separator " ++ quoted text, false)
  let all ← (o.values 't').mapM one
  if all.any fun c => some c != all.head? then
    throw ("multiple separator characters specified", false)
  return all.headD '\n'

def planOf (o : Options) : Except Flaw Plan := do
  let cut ← cuts o
  let ending ← ending o
  match o.operands[2]? with
  | some extra => throw ("extra operand " ++ quotedFile extra, true)
  | none =>
    let naming ← naming o cut ((o.operands[1]?).getD "x")
    if (o.value? 'F').isSome && (cut matches .share _ _ (some _)) then
      throw ("--filter does not process a chunk extracted to stdout", true)
    return ⟨cut, naming, ending, o.has 'e', o.has 'v', o.value? 'F'⟩

end Pieces

def splitFile (launch : Launch) (p : Process) : Work Unit :=
  withOptions p Pieces.usage fun o =>
    match Pieces.planOf o with
    | .error (text, true) => askForHelp p text
    | .error (text, false) => complain p text
    | .ok plan => do
      let name := o.operands.headD "-"
      let unread := "cannot open " ++ quotedFile name ++ " for reading: "
      match ← readFile name with
      | .error fault => complain p (if fault = .isFolder || name = "-" then because name fault.reason
          else unread ++ fault.reason)
      | .ok text =>
        let pieces := plan.cut.apply plan.ending text
        match plan.cut with
        | .share _ _ (some i) => print ((pieces[i]?).getD [])
        | _ => plan.putAll launch p 0 pieces

end LayerCache.Program
