import LayerCache.Disk.Attributes
import LayerCache.Shell.Program.Dump
import LayerCache.Shell.Program.Lines

/-! Two files compared byte by byte. -/
namespace LayerCache.Program

/-- What is wrong with the arguments, and where to find help, each under the program's name. -/
def pointToHelp (p : Process) (text : String) : Work Unit := do
  complain p text 2
  complain p ("Try '" ++ p.name ++ " --help' for more information.") 2

namespace Difference

/-- What is told of a difference. -/
inductive Report where
  | first
  | all
  | status
  deriving DecidableEq, Repr

structure Plan where
  report : Report
  showsBytes : Bool
  skipped : Nat × Nat
  most : Option Nat
  /-- How wide numbers of bytes are written. -/
  width : Nat := 1

/-- Where both texts first differ or one ends: how many bytes and lines before it are the same,
and whether the last of them ended a line. -/
structure Place where
  bytes : Nat := 0
  lines : Nat := 0
  atStart : Bool := false

def firstPlace (place : Place) : List Char → List Char → Place × List Char × List Char
  | a :: as, b :: bs =>
    if a = b then
      firstPlace ⟨place.bytes + 1, place.lines + (if a = '\n' then 1 else 0), a = '\n'⟩ as bs
    else (place, a :: as, b :: bs)
  | as, bs => (place, as, bs)

def octal (c : Char) : List Char := Chars.padLeft 3 (Nat.toDigits 8 c.toNat)

def Plan.row (plan : Plan) (n : Nat) (a b : Char) : List Char :=
  Chars.padLeft plan.width (naturals n) ++ ' ' :: octal a ++
    (if plan.showsBytes then
      ' ' :: Chars.padRight 4 (visible a) ++ ' ' :: octal b ++ ' ' :: visible b
    else ' ' :: octal b)

def ended (p : Process) (name : String) (place : Place) (tellsLine : Bool) : String :=
  p.name ++ ": EOF on " ++ name ++
    if place.bytes = 0 then " which is empty"
    else " after byte " ++ toString place.bytes ++
      if !tellsLine then ""
      else if place.atStart then ", line " ++ toString place.lines
      else ", in line " ++ toString (place.lines + 1)

def tell (p : Process) (plan : Plan) (names : String × String) (a b : List Char) : Work Unit := do
  let (place, restA, restB) := firstPlace {} a b
  let noteEnd (place : Place) : Work Unit := do
    let shorter := if a.length < b.length then names.1 else names.2
    if a.length != b.length && plan.report != .status then
      write errors ((ended p shorter place (plan.report = .first)) ++ "\n").toList
  match restA, restB with
  | [], [] => pure ()
  | x :: _, y :: _ =>
    finish 1
    match plan.report with
    | .status => pure ()
    | .all =>
      ((restA.zip restB).zipIdx (place.bytes + 1)).forM fun ((x, y), n) =>
        if x = y then pure () else printLine (plan.row n x y)
      noteEnd { place with bytes := min a.length b.length }
    | .first =>
      printLine ((names.1 ++ " " ++ names.2 ++ " differ: " ++
        (if plan.showsBytes then "byte " else "char ") ++ toString (place.bytes + 1) ++ ", line " ++
        toString (place.lines + 1)).toList ++
        if plan.showsBytes then
          " is ".toList ++ octal x ++ ' ' :: visible x ++ ' ' :: octal y ++ ' ' :: visible y
        else [])
  | _, _ =>
    finish 1
    noteEnd place

def usage : Usage where
  bare := "bcls"
  valued := "in"
  long := [("print-bytes", 'b'), ("ignore-initial=", 'i'), ("verbose", 'l'), ("bytes=", 'n'),
    ("quiet", 's'), ("silent", 's')]

/-- How many bytes of either file are left out: one number for both, or two. -/
def skips? (text : String) : Option (Nat × Nat) :=
  match Text.split ':' text with
  | [one] => (Dump.amount? one).map fun n => (n, n)
  | [one, other] => do return (← Dump.amount? one, ← Dump.amount? other)
  | _ => none

/-- How wide the number of the last byte is that may differ. -/
def widthOf (sizes : List (Option Nat)) (most : Option Nat) : Nat :=
  let least := (most :: sizes).foldl (fun least n => n.elim least (min least)) (Nat.pow 2 63 - 1)
  (naturals least).length

/-- The sizes of the two files where they have one. -/
def sizeOf? (p : Process) (disk : Disk) (name : String) (length : Nat) : Option Nat :=
  if name = "-" then if p.rereads then some length else none
  else match disk.stat (path name) with
    | .ok (_, .file _ _) => some length
    | _ => none

/-- The plan of the options and of what stands behind the two names. -/
def planOf (o : Options) : Except String Plan := do
  let report := if o.has 's' then .status else if o.has 'l' then .all else .first
  if o.has 's' && o.has 'l' then throw "options -l and -s are incompatible"
  let bad (text : String) := "invalid --ignore-initial value '" ++ text ++ "'"
  let given ← (o.values 'i').mapM fun text => match skips? text with
    | some both => .ok both
    | none => .error (bad text)
  let skips := given.foldl (fun (m, n) (i, j) => (max m i, max n j)) (0, 0)
  let most ← (o.values 'n').mapM fun text => match Dump.amount? text with
    | some n => .ok n
    | none => .error ("invalid --bytes value '" ++ text ++ "'")
  let also ← (o.operands.drop 2 |>.take 2).mapM fun text => match Dump.amount? text with
    | some n => .ok n
    | none => .error (bad text)
  match o.operands[4]? with
  | some extra => throw ("extra operand '" ++ extra ++ "'")
  | none => return ⟨report, o.hasAny "bc", (max skips.1 (also.headD 0), max skips.2 (also[1]?.getD 0)),
      most.min?, 1⟩

def areOne (disk : Disk) (a b : String) : Bool :=
  match disk.stat (path a), disk.stat (path b) with
  | .ok (left, _), .ok (right, _) => disk.areSame left right
  | _, _ => false

/-- Reads one of the files. A folder can be opened, but not read. -/
def open? (p : Process) (plan : Plan) (name : String) : Work (Option (Except Fault (List Char))) := do
  match ← readFile name with
  | .ok text => return some (.ok text)
  | .error .isFolder => return some (.error .isFolder)
  | .error fault =>
    if plan.report = .status then finish 2 else complain p (name ++ ": " ++ fault.reason) 2
    return none

def run (p : Process) (plan : Plan) (a b : String) : Work Unit := do
  let disk := (← get).disk
  let some first ← open? p plan a | return
  if a = b && plan.skipped.1 = plan.skipped.2 then return
  let some second ← open? p plan b | return
  if areOne disk a b && plan.skipped.1 = plan.skipped.2 then return
  match first, second with
  | .ok first, .ok second =>
    let sizes := [sizeOf? p disk a first.length, sizeOf? p disk b second.length]
    let plan := { plan with width := widthOf sizes plan.most }
    let part (text : List Char) (skipped : Nat) : List Char :=
      plan.most.elim (text.drop skipped) (text.drop skipped).take
    tell p plan (a, b) (part first plan.skipped.1) (part second plan.skipped.2)
  | .error fault, _ => complain p (a ++ ": " ++ fault.reason) 2
  | _, .error fault => complain p (b ++ ": " ++ fault.reason) 2

end Difference

def compareFiles (p : Process) : Work Unit :=
  match Difference.usage.split none p.args with
  | .error text => pointToHelp p text
  | .ok o => match o.operands with
    | [] => pointToHelp p ("missing operand after '" ++ (p.args.getLast?).getD p.name ++ "'")
    | a :: rest => match Difference.planOf o with
      | .error text => pointToHelp p text
      | .ok plan => Difference.run p plan a (rest.headD "-")

end LayerCache.Program
