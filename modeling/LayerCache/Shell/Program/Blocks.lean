import LayerCache.Shell.Program.Dump

/-! Copying in blocks of bytes, with changes on the way. -/
namespace LayerCache.Program

namespace Blocks

/-- A number of blocks, or of bytes. -/
structure Extent where
  count : Nat
  inBytes : Bool := false

def Extent.bytes (e : Extent) (size : Nat) : Nat := if e.inBytes then e.count else e.count * size

structure Plan where
  source : Option String := none
  target : Option String := none
  readSize : Nat := 512
  writeSize : Nat := 512
  /-- Blocks are written as they are read. -/
  together : Bool := false
  lineSize : Nat := 0
  skipped : Extent := ⟨0, false⟩
  sought : Extent := ⟨0, false⟩
  most : Option Extent := none
  conversions : List String := []
  readFlags : List String := []
  writeFlags : List String := []
  status : String := ""

inductive Flaw where
  /-- What is said, and whether help is offered. -/
  | plain (text : String)
  | usage (text : String)

def badNumber (text : String) (large : Bool) : Flaw :=
  .plain ("invalid number: " ++ quoted text ++
    if large then ": Value too large for defined data type" else "")

/-- A part of a product without a `B` that only says what is counted. -/
def counted (part : String) : String :=
  match part.toList.reverse with
  | 'B' :: c :: rest => if c.isDigit then String.ofList (c :: rest).reverse else part
  | _ => part

def product (text : String) : Except Flaw Nat :=
  (Text.split 'x' text).foldlM (fun n part => match Sizes.ofText "bckKmMGTPEZYRQw" (counted part) with
    | .ok k => .ok (n * k)
    | .error flaw => .error (badNumber text (flaw = .tooLarge))) 1

/-- A count; a `B` right behind the digits makes it one of bytes. -/
def extent (text : String) : Except Flaw Extent := do
  let cs := text.toList
  let bare := cs.takeWhile Char.isDigit
  match cs.drop bare.length with
  | ['B'] => return ⟨← product (String.ofList bare), true⟩
  | _ => return ⟨← product text, false⟩

def size (text : String) : Except Flaw Nat := do
  let n ← product text
  if n = 0 then throw (badNumber text false)
  return n

def conversionNames : List String :=
  ["ascii", "ebcdic", "ibm", "block", "unblock", "lcase", "ucase", "sparse", "swab", "sync",
    "excl", "nocreat", "notrunc", "noerror", "fdatasync", "fsync"]

def flagNames : List String :=
  ["append", "binary", "cio", "direct", "directory", "dsync", "noatime", "nocache", "noctty",
    "nofollow", "nolinks", "nonblock", "sync", "text", "fullblock", "count_bytes", "skip_bytes",
    "seek_bytes"]

def words (what : String) (known : List String) (text : String) : Except Flaw (List String) :=
  (Text.split ',' text).mapM fun word =>
    if known.contains word then .ok word
    else .error (.usage ("invalid " ++ what ++ ": " ++ quoted word))

def Plan.set (plan : Plan) (operand : String) : Except Flaw Plan := do
  let name := operand.toList.takeWhile (· != '=')
  let value := String.ofList (operand.toList.drop (name.length + 1))
  if name.length = operand.length then
    throw (.usage ("unrecognized operand " ++ quoted operand))
  match String.ofList name with
  | "if" => return { plan with source := some value }
  | "of" => return { plan with target := some value }
  | "bs" =>
    let n ← size value
    return { plan with readSize := n, writeSize := n, together := true }
  | "ibs" =>
    let n ← size value
    return if plan.together then plan else { plan with readSize := n }
  | "obs" =>
    let n ← size value
    return if plan.together then plan else { plan with writeSize := n }
  | "cbs" => return { plan with lineSize := ← size value }
  | "skip" | "iseek" => return { plan with skipped := ← extent value }
  | "seek" | "oseek" => return { plan with sought := ← extent value }
  | "count" => return { plan with most := some (← extent value) }
  | "conv" => return { plan with
      conversions := plan.conversions ++ (← words "conversion" conversionNames value) }
  | "iflag" => return { plan with
      readFlags := plan.readFlags ++ (← words "input flag" flagNames value) }
  | "oflag" => return { plan with
      writeFlags := plan.writeFlags ++ (← words "output flag" flagNames value) }
  | "status" =>
    if ["none", "noxfer", "progress"].contains value then return { plan with status := value }
    throw (.usage ("invalid status level: " ++ quoted value))
  | _ => throw (.usage ("unrecognized operand " ++ quoted operand))

/-- Conversions that exclude each other. -/
def conflicts : List (List String × String) :=
  [(["ascii", "ebcdic", "ibm"], "cannot combine any two of \x7bascii,ebcdic,ibm\x7d"),
    (["block", "unblock"], "cannot combine block and unblock"),
    (["lcase", "ucase"], "cannot combine lcase and ucase"),
    (["excl", "nocreat"], "cannot combine excl and nocreat")]

def Plan.check (plan : Plan) : Except Flaw Plan := do
  for (names, text) in conflicts do
    if 1 < (names.filter plan.conversions.contains).length then throw (.plain text)
  let counts (flags : List String) (name : String) (e : Extent) : Extent :=
    if flags.contains name then { e with inBytes := true } else e
  return { plan with
    skipped := counts plan.readFlags "skip_bytes" plan.skipped
    most := plan.most.map (counts plan.readFlags "count_bytes")
    sought := counts plan.writeFlags "seek_bytes" plan.sought }

/-- Neighbouring bytes change places; an odd one in the end stays. -/
def swapped : List Char → List Char
  | a :: b :: rest => b :: a :: swapped rest
  | rest => rest

/-- Lines filled up or cut to one length; how many were cut. -/
def blocked (size : Nat) (text : List Char) : List Char × Nat :=
  let lines := Chars.bareLines text
  (lines.flatMap fun line => (line ++ List.replicate (size - line.length) ' ').take size,
    lines.countP fun line => size < line.length)

/-- Pieces of one length as lines without blanks at their ends. -/
def unblocked (size : Nat) (text : List Char) : List Char :=
  (chunks size text.length text).flatMap fun piece =>
    (piece.reverse.dropWhile (· = ' ')).reverse ++ ['\n']

/-- Changes on the way, and how many lines were cut. -/
def Plan.convert (plan : Plan) (text : List Char) : List Char × Nat :=
  let has := plan.conversions.contains
  let text := if has "swab" then swapped text else text
  let text := if has "lcase" then text.map Char.toLower
    else if has "ucase" then text.map Char.toUpper else text
  if plan.lineSize = 0 then (text, 0)
  else if has "block" then blocked plan.lineSize text
  else if has "unblock" then (unblocked plan.lineSize text, 0)
  else (text, 0)

/-- Puts a text into another at some distance. -/
def overlay (old : List Char) (distance : Nat) (keepsRest : Bool) (text : List Char) : List Char :=
  let before := old.take distance
  before ++ List.replicate (distance - before.length) (Char.ofNat 0) ++ text ++
    if keepsRest then old.drop (distance + text.length) else []

/-- Blocks as a report counts them: whole ones and others. -/
def records (size length : Nat) : String :=
  toString (length / size) ++ "+" ++ if length % size = 0 then "0" else "1"

/-- Writes what was copied to its target; tells whether that could be done. -/
def save (p : Process) (plan : Plan) (text : List Char) : Work Bool := do
  let distance := plan.sought.bytes plan.writeSize
  match plan.target with
  | none =>
    print text
    return true
  | some file =>
    let d := (← get).disk
    let has := plan.conversions.contains
    let cannot (fault : Fault) : Work Bool := do
      complain p ("failed to open " ++ quotedFile file ++ ": " ++ fault.reason)
      return false
    let found := d.stat (path file)
    if has "excl" && found.toOption.isSome then cannot .exists
    else if has "nocreat" && found.toOption.isNone then cannot .notFound
    else
      let old := (d.read (path file)).toOption.elim [] Octets.ofBytes
      let isDevice := (found matches .ok (_, .device _)) || (streamOf? file).isSome
      let whole := if isDevice then text
        else if plan.writeFlags.contains "append" then
          (if has "notrunc" then old else []) ++ text
        else overlay old distance (has "notrunc") text
      match ← saveFile file whole with
      | .ok () => return true
      | .error .noSpace =>
        complain p ("error writing " ++ quotedFile file ++ ": " ++ Fault.noSpace.reason)
        return false
      | .error fault => cannot fault

/-- What is told in the end: bytes read and written, and lines cut. -/
def report (plan : Plan) (read written cut : Nat) : String :=
  let size := if plan.together then plan.readSize else plan.writeSize
  let amount := toString written ++ if written = 1 then " byte" else " bytes"
  let cutText := if cut = 0 then ""
    else toString cut ++ if cut = 1 then " truncated record\n" else " truncated records\n"
  records plan.readSize read ++ " records in\n" ++ records size written ++ " records out\n" ++
    cutText ++ if plan.status = "noxfer" then "" else amount ++ " copied, 0 s, 0.0 kB/s\n"

def copy (p : Process) (plan : Plan) : Work Unit := do
  let name := plan.source.getD "standard input"
  match ← readFile (plan.source.getD "-") with
  | .error fault =>
    if fault = .isFolder || fault = .badDescriptor then
      complain p ("error reading " ++ quotedFile name ++ ": " ++ fault.reason)
      if plan.status != "none" then write errors (report plan 0 0 0).toList
    else complain p ("failed to open " ++ quotedFile name ++ ": " ++ fault.reason)
  | .ok all =>
    let skipped := plan.skipped.bytes plan.readSize
    let rest := all.drop skipped
    let taken := plan.most.elim rest fun e => rest.take (e.bytes plan.readSize)
    if plan.source.isNone then
      modify fun o => { o with input := rest.drop taken.length }
    let quiet := plan.status = "none"
    if all.length < skipped && !quiet then
      write errors (p.name ++ ": " ++ (plan.source.elim "'standard input'" fileName) ++
        ": cannot skip to specified offset\n").toList
    let part := taken.length % plan.readSize
    let filler := if plan.conversions.contains "block" || plan.conversions.contains "unblock" then
        ' ' else Char.ofNat 0
    let padded := if plan.conversions.contains "sync" && part != 0 then
        taken ++ List.replicate (plan.readSize - part) filler
      else taken
    let (text, cut) := plan.convert padded
    if ← save p plan text then
      if !quiet then write errors (report plan taken.length text.length cut).toList

end Blocks

/-- Copies blocks; only as much input is taken as blocks are wanted. -/
def copyBlocks (p : Process) : Work Unit :=
  withOptions p {} fun o =>
    match (o.operands.foldlM Blocks.Plan.set {}).bind Blocks.Plan.check with
    | .error (.plain text) => complain p text
    | .error (.usage text) => askForHelp p text
    | .ok plan => Blocks.copy p plan

end LayerCache.Program
