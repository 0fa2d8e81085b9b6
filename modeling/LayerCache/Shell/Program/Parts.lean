import LayerCache.Shell.Program.Lines
import LayerCache.Shell.Program.Sizes

/-! Programs that pass on the beginning or the end of a text. -/
namespace LayerCache.Program

/-- How much of a text to pass on: a number of records or bytes, counted from one end or the
other. -/
structure Extent where
  bytes : Bool := false
  number : Nat := 10
  fromOther : Bool := false
  /-- What ends a record. -/
  ending : Char := '\n'

namespace Extent

def first (e : Extent) (text : List Char) : List Char :=
  let cut {α : Type} (xs : List α) := if e.fromOther then xs.take (xs.length - e.number)
    else xs.take e.number
  if e.bytes then cut text else (cut (Chars.wholeRecords e.ending text)).flatten

def last (e : Extent) (text : List Char) : List Char :=
  let cut {α : Type} (xs : List α) := if e.fromOther then xs.drop (e.number - 1)
    else xs.drop (xs.length - e.number)
  if e.bytes then cut text else (cut (Chars.wholeRecords e.ending text)).flatten

/-- The size of the blocks that input is read in. -/
def blockSize : Nat := 8192

/-- What is left of an input once its first part is known: bytes are taken one by one, and lines
in blocks. -/
def rest (e : Extent) (text : List Char) : List Char :=
  let part := e.first text
  if e.fromOther then []
  else if e.bytes then text.drop part.length
  else if part.count e.ending < e.number then []
  else text.drop ((part.length + blockSize - 1) / blockSize * blockSize)

end Extent

/-- What stands above the text of a file where there are several. -/
def title (many first : Bool) (file : String) : List Char :=
  if many then
    ((if first then "" else "\n") ++ "==> " ++ (if file = "-" then "standard input" else file) ++
      " <==\n").toList
  else []

namespace Parts

def usage : Usage where
  bare := "qvz"
  valued := "nc"
  long := [("bytes=", 'c'), ("lines=", 'n'), ("quiet", 'q'), ("silent", 'q'), ("verbose", 'v'),
    ("zero-terminated", 'z')]

def endUsage : Usage where
  bare := "qvzfF0123456789"
  valued := "ncs"
  long := [("bytes=", 'c'), ("follow?", 'f'), ("lines=", 'n'), ("max-unchanged-stats=", 'm'),
    ("pid=", 'p'), ("quiet", 'q'), ("retry", 'r'), ("silent", 'q'), ("sleep-interval=", 's'),
    ("verbose", 'v'), ("zero-terminated", 'z')]

/-- A number of units, or what is wrong with its text. A sign of one kind counts from the other
end. -/
def extent (bytes : Bool) (sign : Char) (ending : Char) (text : String) : Except String Extent :=
  let (turned, digits) : Bool × String := match text.toList with
    | c :: rest =>
      if c = sign then (true, String.ofList rest)
      else (false, if c = '-' then String.ofList rest else text)
    | [] => (false, text)
  match Sizes.ofText Sizes.usual digits with
  | .ok number => .ok { bytes, number, fromOther := turned, ending }
  | .error flaw => .error ("invalid number of " ++ (if bytes then "bytes" else "lines") ++ ": " ++
      quoted (if turned || digits != text then digits else text) ++ flaw.reason)

/-- The older way to write the first option: a number right behind a dash, and letters behind
that. -/
def oldOptions? (arg : String) : Option (Except Char (List String)) :=
  match arg.toList with
  | '-' :: c :: cs =>
    if !c.isDigit then none
    else
      let digits := (c :: cs).takeWhile Char.isDigit
      let letters := (c :: cs).drop digits.length
      match letters.find? fun c => !"cbkmlqvz".toList.contains c with
      | some c => some (.error c)
      | none =>
        let unit := (letters.filter "cbkml".toList.contains).getLast?
        let kind := match unit with
          | none | some 'l' => "-n"
          | some _ => "-c"
        let scale := match unit with
          | some 'b' => "b"
          | some 'k' => "k"
          | some 'm' => "m"
          | _ => ""
        let others := (letters.filter "qvz".toList.contains).map fun c => String.ofList ['-', c]
        some (.ok ((kind ++ String.ofList digits ++ scale) :: others))
  | _ => none

/-- The older way to name an end: a sign, a number, and letters for what is counted. -/
def oldEnd? (arg : String) : Option (List String) :=
  match arg.toList with
  | sign :: cs =>
    if sign != '+' && (sign != '-' || cs.isEmpty || cs = ['c']) then none
    else
      let digits := cs.takeWhile Char.isDigit
      let letters := cs.drop digits.length
      let (unit, rest) := match letters with
        | c :: rest => if c = 'b' || c = 'c' || c = 'l' then (some c, rest) else (none, letters)
        | [] => (none, [])
      if rest != [] && rest != ['f'] then none
      else
        let number := if digits.isEmpty then (if unit = some 'b' then "5120" else "10")
          else String.ofList digits ++ if unit = some 'b' then "b" else ""
        let kind := if unit = some 'b' || unit = some 'c' then "-c" else "-n"
        some [kind ++ String.singleton sign ++ number]
  | [] => none

/-- A number among the options where none may stand; `waits` tells that a value comes next. -/
def strayDigit? (waits : Bool) : List String → Option Char
  | [] => none
  | a :: rest =>
    if waits then strayDigit? false rest
    else if a = "--" then none
    else match a.toList with
      | '-' :: c :: cs =>
        if c.isDigit then some c
        else strayDigit? (a = "--lines" || a = "--bytes" ||
          (c != '-' && "nsc".toList.contains (cs.getLastD c))) rest
      | _ => strayDigit? false rest

/-- Passes on a part of each file. -/
def pass (p : Process) (u : Usage) (sign : Char) (wording : String → Fault → String)
    (part rest : Extent → List Char → List Char) : Work Unit :=
  withOptions p u fun o => do
    let (bytes, count) := match o.last? "nc" with
      | some (c, value) => (c == 'c', value)
      | none => (false, "10")
    match extent bytes sign (if o.has 'z' then Char.ofNat 0 else '\n') count with
    | .error flaw => complain p flaw
    | .ok e =>
      let shows := match o.last? "qv" with
        | some (c, _) => c == 'v'
        | none => 1 < o.operands.length
      let files := if o.operands.isEmpty then ["-"] else o.operands
      discard <| files.foldlM (fun first file => do
        match ← readFile file with
        | .error fault =>
          if fault = .isFolder then print (title shows first file)
          complain p (wording file fault)
          return first && fault != .isFolder
        | .ok text =>
          print (title shows first file)
          print (part e text)
          if file = "-" then modify fun out => { out with input := rest e text }
          return false) true
      noteClosed p o.operands "-"

def headTrouble (file : String) (fault : Fault) : String :=
  if file = "-" then "error reading 'standard input': " ++ fault.reason
  else if fault = .isFolder then "error reading " ++ quotedFile file ++ ": " ++ fault.reason
  else "cannot open " ++ quotedFile file ++ " for reading: " ++ fault.reason

def tailTrouble (file : String) (fault : Fault) : String :=
  if file = "-" && fault = .badDescriptor then
    "cannot fstat 'standard input': " ++ fault.reason
  else headTrouble file fault

end Parts

def head (p : Process) : Work Unit :=
  let work (args : List String) : Work Unit :=
    Parts.pass { p with args } Parts.usage '-' Parts.headTrouble Extent.first fun e text =>
      if p.rereads then text.drop (e.first text).length else e.rest text
  let stray (c : Char) : Work Unit :=
    askForHelp p ("invalid trailing option -- " ++ String.singleton c)
  match p.args.head?.bind Parts.oldOptions? with
  | some (.error c) => stray c
  | some (.ok options) => match Parts.strayDigit? false p.args.tail with
    | some c => stray c
    | none => work (options ++ p.args.tail)
  | none => match Parts.strayDigit? false p.args with
    | some c => stray c
    | none => work p.args

def tail (p : Process) : Work Unit :=
  let args := match p.args with
    | [arg] => (Parts.oldEnd? arg).getD [arg]
    | [arg, "--"] => (Parts.oldEnd? arg).getD [arg] ++ ["--"]
    | [arg, file] =>
      if Text.startsWith file "-" && file != "-" then [arg, file]
      else (Parts.oldEnd? arg).getD [arg] ++ [file]
    | [arg, "--", file] => (Parts.oldEnd? arg).getD [arg] ++ ["--", file]
    | args => args
  match Parts.strayDigit? false args with
  | some c => complain p ("option used in invalid context -- " ++ String.singleton c)
  | none => Parts.pass { p with args } Parts.endUsage '+' Parts.tailTrouble Extent.last fun _ _ => []

end LayerCache.Program
