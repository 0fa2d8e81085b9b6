import LayerCache.Disk.Attributes
import LayerCache.Shell.Program.Options
import LayerCache.Shell.Program.Sizes

/-! Files made as long as is wanted. -/
namespace LayerCache.Program

namespace Resize

/-- A size, or what becomes of the one there is. -/
inductive Change where
  | exactly
  | more
  | less
  | atMost
  | atLeast
  | down
  | up
  deriving DecidableEq, Repr

def changeOf (c : Char) : Option Change :=
  [('+', .more), ('-', .less), ('<', .atMost), ('>', .atLeast), ('/', .down), ('%', .up)].lookup c

def Change.apply (c : Change) (n size : Nat) : Nat :=
  match c with
  | exactly => n
  | more => size + n
  | less => size - n
  | atMost => min size n
  | atLeast => max size n
  | down => size / n * n
  | up => (size + n - 1) / n * n

def read (text : String) : Except String (Change × Nat) := do
  let cs := text.toList.dropWhile Sizes.isBlank
  let (change, digits) := match cs with
    | c :: rest => match changeOf c with
      | some change => (change, rest)
      | none => (.exactly, cs)
    | [] => (.exactly, [])
  let bad (reason : String) : Except String (Change × Nat) :=
    .error ("Invalid number: " ++ quoted text ++ reason)
  if !(digits.dropWhile Sizes.isBlank).head?.any Char.isDigit then bad ""
  else match Sizes.ofText Sizes.usual (String.ofList digits) with
    | .error flaw => bad flaw.reason
    | .ok n =>
      if Sizes.bound / 2 ≤ n then bad Sizes.Flaw.tooLarge.reason
      else if n = 0 && (change = .down || change = .up) then throw "division by zero"
      else return (change, n)

def usage : Usage where
  bare := "co"
  valued := "rs"
  long := [("no-create", 'c'), ("io-blocks", 'o'), ("reference=", 'r'), ("size=", 's')]

def resized (content : List Char) (size : Nat) : List Char :=
  content.take size ++ List.replicate (size - content.length) (Char.ofNat 0)

def resize (p : Process) (o : Options) (size : Nat → Nat) (name : String) : Work Unit := do
  let d := (← get).disk
  let cannot (fault : Fault) : Work Unit :=
    complain p ("cannot open " ++ quotedFile name ++ " for writing: " ++ fault.reason)
  match d.stat (path name) with
  | .error .notFound =>
    if !o.has 'c' then match ← saveFile name (resized [] (size 0)) with
      | .ok () => pure ()
      | .error fault => cannot fault
  | .error fault => cannot fault
  | .ok (_, .folder) => cannot .isFolder
  | .ok (_, .device _) =>
    complain p ("failed to truncate " ++ quotedFile name ++ " at " ++ toString (size 0) ++
      " bytes: " ++ Fault.invalid.reason)
  | .ok _ => match ← readFile name with
    | .ok content => match ← saveFile name (resized content (size content.length)) with
      | .ok () => pure ()
      | .error fault => cannot fault
    | .error fault => cannot fault

end Resize

def truncate (p : Process) : Work Unit :=
  withOptions p Resize.usage fun o =>
    match (o.value? 's').mapM Resize.read with
    | .error flaw => complain p flaw
    | .ok wanted => do
      let reference := o.value? 'r'
      let isExact := wanted.any fun (change, _) => change = .exactly
      if wanted.isNone && reference.isNone then
        askForHelp p "you must specify either '--size' or '--reference'"
      else if reference.isSome && isExact then
        askForHelp p "you must specify a relative '--size' with '--reference'"
      else if o.has 'o' && wanted.isNone then
        askForHelp p "'--io-blocks' was specified but '--size' was not"
      else if o.operands.isEmpty then askForHelp p "missing file operand"
      else
        let d := (← get).disk
        let base ← match reference with
          | none => pure (some none)
          | some name => match d.stat (path name) with
            | .ok (_, entry) => pure (some (some entry.size))
            | .error fault => do
              complain p ("cannot stat " ++ quotedFile name ++ ": " ++ fault.reason)
              pure none
        let unit := if o.has 'o' then 4096 else 1
        match base with
        | none => pure ()
        | some base => o.operands.forM (Resize.resize p o fun size =>
          let start := base.getD size
          match wanted with
          | some (change, n) => change.apply (n * unit) start
          | none => start)

end LayerCache.Program
