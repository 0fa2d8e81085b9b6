import LayerCache.Compiler.Session
import LayerCache.Project.Config
import LayerCache.Text.Ascii
import LayerCache.Text.Utf8

/-! A compiler that is a program of its own. It reads the source, writes the artifact, and names
symbols it refers to on lines of its error output; the other lines there say why it gave up. -/
namespace LayerCache

inductive ExitStatus where
  | code (n : Nat)
  | signal
  deriving DecidableEq, Repr

/-- What a program has left when it has ended. -/
structure Finished where
  status : ExitStatus
  output : ByteArray
  errors : ByteArray

/-- Runs a command for a unit of some name with a source as its input, or says why it cannot be
started. What commands do is a parameter of all that follows; `Shell.programs` is a value of it. -/
abbrev Programs := CommandSpec → String → ByteArray → Disk → Except String (Finished × Disk)

namespace External

def marker : String := "@ref "

/-- The symbols that lines of error output ask for. -/
def references (lines : List String) : List String :=
  lines.filterMap fun line => match Text.afterStart? marker line with
    | some symbol => if Text.isBlank symbol then none else some (Text.trim symbol)
    | none => none

/-- The lines that ask for nothing and say something. -/
def diagnostics (lines : List String) : List String :=
  lines.filter fun line => !Text.startsWith line marker && !Text.isBlank line

/-- A number of 32 bits, perhaps after a plus. -/
def number? (s : String) : Option Nat := do
  let n ← Chars.number? (match s.toList with
    | '+' :: rest => rest
    | cs => cs)
  if n < 0x100000000 then some n else none

/-- A last line may end in a colon and the number of the line it is about. -/
def cutNumber? (line : String) : Option (String × Nat) := do
  let (head, tail) ← Text.cutLast ':' line
  return (head, ← number? (Text.trim tail))

def describe : ExitStatus → String
  | .code n => "compiler exited with status " ++ toString n
  | .signal => "compiler terminated by signal"

def rejection (diagnostics : List String) (status : ExitStatus) : CompileError :=
  match diagnostics.getLast? with
  | none => .rejected (describe status) none
  | some last => match cutNumber? last with
    | some (head, n) => .rejected (Text.join "; " (diagnostics.dropLast ++ [head])) (some n)
    | none => .rejected (Text.join "; " diagnostics) none

/-- Asks for symbols in turn, whatever the answers are. -/
def ask (artifact : ByteArray) : List String → Session
  | [] => .finish artifact
  | symbol :: rest => .resolve symbol fun _ => ask artifact rest

def conclude (f : Finished) : Session :=
  let lines := Text.lines (Utf8.decodeLossy f.errors)
  if f.status = .code 0 then ask f.output (references lines)
  else .fail (rejection (diagnostics lines) f.status)

/-- Symbols are asked for when the program has ended. -/
def service (programs : Programs) (spec : CommandSpec) : Service := fun _ u =>
  .look fun d => match programs spec u.unit.logical u.content d with
    | .error reason => .fail (.process spec.command reason)
    | .ok (f, d) => .replace d (conclude f)

end External
end LayerCache
