import LayerCache.Disk.Edit
import LayerCache.Sources.Archives

/-! A unit ready to be compiled, and why compiling one may fail. -/
namespace LayerCache

/-- Where the source of a unit was found. -/
inductive Origin where
  | root (rank : Nat) (path : Path)
  | archive (entry : EntryRef)
  deriving DecidableEq

def Origin.text : Origin → String
  | root _ path => path.text
  | archive entry => toString entry

instance : ToString Origin := ⟨Origin.text⟩

structure UnitSource where
  unit : UnitId
  origin : Origin
  content : ByteArray

inductive CompileError where
  /-- The compiler does not accept the source, at a line of it if that is known. -/
  | rejected (message : String) (line : Option Nat)
  | panicked (message : String)
  | process (command reason : String)
  | source (reason : String)
  deriving DecidableEq, Repr

namespace CompileError

def message : CompileError → String
  | rejected message _ => message
  | panicked message => "compiler panicked: " ++ message
  | process command reason => "failed to run compiler '" ++ command ++ "': " ++ reason
  | source reason => "unable to read source: " ++ reason

def line : CompileError → Option Nat
  | rejected _ line => line
  | _ => none

end CompileError
end LayerCache

/-! A compiler seen from the build: a conversation about one unit. It may ask for symbols, whose
units are then made available before it goes on, may use the disk, and ends in one of three ways. -/
namespace LayerCache

/-- What a compiler leaves behind when it breaks down: a text, or nothing that can be shown. -/
abbrev Breakdown := Option String

def Breakdown.message (b : Breakdown) : String := b.getD "non-string panic payload"

inductive Session where
  | finish (artifact : ByteArray)
  | fail (error : CompileError)
  | breakdown (b : Breakdown)
  /-- Goes on with whether the symbol is there now. -/
  | resolve (symbol : String) (next : Bool → Session)
  | look (next : Disk → Session)
  | replace (d : Disk) (next : Session)

namespace Session

/-- Runs a session in a world of its caller's: the answers to symbols and the disk are there. A
breakdown stays within the unit. -/
def run {σ : Type} (answer : String → σ → Bool × σ) (disk : σ → Disk) (setDisk : Disk → σ → σ) :
    Session → σ → Except CompileError ByteArray × σ
  | finish artifact, s => (.ok artifact, s)
  | fail error, s => (.error error, s)
  | breakdown b, s => (.error (.panicked b.message), s)
  | resolve symbol next, s =>
    let (found, s) := answer symbol s
    run answer disk setDisk (next found) s
  | look next, s => run answer disk setDisk (next (disk s)) s
  | replace d next, s => run answer disk setDisk next (setDisk d s)

/-- A session that leaves the disk to the build. -/
def Quiet : Session → Prop
  | resolve _ next => ∀ found, (next found).Quiet
  | look _ | replace _ _ => False
  | _ => True

end Session

/-- A compiler may change with every call, counted from zero. -/
abbrev Service := Nat → UnitSource → Session

end LayerCache
