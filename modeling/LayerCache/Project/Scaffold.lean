import LayerCache.Build.Run
import LayerCache.Compiler.Scripted
import LayerCache.Zip.Directory

/-! Projects put together for trials: a configuration in pieces, files, archives, and production
builds of it all with the scripted compiler. -/
namespace LayerCache

namespace Scaffold

/-- A piece of a configuration. -/
inductive Piece where
  | text (toml : String)
  | roots (paths : List String)
  | archives (paths : List String)
  deriving DecidableEq, Repr

def quoted (text : String) : String := "\"" ++ text ++ "\""

def Piece.lines : Piece → List String
  | text toml => [toml]
  | roots paths => ["[sources]\nroots = [" ++ Text.join ", " (paths.map quoted) ++ "]"]
  | archives paths => paths.map fun path => "[[archives]]\npath = " ++ quoted path

def opening : List String := ["[project]", "name = \"fixture\"", "version = \"0.1.0\""]

/-- The text of a configuration: every line of every piece is ended. -/
def config (pieces : List Piece) : String :=
  String.join ((opening ++ pieces.flatMap Piece.lines).map (· ++ "\n"))

def writeArchive (d : Disk) (p : Path) (members : List (String × String)) : Disk :=
  d.provide p (Zip.pack (members.map fun (name, text) => (name, text.toUTF8)))

def builder (l : Layout) : Builder := ⟨l, Scripted.service, .listed l.bundles⟩

end Scaffold

namespace Summary

/-- The units that ended in one way, in order. -/
def unitsWith (s : Summary) (outcome : Outcome) : List String :=
  ((s.events.filter fun e => e.outcome = outcome).map (·.unit)).mergeSort fun a b => a ≤ b

end Summary

namespace Site

/-- The units the compiler was called for, in order. -/
def calledUnits (s : Site) : List String := s.called.map fun source => source.unit.logical

/-- How often the compiler was called for a unit, however it is spelled. -/
def callCount (s : Site) (logical : String) : Nat :=
  s.calledUnits.countP fun unit => Text.sameIgnoringCase unit logical

end Site
end LayerCache
