import LayerCache.Command.Run
import LayerCache.Disk.Edit
import LayerCache.Disk.System
import LayerCache.Shell.Start

/-! The command line. Standard input names the files a command may see, one path a line as a file
search prints them; the files it changes are written back when it has ended. -/
namespace LayerCache.CommandLine

/-- The lines left to read, without their ends. -/
partial def readLines (input : IO.FS.Stream) : IO (List String) := do
  let line ← input.getLine
  if line.isEmpty then return []
  return Text.lines line ++ (← readLines input)

/-- A disk with the named files, and commands starting in the folder given. -/
def gather (folder : String) (names : List String) : IO Disk := do
  let here := (Path.mk folder).pieces.filter (· ≠ "")
  let start := { (Disk.system.makeFolders ⟨folder⟩).2 with here }
  names.foldlM (fun d (name : String) => return d.provide ⟨name⟩ (← IO.FS.readBinFile name)) start

def textOf (place : Place) : String := "/" ++ Text.join "/" place

def apply : Disk.Change → IO Unit
  | .remove place => IO.FS.removeFile (textOf place)
  | .makeFolder place => IO.FS.createDirAll (textOf place)
  | .write place content => IO.FS.writeBinFile (textOf place) content

end LayerCache.CommandLine

open LayerCache in
def main (args : List String) : IO UInt32 := do
  let before ← CommandLine.gather (toString (← IO.currentDir))
    (← CommandLine.readLines (← IO.getStdin))
  let (answer, after) := Command.runArguments Shell.programs args before
  (Disk.changes before after).forM CommandLine.apply
  answer.output.forM IO.println
  answer.notices.forM IO.eprintln
  return answer.code.toUInt32
