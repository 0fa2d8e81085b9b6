import LayerCache.Disk.Attributes
import LayerCache.Shell.Program.Basic

/-! Finding what a command names. -/
namespace LayerCache.Program

/-- What can be started: a program, or a file whose text tells what to do. -/
inductive Startable where
  | program (name : String)
  | script (text : List Char)

/-- The folders that programs are looked for in unless others are named. -/
def usualFolders : String := "/usr/local/sbin:/usr/local/bin:/usr/sbin:/usr/bin:/sbin:/bin"

/-- A file has to allow that it is started. -/
def startableAt (d : Disk) (p : Path) : Except Fault Startable :=
  match d.stat p with
  | .ok (_, .program name) => .ok (.program name)
  | .ok (place, .file serial content) =>
    if d.modeOf place (.file serial content) &&& 0o111 != 0 then
      .ok (.script (Octets.ofBytes content))
    else .error .denied
  | .ok _ => .error .denied
  | .error fault => .error fault

/-- Looks in one folder after the other; something there that cannot be started is remembered. -/
def search (d : Disk) (command : String) (trouble : Fault) :
    List String → Except Fault (String × Startable)
  | [] => .error trouble
  | folder :: rest =>
    let file := (if folder = "" then "." else folder) ++ "/" ++ command
    match startableAt d (path file) with
    | .ok found => .ok (file, found)
    | .error .denied => search d command .denied rest
    | .error _ => search d command trouble rest

/-- The path of a command and what is there. A command with a slash is a path. -/
def locate (folders : String) (d : Disk) (command : String) : Except Fault (String × Startable) :=
  if command.toList.contains '/' then (startableAt d (path command)).map (command, ·)
  else if command = "" then .error .notFound
  else if Disk.longestName < command.length then .error .nameTooLong
  else search d command .notFound (Text.split ':' folders)

def foldersOf (bindings : Bindings) : String :=
  (bindings.find? "PATH").getD usualFolders

/-- The program that the first line of a script names, with the one argument it may have. -/
def interpreter? (text : List Char) : Option (String × Option String) :=
  match text with
  | '#' :: '!' :: rest =>
    let isBlank (c : Char) := c = ' ' || c = '\t'
    let line := (rest.takeWhile (· != '\n')).dropWhile isBlank
    let name := line.takeWhile (!isBlank ·)
    let more := ((line.drop name.length).dropWhile isBlank).reverse.dropWhile isBlank
    if name.isEmpty then none
    else some (String.ofList (if name.contains '/' then name else '.' :: '/' :: name),
      if more.isEmpty then none else some (String.ofList more.reverse))
  | _ => none

def shellName : String := "/bin/sh"

/-- Starts a command; a script that names no program is left to the shell. -/
def orShell (launch : Launch) (p : Process) : Except Fault Effects :=
  match launch p with
  | .error .notExecutable => match locate (foldersOf p.bindings) p.disk p.name with
    | .ok (file, _) => launch { p with name := shellName, args := file :: p.args }
    | .error fault => .error fault
  | result => result

end LayerCache.Program
