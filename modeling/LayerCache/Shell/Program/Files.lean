import LayerCache.Disk.Attributes
import LayerCache.Shell.Program.Mode
import LayerCache.Shell.Program.Options

/-! Programs that make and remove files and folders. -/
namespace LayerCache.Program

/-- Asks a question and takes a line for the answer. -/
def ask (p : Process) (question : String) : Work Bool := do
  write errors (p.name ++ ": " ++ question ++ " ").toList
  let text := (← get).input
  let line := text.takeWhile (· != '\n')
  modify fun o => { o with input := text.drop (line.length + 1) }
  return line.head? == some 'y' || line.head? == some 'Y'

/-- Changes the disk, or says what could not be done. -/
def attempt (p : Process) (wording : String) (change : Disk → Except Fault Disk) : Work Bool := do
  match ← onDisk change with
  | .ok () => return true
  | .error fault =>
    complain p (wording ++ ": " ++ fault.reason)
    return false

/-- Works through operands, of which there has to be one. -/
def forOperands (p : Process) (o : Options) (work : String → Work Unit)
    (what : String := "operand") : Work Unit :=
  if o.operands.isEmpty then askForHelp p ("missing " ++ what) else o.operands.forM work

def withoutSlashes (name : List Char) : List Char := (name.reverse.dropWhile (· = '/')).reverse

/-- The last part of a name, with the slashes behind it. -/
def endOf (name : String) : String :=
  let bare := withoutSlashes name.toList
  let last := (bare.reverse.takeWhile (· != '/')).length
  String.ofList (name.toList.drop (bare.length - last))

/-- The last part of a name without slashes behind it. -/
def bareEnd (name : String) : String := String.ofList (withoutSlashes (endOf name).toList)

/-- A name within a folder. -/
def within (folder name : String) : String :=
  if folder.toList.getLast? == some '/' then folder ++ name else folder ++ "/" ++ name

/-- The names in a folder in order. -/
def childrenOf (d : Disk) (place : Place) : List String :=
  (d.below place).filterMap fun
    | ([name], _) => some (Octets.ofText name)
    | _ => none

def isDots (name : String) : Bool := name = "." || name = ".."

/-- What an entry is called in a question. -/
def kindOf (d : Disk) (place : Place) : Entry → String
  | .folder => "directory"
  | .link _ => "symbolic link"
  | .device _ => "character special file"
  | entry =>
    if (d.traits.find? place).any Traits.isPipe then "fifo"
    else if entry.size = 0 then "regular empty file" else "regular file"

namespace Removal

/-- Removes one file or one empty folder. -/
def removeOne (p : Process) (o : Options) (name : String) (place : Place) (entry : Entry) :
    Work Unit := do
  let d := (← get).disk
  if o.last? "fiI" matches some ('i', _) then
    if !(← ask p ("remove " ++ kindOf d place entry ++ " " ++ quotedFile name ++ "?")) then return
  if entry.isFolder && !(d.below place).isEmpty then
    complain p ("cannot remove " ++ quotedFile name ++ ": " ++ Fault.notEmpty.reason)
  else
    modify fun e => { e with disk := e.disk.drop place }
    if o.has 'v' then
      printLine ((if entry.isFolder then "removed directory " else "removed ") ++
        quotedFile name).toList

def removeTree (p : Process) (o : Options) : Nat → String → Place → Entry → Work Unit
  | 0, _, _, _ => pure ()
  | fuel + 1, name, place, entry => do
    let d := (← get).disk
    if entry.isFolder && !(d.below place).isEmpty then
      if o.last? "fiI" matches some ('i', _) then
        if !(← ask p ("descend into directory " ++ quotedFile name ++ "?")) then return
      (childrenOf d place).forM fun child => do
        let under := place ++ [Octets.toText child]
        ((← get).disk.entryAt under).forM fun entry =>
          removeTree p o fuel (within name child) under entry
    removeOne p o name place entry

def depth (d : Disk) : Nat := d.entries.pairs.foldl (fun n (place, _) => max n place.length) 0 + 2

/-- Links are removed themselves, so none may be asked for as a folder. -/
def locate (d : Disk) (name : String) : Except Fault (Place × Entry) := do
  let at? := path name
  match ← d.findFrom .self at? at?.names with
  | .free _ _ => throw .notFound
  | .taken place entry =>
    if at?.asksForFolder && !entry.isFolder then throw .notFolder
    return (place, entry)

def remove (p : Process) (o : Options) (name : String) : Work Unit := do
  let recursive := o.hasAny "rR"
  let cannot (reason : String) := complain p ("cannot remove " ++ quotedFile name ++ ": " ++ reason)
  match locate (← get).disk name with
  | .error fault =>
    if !((o.last? "fiI" matches some ('f', _)) && (fault = .notFound || fault = .notFolder)) then
      cannot fault.reason
  | .ok (place, entry) =>
    if !entry.isFolder then removeOne p o name place entry
    else if !recursive && !o.has 'd' then cannot Fault.isFolder.reason
    else if isDots (bareEnd name) then
      complain p ("refusing to remove '.' or '..' directory: skipping " ++ quotedFile name)
    else if place.isEmpty then
      let also := if name = "/" then "" else " (same as '/')"
      complain p ("it is dangerous to operate recursively on " ++ quotedFile name ++ also)
      complain p "use --no-preserve-root to override this failsafe"
    else if recursive then removeTree p o (depth (← get).disk) name place entry
    else removeOne p o name place entry

end Removal

/-- When questions are asked: never, once, or always. -/
def questionWords : List (List String × Char) :=
  [(["never", "no", "none"], 'f'), (["once"], 'I'), (["always", "yes"], 'i')]

def remove (p : Process) : Work Unit :=
  withOptions p ⟨"rRfidvI", "", [("recursive", 'r'), ("force", 'f'), ("dir", 'd'),
      ("verbose", 'v'), ("interactive?", 'w'), ("one-file-system", 'x'), ("preserve-root?", 'y'),
      ("no-preserve-root", 'y')], true, ""⟩ fun o =>
    let work (o : Options) : Work Unit := do
      if o.operands.isEmpty then
        if !o.has 'f' then askForHelp p "missing operand"
      else
        let n := toString o.operands.length
        let asks := (o.last? "fiI" matches some ('I', _)) &&
          (o.hasAny "rR" || 3 < o.operands.length)
        let question := "remove " ++ n ++ (if n = "1" then " argument" else " arguments") ++
          (if o.hasAny "rR" then " recursively?" else "?")
        let agreed ← if asks then ask p question else pure true
        if agreed then o.operands.forM (Removal.remove p o)
    match o.value? 'w' with
    | none => work o
    | some "" => work { o with given := o.given ++ [('i', "")] }
    | some word => withChoice p "interactive" word questionWords fun c =>
      work { o with given := o.given ++ [(c, "")] }

/-- Why a folder cannot be removed, if it cannot. -/
def emptyFolder (d : Disk) (name : String) : Except Fault Place := do
  let p := path name
  match p.names.getLast? with
  | some "." => throw .invalid
  | _ => pure ()
  match ← d.findFrom .self p p.names with
  | .free _ _ => throw .notFound
  | .taken place .folder =>
    if place.isEmpty then throw .busy
    if p.names.getLast? = some ".." || !(d.below place).isEmpty then throw .notEmpty
    return place
  | .taken _ _ => throw .notFolder

/-- The names of the folders above a name, the nearest first. -/
def parentsOf (name : String) : List String := go name.length (withoutSlashes name.toList)
where
  go : Nat → List Char → List String
    | 0, _ => []
    | fuel + 1, cs =>
      let up := (cs.reverse.dropWhile (· != '/')).reverse
      if up.isEmpty then []
      else
        let bare := withoutSlashes up
        if bare.isEmpty then ["/"] else String.ofList bare :: go fuel bare

/-- Removes one folder and tells whether to go on with those above it. -/
def dropFolder (p : Process) (o : Options) (what name : String) : Work Bool := do
  if o.has 'v' then printLine (p.name ++ ": removing directory, " ++ quotedFile name).toList
  match emptyFolder (← get).disk name with
  | .ok place =>
    modify fun e => { e with disk := e.disk.drop place }
    return true
  | .error fault =>
    let d := (← get).disk
    let isLink := (path name).asksForFolder &&
      d.find .self ⟨String.ofList (withoutSlashes (path name).text.toList)⟩
        matches .ok (.taken _ (.link _))
    if fault = .notEmpty && o.has 'i' then pure ()
    else if fault = .notFolder && isLink && d.isFolder (path name) then
      complain p ("failed to remove " ++ quotedFile name ++ ": Symbolic link not followed")
    else
      let what := if fault = .notFolder then "" else what
      complain p ("failed to remove " ++ what ++ quotedFile name ++ ": " ++ fault.reason)
    return false

def removeFolder (p : Process) : Work Unit :=
  withOptions p ⟨"pv", "", [("parents", 'p'), ("verbose", 'v'),
      ("ignore-fail-on-non-empty", 'i')], true, ""⟩ fun o =>
    forOperands p o fun name => do
      let rec climb : List String → Work Unit
        | [] => pure ()
        | up :: rest => do if ← dropFolder p o "directory " up then climb rest
      if ← dropFolder p o "" name then
        if o.has 'p' then climb (parentsOf name)

namespace FolderMaking

/-- Makes one folder, with the access asked for. -/
def makeOne (p : Process) (o : Options) (mode : Option Nat) (name : String) :
    Work (Except Fault Unit) := do
  let made ← onDisk fun d => do
    let d ← d.makeFolder (path name)
    let (place, _) ← d.stat (path name)
    return mode.elim d (d.setMode place)
  if made.toOption.isSome && o.has 'v' then
    printLine (p.name ++ ": created directory " ++ quotedFile name).toList
  return made

/-- Makes what is missing on the way to a name; tells the flaw and where it is. -/
def makeWay (p : Process) (o : Options) (mode : Option Nat) :
    List String → Work (Option (String × Fault))
  | [] => return none
  | name :: rest => do
    match ← makeOne p o (if rest.isEmpty then mode else none) name with
    | .ok () => makeWay p o mode rest
    | .error fault =>
      if (← get).disk.isFolder (path name) then makeWay p o mode rest
      else
        let fault := if fault = .exists && !rest.isEmpty then .notFolder else fault
        return some (name, fault)

end FolderMaking

/-- The way to a name, from its first part to all of it. -/
def wayTo (name : String) : List String :=
  ((parentsOf name).reverse.filter (· != "/")) ++ [name]

def makeFolder (p : Process) : Work Unit :=
  withOptions p ⟨"pvZ", "m", [("parents", 'p'), ("mode=", 'm'), ("verbose", 'v'),
      ("context?", 'Z')], true, ""⟩ fun o => do
    let mask := (← get).disk.mask
    if o.operands.isEmpty then askForHelp p "missing operand"
    else
      let mode : Option (Option Nat) := match o.value? 'm' with
        | none => some none
        | some text => (Mode.ofText? text).map fun change => some (change mask true 0o777)
      match mode with
      | none => complain p ("invalid mode " ++ quotedFile ((o.value? 'm').getD ""))
      | some mode => o.operands.forM fun name => do
        let flaw ← if o.has 'p' && name != "" then FolderMaking.makeWay p o mode (wayTo name)
          else do
            match ← FolderMaking.makeOne p o mode name with
            | .ok () => pure none
            | .error fault => pure (some (name, fault))
        flaw.forM fun (name, fault) =>
          complain p ("cannot create directory " ++ quotedFile name ++ ": " ++ fault.reason)

def unlink (p : Process) : Work Unit :=
  withOptions p {} fun o => match o.operands with
    | [] => askForHelp p "missing operand"
    | [name] => discard (attempt p ("cannot unlink " ++ quotedFile name) (·.remove (path name)))
    | _ :: other :: _ => askForHelp p ("extra operand " ++ quotedFile other)

def makePipe (p : Process) : Work Unit :=
  withOptions p ⟨"", "m", [("mode=", 'm')], true, ""⟩ fun o => do
    let mask := (← get).disk.mask
    match (o.value? 'm').map Mode.ofText? with
    | some none => complain p "invalid mode"
    | mode => forOperands p o fun name => do
      discard <| attempt p ("cannot create fifo " ++ quotedFile name) fun d => do
        match ← d.find .self (path name) with
        | .taken _ _ => throw .exists
        | .free folder last =>
          let place := folder ++ [last]
          let d := (d.addFile place .empty).changeTraits place ({ · with isPipe := true })
          return match mode.join with
            | some change => d.setMode place (change mask false 0o666)
            | none => d

end LayerCache.Program
