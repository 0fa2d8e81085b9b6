import LayerCache.Shell.Program.Files
import LayerCache.Shell.Program.Resolve

/-! Programs that take names of files apart or make them plain. -/
namespace LayerCache.Program

/-- A place as an absolute name. -/
def absoluteName (place : Place) : String := Octets.ofText ("/" ++ Text.join "/" place)

/-- Where the disk's relative names start. -/
def here (d : Disk) : String := absoluteName d.here

/-- Where the caller says it is, if that leads to the folder it is in. -/
def logicalFolder? (p : Process) (d : Disk) : Option String :=
  (p.bindings.find? "PWD").filter fun name =>
    (path name).isAbsolute && !(path name).names.any isDots &&
      match d.stat (path name) with
      | .ok (place, _) => place = d.here
      | .error _ => false

def printHere (p : Process) : Work Unit :=
  withOptions p ⟨"LP", "", [("logical", 'L'), ("physical", 'P')], true, ""⟩ fun o => do
    let d := (← get).disk
    if !o.operands.isEmpty then complain p "ignoring non-option arguments" 0
    let logical := if o.last? "LP" matches some ('L', _) then logicalFolder? p d else none
    printLine (logical.getD (here d)).toList

def ending (o : Options) : Char := if o.has 'z' then Char.ofNat 0 else '\n'

/-- How much has to be there, by the option given last. -/
def presenceOf (o : Options) (letters : String) (usual : Disk.Presence) : Disk.Presence :=
  match o.last? letters with
  | some ('e', _) => .all
  | some ('m', _) => .nothing
  | some ('f', _) => .allButLast
  | _ => usual

def readLink (p : Process) : Work Unit :=
  withOptions p ⟨"femnqsvz", "", [("canonicalize", 'f'), ("canonicalize-existing", 'e'),
      ("canonicalize-missing", 'm'), ("no-newline", 'n'), ("quiet", 'q'), ("silent", 's'),
      ("verbose", 'v'), ("zero", 'z')], true, ""⟩ fun o => do
    if o.operands.isEmpty then askForHelp p "missing operand"
    else
      let several := 1 < o.operands.length
      if several && o.has 'n' then complain p "ignoring --no-newline with multiple arguments" 0
      let last := if o.has 'n' && !several then [] else [ending o]
      let speaks := o.last? "qsv" matches some ('v', _)
      o.operands.forM fun name => do
        let d := (← get).disk
        let found : Except Fault String :=
          if o.hasAny "fem" then
            (d.resolve (presenceOf o "fem" .allButLast) true (path name)).map absoluteName
          else match d.look false (path name) with
            | .ok (_, .link target) => .ok (Octets.ofText target.text)
            | .ok _ => .error .invalid
            | .error fault => .error fault
        match found with
        | .ok text => print (text.toList ++ last)
        | .error fault => if speaks then complain p (because name fault.reason) else finish 1

/-- A folder that names are shown from. -/
def baseFolder (p : Process) (o : Options) (letter : Char) (resolve : String → Except Fault Place) :
    Work (Option (Option Place)) :=
  match o.value? letter with
  | none => return some none
  | some name => do
    match resolve name with
    | .error fault =>
      complain p (because name fault.reason)
      return none
    | .ok place =>
      if o.last? "em" matches some ('e', _) then
        if !((← get).disk.entryAt place matches some .folder) then
          complain p (because name Fault.notFolder.reason)
          return none
      return some (some place)

def realPath (p : Process) : Work Unit :=
  withOptions p ⟨"eEmLPqsz", "", [("canonicalize", 'E'), ("canonicalize-existing", 'e'),
      ("canonicalize-missing", 'm'), ("relative-to=", 't'), ("relative-base=", 'b'),
      ("quiet", 'q'), ("strip", 's'), ("no-symlinks", 's'), ("zero", 'z'), ("logical", 'L'),
      ("physical", 'P')], true, ""⟩ fun o => do
    let d := (← get).disk
    let presence := presenceOf o "eEm" .allButLast
    let resolve (name : String) : Except Fault Place :=
      match o.last? "LPs" with
      | some ('s', _) => d.resolve presence false (path name)
      | some ('L', _) => do
        let place ← d.resolve presence false (path name)
        d.resolve presence true (path (absoluteName place))
      | _ => d.resolve presence true (path name)
    if o.operands.isEmpty then askForHelp p "missing operand"
    else match ← baseFolder p o 't' resolve, ← baseFolder p o 'b' resolve with
      | some folder?, some base? =>
        let folder? := match folder?, base? with
          | some folder, some base => if base.isPrefixOf folder then some folder else none
          | none, base? => base?
          | folder?, none => folder?
        o.operands.forM fun name => match resolve name with
          | .error fault =>
            if o.has 'q' then finish 1
            else complain p ((if name = "" then "''" else fileName name) ++ ": " ++ fault.reason)
          | .ok place =>
            let shown := match folder? with
              | some folder =>
                if base?.all (List.isPrefixOf · place) then
                  let way := Disk.wayFrom folder place
                  if way.isEmpty then "." else Octets.ofText (Text.join "/" way)
                else absoluteName place
              | none => absoluteName place
            print (shown.toList ++ [ending o])
      | _, _ => pure ()

/-- The last part of a name, without an ending if something else is left. -/
def lastPart (ending name : String) : String :=
  if !name.isEmpty && name.toList.all (· = '/') then "/"
  else
    let part := bareEnd name
    if part != ending && Text.endsWith part ending then
      String.ofList (part.toList.take (part.length - ending.length))
    else part

def baseName (p : Process) : Work Unit :=
  withOptions p ⟨"az", "s", [("multiple", 'a'), ("suffix=", 's'), ("zero", 'z')], false, ""⟩
    fun o =>
    let shown (cut name : String) : Work Unit := print ((lastPart cut name).toList ++ [ending o])
    let cut := (o.value? 's').getD ""
    match o.operands with
    | [] => askForHelp p "missing operand"
    | [name] => shown cut name
    | names =>
      if o.has 'a' || o.has 's' then names.forM (shown cut)
      else match names with
        | [name, cut] => shown cut name
        | _ => askForHelp p ("extra operand " ++ quotedFile ((names[2]?).getD ""))

/-- All of a name but its last part. -/
def folderPart (name : String) : String :=
  let cs := withoutSlashes name.toList
  if cs.isEmpty then if name.isEmpty then "." else "/"
  else
    let folder := (cs.reverse.dropWhile (· != '/')).reverse
    if folder.isEmpty then "."
    else
      let bare := withoutSlashes folder
      if bare.isEmpty then "/" else String.ofList bare

def folderName (p : Process) : Work Unit :=
  withOptions p ⟨"z", "", [("zero", 'z')], true, ""⟩ fun o =>
    forOperands p o fun name => print ((folderPart name).toList ++ [ending o])

namespace NameCheck

/-- What any system can take. -/
def leastName : Nat := 14

def leastPath : Nat := 256

def isPortable (c : Char) : Bool := c.isAlphanum || c = '.' || c = '_' || c = '-' || c = '/'

def tooLong (limit : Nat) (what text : String) : String :=
  "limit " ++ toString limit ++ " exceeded by length " ++ toString text.length ++ " of file name " ++
    what ++ quotedFile text

/-- What is wrong with a name, if anything is. -/
def flaw? (d : Disk) (basic extra : Bool) (name : String) : Option String :=
  let parts := (Text.split '/' name).filter (· != "")
  if extra && parts.any (Text.startsWith · "-") then
    some ("leading '-' in a component of file name " ++ quotedFile name)
  else if (basic || extra) && name.isEmpty then some "empty file name"
  else if basic then match name.toList.find? (!isPortable ·) with
    | some c => some ("non-portable character " ++ quoted (String.singleton c) ++
        " in file name " ++ quotedFile name)
    | none =>
      if leastPath ≤ name.length then some (tooLong (leastPath - 1) "" name)
      else (parts.find? (leastName < ·.length)).map (tooLong leastName "component ")
  else match d.look false (path name) with
    | .error .notFound => if name.isEmpty then some (because "" Fault.notFound.reason) else none
    | .error .nameTooLong =>
      if Disk.longestPath < name.length then some (tooLong Disk.longestPath "" name)
      else (parts.find? (Disk.longestName < ·.length)).map (tooLong Disk.longestName "component ")
    | .error fault => some (because name fault.reason)
    | .ok _ => none

end NameCheck

def checkNames (p : Process) : Work Unit :=
  withOptions p ⟨"pP", "", [("portability", 'q')], true, ""⟩ fun o =>
    forOperands p o fun name => do
      ((NameCheck.flaw? (← get).disk (o.hasAny "pq") (o.hasAny "Pq") name)).forM (complain p ·)

namespace TemporaryName

/-- The letters of new names, in turn. -/
def letters : List Char :=
  "abcdefghijklmnopqrstuvwxyzABCDEFGHIJKLMNOPQRSTUVWXYZ0123456789".toList

/-- A number written with the letters of new names. -/
def spell : Nat → Nat → List Char
  | 0, _ => []
  | width + 1, n => (letters[n % letters.length]?).getD 'a' :: spell width (n / letters.length)

/-- The head of a template, how many places it leaves open, and its tail. -/
def parts (template : String) : List Char × Nat × List Char :=
  let back := template.toList.reverse
  let tail := (back.takeWhile (· != 'X')).reverse
  let middle := ((back.drop tail.length).takeWhile (· = 'X')).length
  (template.toList.take (template.length - tail.length - middle), middle, tail)

/-- The first name of a template that is not taken. -/
def fresh (d : Disk) (template : String) : String :=
  let (head, width, tail) := parts template
  let name (n : Nat) := String.ofList (head ++ spell width (n * 48271 + 7919) ++ tail)
  ((List.range 1000).map name).find? (fun name => !d.exists (path name)) |>.getD (name 0)

end TemporaryName

def makeTemporary (p : Process) : Work Unit :=
  withOptions p ⟨"dquVt", "p", [("directory", 'd'), ("quiet", 'q'), ("dry-run", 'u'),
      ("suffix=", 's'), ("tmpdir?", 'p')], true, ""⟩ fun o => do
    let d := (← get).disk
    let template := o.operands.head?.getD "tmp.XXXXXXXXXX"
    let suffix? := o.value? 's'
    let whole := template ++ suffix?.getD ""
    let (_, width, tail) := TemporaryName.parts template
    let inFolder := o.operands.isEmpty || o.has 't' || o.has 'p'
    if 1 < o.operands.length then askForHelp p "too many templates"
    else if suffix?.isSome && !Text.endsWith template "X" then
      complain p ("with --suffix, template " ++ quotedFile template ++ " must end in X")
    else if ((suffix?.getD "").toList ++ tail).contains '/' then
      complain p ("invalid suffix " ++ quotedFile (suffix?.getD (String.ofList tail)) ++
        ", contains directory separator")
    else if width < 3 then complain p ("too few X's in template " ++ quotedFile template)
    else if o.has 't' && template.toList.contains '/' then
      complain p ("invalid template, " ++ quotedFile template ++ ", contains directory separator")
    else if o.has 'p' && Text.startsWith template "/" then
      complain p ("invalid template, " ++ quotedFile template ++
        "; with --tmpdir, it may not be absolute")
    else
      let told := (o.value? 'p').filter (· != "")
      let usual := (p.bindings.find? "TMPDIR").filter (· != "")
      let folder := if o.has 't' then (usual.or told).getD "/tmp" else (told.or usual).getD "/tmp"
      let whole := if inFolder then within folder whole else whole
      let name := TemporaryName.fresh d whole
      let (kind, change) : String × (Disk → Except Fault Disk) :=
        if o.has 'd' then ("directory", fun d => do
          let d ← d.makeFolder (path name)
          let (place, _) ← d.stat (path name)
          return d.setMode place 0o700)
        else ("file", fun d => do
          let d ← d.write (path name) .empty
          let (place, _) ← d.stat (path name)
          return d.setMode place 0o600)
      let unusable := match d.find .self (path name) with
        | .error fault => fault != .notFound
        | .ok _ => false
      if o.has 'u' && !unusable then printLine name.toList
      else match ← onDisk change with
        | .ok () => printLine name.toList
        | .error fault =>
          if o.has 'q' then finish 1
          else complain p ("failed to create " ++ kind ++ " via template " ++ quotedFile whole ++
            ": " ++ fault.reason)

end LayerCache.Program
