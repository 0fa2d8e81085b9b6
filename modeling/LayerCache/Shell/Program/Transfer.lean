import LayerCache.Shell.Program.Targets

/-! Programs that copy and move files and folders. -/
namespace LayerCache.Program

/-- Whether links are copied or what they lead to. -/
inductive Following where
  | always
  | ifNamed
  | never
  deriving DecidableEq, Repr

structure Transfer where
  moves : Bool := false
  recursive : Bool := false
  following : Following := .always
  asking : Asking := .undecided
  keepsMode : Bool := false
  keepsTime : Bool := false
  speaks : Bool := false
  onlyNewer : Bool := false
  /-- Links are made in place of copies. -/
  asLinks : Bool := false
  /-- More names are made in place of copies. -/
  asNames : Bool := false
  withParents : Bool := false
  removesFirst : Bool := false
  onlyTraits : Bool := false
  backup : Option Backup := none
  suffix : String := "~"

namespace Transfer

/-- What has been transferred so far: places of sources and of what was made. -/
structure History where
  sources : List Place := []
  made : List Place := []

def arrow (source target : String) : String := quotedFile source ++ " -> " ++ quotedFile target

def tell (t : Transfer) (opening source target : String) (kept : Option String) : Work Unit := do
  if t.speaks then
    let backup := kept.elim "" fun name => " (backup: " ++ quotedFile name ++ ")"
    printLine (opening ++ arrow source target ++ backup).toList

/-- Whether links themselves are transferred. -/
def takesLinks (t : Transfer) (named : Bool) : Bool :=
  t.following = .never || (t.following = .ifNamed && !named)

/-- Two names that may stand for one entry: whether that is allowed, and whether all is done. -/
def samenessAllowed (d : Disk) (t : Transfer) (source target : String)
    (sourcePlace targetPlace : Place) : Bool × Bool :=
  let same := d.areSame sourcePlace targetPlace
  let sourceIsLink := d.look false (path source) matches .ok (_, .link _)
  let targetIsLink := d.look false (path target) matches .ok (_, .link _)
  let oneName := areOneName d source target
  let ends : Bool :=
    match d.look true (path source), d.look true (path target) with
    | .ok (a, _), .ok (b, _) => d.areSame a b
    | _, _ => false
  if same && t.asNames then (true, true)
  else if t.following = .never && sourceIsLink && targetIsLink then (!oneName, false)
  else if t.following != .never && !same then (true, false)
  else if t.backup.isSome then
    (if t.following != .never && sourceIsLink && !targetIsLink then false else !oneName, false)
  else if (t.moves || t.removesFirst) && targetIsLink then (true, false)
  else if (t.moves || t.removesFirst) && same && !oneName then (!t.moves, false)
  else if !sourceIsLink && !targetIsLink then (!same, false)
  else if t.asLinks && targetIsLink then (true, false)
  else if t.following = .never then (!ends, t.asNames && !targetIsLink)
  else (false, false)

/-- What stands at a target is dealt with before something goes there. Tells whether the target is
free now and what was kept of it; nothing if there is nothing more to do. -/
def clear (p : Process) (t : Transfer) (h : History) (named : Bool) (source target : String)
    (place : Place) (entry : Entry) : Work (Option (Bool × Option String)) := do
  let d := (← get).disk
  let isPlain := entry matches .file _ _ | .program _
  let atName := t.moves || t.asLinks || t.asNames || t.backup.isSome || t.removesFirst ||
    !(isPlain || (entry matches .device _) && !t.recursive)
  let stop (text : String) : Work (Option (Bool × Option String)) := do
    complain p text
    return none
  match d.look (!atName) (path (if t.moves && target = "" then "." else target)) with
  | .error .notFound => return some (true, none)
  | .error fault =>
    if fault = .tooManyLinks && t.asking = .force then return some (true, none)
    else stop ("cannot stat " ++ quotedFile target ++ ": " ++ fault.reason)
  | .ok (there, old) =>
    let (allowed, isDone) := samenessAllowed d t source target place there
    let decides := t.asking != .never && t.asking != .skip
    let older := t.onlyNewer && !entry.isFolder &&
      !Disk.isNewer (d.ageOf place entry) (d.ageOf there old)
    if decides && !allowed then
      return ← stop (quotedFile source ++ " and " ++ quotedFile target ++ " are the same file")
    if decides && isDone then return none
    let refused ← if older then pure true
      else if !t.moves && entry.isFolder then pure false
      else match t.asking with
        | .never | .skip => pure true
        | .always => do
          let agreed ← ask p ("overwrite " ++ quotedFile target ++ "?")
          if !agreed then finish 1
          pure (!agreed)
        | _ => pure false
    if refused then
      if t.asking = .never then return ← stop ("not replacing " ++ quotedFile target)
      return none
    if t.backup.isNone && entry.isFolder && !old.isFolder then
      stop ("cannot overwrite non-directory " ++ quotedFile target ++ " with directory " ++
        quotedFile source)
    else if t.backup.isNone && !entry.isFolder && old.isFolder then
      stop ("cannot overwrite directory " ++ quotedFile target ++ " with non-directory")
    else if named && !old.isFolder && t.backup != some .numbered && h.made.contains there then
      stop ("will not overwrite just-created " ++ quotedFile target ++ " with " ++
        quotedFile source)
    else match t.backup with
      | some kind =>
        if isDots (bareEnd source) || (!t.moves && old.isFolder) then return some (false, none)
        else
          let kept := kind.nameFor d t.suffix target
          match ← onDisk (·.rename true (path target) (path kept)) with
          | .ok () => return some (true, some kept)
          | .error fault =>
            stop ("cannot backup " ++ quotedFile target ++ ": " ++ fault.reason)
      | none =>
        if !old.isFolder && !t.moves && (t.removesFirst || (t.following = .never && !isPlain)) then
          modify fun e => { e with disk := e.disk.drop there }
          if t.speaks && t.removesFirst then printLine ("removed " ++ quotedFile target).toList
          return some (true, none)
        else return some (false, none)

def moveOne (p : Process) (t : Transfer) (h : History) (source target : String) : Work Unit := do
  let moved ← onDisk (·.rename false (path source) (path target))
  match moved with
  | .ok () => t.tell "renamed " source target none
  | .error fault =>
    if fault = .exists && t.asking = .never then
      complain p ("not replacing " ++ quotedFile target)
    else match (← get).disk.look false (path source) with
      | .error fault => complain p ("cannot stat " ++ quotedFile source ++ ": " ++ fault.reason)
      | .ok (place, entry) =>
        match ← clear p t h true source target place entry with
        | none => pure ()
        | some (free, kept) =>
          let again ← if free && kept.isNone then pure moved
            else onDisk (·.rename true (path source) (path target))
          match again with
          | .ok () => t.tell "renamed " source target kept
          | .error fault =>
            let shown := quotedFile source ++ " to "
            if fault = .invalid then
              complain p ("cannot move " ++ shown ++ "a subdirectory of itself, " ++
                quotedFile target)
            else if [Fault.exists, .isFolder, .noSpace, .notEmpty].contains fault then
              complain p ("cannot overwrite " ++ quotedFile target ++ ": " ++ fault.reason)
            else complain p ("cannot move " ++ shown ++ quotedFile target ++ ": " ++ fault.reason)

/-- Gives a copy what it takes over from its source. -/
def takeOver (t : Transfer) (d : Disk) (source : Place) (entry : Entry) (isNew : Bool)
    (target : Place) : Disk :=
  let mode := d.modeOf source entry
  let d := if t.keepsMode then d.setMode target mode
    else if isNew then d.setMode target (Mode.without (mode &&& 0o777) d.mask) else d
  if t.keepsTime then d.setTime target (d.timeOf source) else d

/-- Copies the content of a file. -/
def copyContent (p : Process) (t : Transfer) (source target : String) (place : Place)
    (entry : Entry) (isNew : Bool) : Work Unit := do
  let shown := quotedFile target ++ ": "
  let cannot (fault : Fault) := complain p ("cannot create regular file " ++ shown ++ fault.reason)
  match ← readFile source with
  | .error fault =>
    complain p ("cannot open " ++ quotedFile source ++ " for reading: " ++ fault.reason)
  | .ok text =>
    let dangles := isNew && ((← get).disk.look false (path target) matches .ok (_, .link _))
    if (streamOf? target).isSome then discard (saveFile target text)
    else if dangles then complain p ("not writing through dangling symlink " ++ quotedFile target)
    else match ← saveFile target text with
      | .error .noSpace => complain p ("error writing " ++ shown ++ Fault.noSpace.reason)
      | .error fault =>
        cannot (if fault = .isFolder && (path target).asksForFolder then .notFolder else fault)
      | .ok () => modify fun e => match e.disk.stat (path target) with
        | .ok (there, .file serial _) =>
          let disk := match entry with
            | .program _ => e.disk.set there entry
            | _ => e.disk.set there (.file serial (Octets.toBytes text))
          { e with disk := t.takeOver disk place entry isNew there }
        | _ => e

/-- Makes the target a link to the source. -/
def copyAsLink (p : Process) (t : Transfer) (source target : String) : Work Unit := do
  let d := (← get).disk
  let inHere := match d.find .self (path target) with
    | .ok (.taken place _) => place.dropLast = d.here
    | .ok (.free folder _) => folder = d.here
    | .error _ => true
  if !(path source).isAbsolute && !inHere then
    complain p (fileName target ++ ": can make relative symbolic links only in current directory")
  else
    if t.asking = .force then discard (onDisk (·.remove (path target)))
    discard <| attempt p ("cannot create symbolic link " ++ quotedFile target ++ " to " ++
      quotedFile source) (·.makeLink (path target) (path source))

/-- Copies one entry, and what a folder holds. `own` is the first folder made for the source named,
which is not copied itself. -/
def copyOne (p : Process) (t : Transfer) (h : History) (tops : String × String) :
    Nat → Option Place → List Place → Bool → String → String → Work Unit
  | 0, _, _, _, _, _ => pure ()
  | fuel + 1, own, above, named, source, target => do
    let d := (← get).disk
    let found := if inputNames.contains source && source != "-" then .ok ([], .device .null)
      else d.look (!t.takesLinks named) (path source)
    match found with
    | .error fault => complain p ("cannot stat " ++ quotedFile source ++ ": " ++ fault.reason)
    | .ok (place, entry) =>
      if entry.isFolder && !t.recursive then
        let why := if p.name = "install" then "" else "-r not specified; "
        return ← complain p (why ++ "omitting directory " ++ quotedFile source)
      if named && !entry.isFolder && t.backup.isNone && h.sources.contains place then
        return ← complain p ("warning: source file " ++ quotedFile source ++
          " specified more than once") (match (← get).ending with | .code n => n | _ => 0)
      if own = some place then
        return ← complain p ("cannot copy a directory, " ++ quotedFile tops.1 ++
          ", into itself, " ++ quotedFile tops.2)
      match ← clear p t h named source target place entry with
      | none => pure ()
      | some (isNew, kept) =>
        if !entry.isFolder then t.tell "" source target kept
        match entry with
        | .folder =>
          if above.contains place then
            return ← complain p ("cannot copy cyclic symbolic link " ++ quotedFile source)
          let goes ← if isNew then do
              let made ← attempt p ("cannot create directory " ++ quotedFile target)
                (·.makeFolder (path target))
              if made then t.tell "" source target none
              pure made
            else pure true
          if goes then
            let there? := ((← get).disk.stat (path target)).toOption.map Prod.fst
            let own := if isNew then own.or there? else own
            (childrenOf (← get).disk place).forM fun child =>
              copyOne p t h tops fuel own (place :: above) false (within source child)
                (within target child)
            there?.forM fun there =>
              modify fun e => { e with disk := t.takeOver e.disk place entry isNew there }
        | entry =>
          if t.asLinks then copyAsLink p t source target
          else if t.asNames && !entry.isLink then
            if t.asking = .force then discard (onDisk (·.remove (path target)))
            discard <| attempt p ("cannot create hard link " ++ quotedFile target ++ " to " ++
              quotedFile source) (·.addName place (path target))
          else match entry with
            | .link way => discard <| attempt p ("cannot create symbolic link " ++
                quotedFile target) (·.makeLink (path target) way)
            | .device device =>
              if t.recursive then discard <| onDisk fun d => match d.find .self (path target) with
                | .ok (.free folder name) => .ok (d.set (folder ++ [name]) (.device device))
                | _ => .error .exists
              else copyContent p t source target place entry isNew
            | _ => copyContent p t source target place entry isNew

/-- Goes through the sources, remembering what was made. -/
def forTargets (h : History) (work : History → String → String → Work Unit) :
    List (String × String) → Work Unit
  | [] => pure ()
  | (source, target) :: rest => do
    let from? := ((← get).disk.look true (path source)).toOption.map Prod.fst
    work h source target
    let made? := ((← get).disk.look false (path target)).toOption.map Prod.fst
    forTargets ⟨from?.toList ++ h.sources, made?.toList ++ h.made⟩ work rest

/-- How deep a copy goes. -/
def mostDepth : Nat := 60

def copyNamed (p : Process) (t : Transfer) (h : History) (source target : String) : Work Unit :=
  copyOne p t h (source, target) mostDepth none [] true source target

/-- Makes the folders of a source again within a target folder. -/
def makeParents (p : Process) (t : Transfer) (folder source : String) : Work Bool := do
  (parentsOf source).reverse.foldlM (fun good up => do
    let there := within folder (String.ofList (up.toList.dropWhile (· = '/')))
    if !good then return false
    else if (← get).disk.isFolder (path there) then return true
    else if !(← get).disk.isFolder (path up) then
      complain p ("failed to get attributes of " ++ quotedFile up ++ ": " ++
        Fault.notFound.reason)
      return false
    else
      let made ← attempt p ("cannot make directory " ++ quotedFile there)
        (·.makeFolder (path there))
      if made && t.speaks then printLine (up ++ " -> " ++ there).toList
      return made) true

end Transfer

/-- Words for what is replaced when only newer files are to replace older ones. -/
def updateWords : List (List String × Char) :=
  [(["all"], 'a'), (["none"], 'n'), (["older"], 'o')]

def askingOf (o : Options) (refusing : Asking) : Asking :=
  match o.last? "fin" with
  | some ('i', _) => .always
  | some ('n', _) => refusing
  | some ('f', _) => .force
  | _ => .undecided

/-- What is to be replaced, by the options and the word for it. -/
def withUpdate (p : Process) (o : Options) (t : Transfer) (work : Transfer → Work Unit) :
    Work Unit :=
  match o.last? "u" with
  | none => work t
  | some (_, "") => work { t with onlyNewer := true }
  | some (_, word) => withChoice p "update" word updateWords fun
    | 'o' => work { t with onlyNewer := true }
    | 'n' => work { t with asking := .skip }
    | _ => work t

def stripped (o : Options) (operands : List String) : List String :=
  if o.has 'z' then operands.map fun name =>
    let bare := String.ofList (withoutSlashes name.toList)
    if bare = "" then name else bare
  else operands

/-- Sources whose trailing slashes do not count. -/
def withStripped (o : Options) : Options :=
  if o.has 't' then { o with operands := stripped o o.operands }
  else { o with operands := stripped o o.operands.dropLast ++ o.operands.getLast?.toList }

def copyOptions : Usage :=
  ⟨"abdfiHlLnPpRrsTuvxZ", "St", [("archive", 'a'), ("backup?", 'B'), ("attributes-only", '0'),
    ("copy-contents", '1'), ("debug", 'v'), ("dereference", 'L'), ("force", 'f'),
    ("interactive", 'i'), ("link", 'l'), ("no-clobber", 'n'), ("no-dereference", 'P'),
    ("no-preserve=", '2'), ("no-target-directory", 'T'), ("one-file-system", 'x'),
    ("parents", '3'), ("preserve?", '4'), ("recursive", 'R'), ("reflink?", '5'),
    ("remove-destination", '6'), ("sparse=", '7'), ("strip-trailing-slashes", 'z'),
    ("suffix=", 'S'), ("symbolic-link", 's'), ("target-directory=", 't'), ("update?", 'u'),
    ("verbose", 'v'), ("context?", 'Z')], true, ""⟩

def keptWords : List (List String × Char) :=
  [(["mode"], 'm'), (["timestamps"], 't'), (["ownership"], 'o'), (["links"], 'l'),
    (["context"], 'c'), (["xattr"], 'x'), (["all"], 'a')]

/-- Which of a source's traits are kept. -/
def keeps (o : Options) (letter : Char) : Bool :=
  o.given.foldl (fun on (c, value) =>
    let named := (Text.split ',' value).filterMap (choose? keptWords)
    if c = 'a' || c = 'p' || (c = '4' && value = "") then true
    else if c = '4' && (named.contains letter || named.contains 'a') then true
    else if c = '2' && (named.contains letter || named.contains 'a') then false
    else on) false

def followingOf (o : Options) : Following :=
  match o.last? "adHLP" with
  | some ('H', _) => .ifNamed
  | some ('L', _) => .always
  | some _ => .never
  | none => if o.hasAny "rRl" then .never else .always

def copyTransfer (o : Options) (backup : Option Backup) : Transfer where
  recursive := o.hasAny "arR"
  following := followingOf o
  asking := askingOf o .skip
  keepsMode := keeps o 'm'
  keepsTime := keeps o 't'
  speaks := o.has 'v'
  asLinks := o.has 's'
  asNames := o.has 'l'
  withParents := o.has '3'
  removesFirst := o.has '6'
  onlyTraits := o.has '0'
  backup
  suffix := backupSuffix o

def copy (p : Process) : Work Unit :=
  withOptions p copyOptions fun o => do
    if o.has 'n' then
      complain p ("warning: behavior of -n is non-portable and may change in future; " ++
        "use --update=none instead") 0
    if o.has 'l' && o.has 's' then
      askForHelp p "cannot make both hard and symbolic links"
    else withBackup p o fun backup => withUpdate p o (copyTransfer o backup) fun t =>
      withTargets p (withStripped o) none (fun _ _ => return false) fun targets => do
        if t.withParents && !targets.inFolder then
          askForHelp p "with --parents, the destination must be a directory"
        else if t.withParents then
          targets.pairs.forM fun (source, target) => do
            let folder := String.ofList (target.toList.take (target.length -
              (bareEnd source).length))
            let bare := String.ofList (withoutSlashes source.toList)
            if ← Transfer.makeParents p t folder bare then
              Transfer.copyNamed p t {} source
                (within folder (String.ofList (bare.toList.dropWhile (· = '/'))))
        else Transfer.forTargets {} (Transfer.copyNamed p t) targets.pairs

def moveTransfer (o : Options) (backup : Option Backup) : Transfer where
  moves := true
  recursive := true
  following := .never
  asking := askingOf o .never
  speaks := o.has 'v'
  backup
  suffix := backupSuffix o

def move (p : Process) : Work Unit :=
  withOptions p ⟨"bfinTuvZ", "St", [("backup?", 'B'), ("force", 'f'), ("interactive", 'i'),
      ("no-clobber", 'n'), ("no-copy", '1'), ("no-target-directory", 'T'),
      ("strip-trailing-slashes", 'z'), ("suffix=", 'S'), ("target-directory=", 't'),
      ("update?", 'u'), ("verbose", 'v'), ("context?", 'Z'), ("debug", 'v')], true, ""⟩ fun o =>
    withBackup p o fun backup =>
      withUpdate p o (moveTransfer o backup) fun t =>
        withTargets p (withStripped o) none (fun source target => do
            let renamed := (← get).disk.rename false (path source) (path target)
            return renamed.toOption.isSome) fun targets =>
          Transfer.forTargets {} (Transfer.moveOne p t) targets.pairs

/-- Copies files to where they are used from. -/
def install (p : Process) : Work Unit :=
  withOptions p ⟨"bcCdDpsTvZ", "gmoSt", [("backup?", 'B'), ("compare", 'C'), ("directory", 'd'),
      ("group=", 'g'), ("mode=", 'm'), ("owner=", 'o'), ("preserve-timestamps", 'p'),
      ("strip", 's'), ("suffix=", 'S'), ("target-directory=", 't'),
      ("no-target-directory", 'T'), ("verbose", 'v')], true, ""⟩ fun o => do
    let mask := (← get).disk.mask
    match (Mode.ofText? ((o.value? 'm').getD "755")) with
    | none => complain p ("invalid mode " ++ quotedFile ((o.value? 'm').getD ""))
    | some change =>
      let giveMode (name : String) : Work Unit := modify fun e => match e.disk.stat (path name) with
        | .ok (place, entry) =>
          { e with disk := e.disk.setMode place (change mask entry.isFolder 0) }
        | .error _ => e
      let ways (names : List String) : Work Bool := names.foldlM (fun good name => do
        if (← get).disk.isFolder (path name) then return good
        let made ← attempt p ("cannot create directory " ++ quotedFile name)
          (·.makeFolder (path name))
        if made && o.has 'v' then
          printLine (p.name ++ ": creating directory " ++ quotedFile name).toList
        return good && made) true
      if o.has 'd' then forOperands p o (fun name => do
          if ← ways (wayTo name) then giveMode name) "file operand"
      else withBackup p o fun backup => do
        if o.has 'D' then
          let folders := match o.value? 't', o.operands.getLast? with
            | some folder, _ => wayTo folder
            | none, some target => (parentsOf target).reverse
            | none, none => []
          discard (ways folders)
        let t : Transfer :=
          { removesFirst := true, speaks := o.has 'v', keepsTime := o.has 'p', backup := backup,
            suffix := backupSuffix o }
        withTargets p o none (fun _ _ => return false) fun targets =>
          Transfer.forTargets {} (fun h source target => do
            Transfer.copyNamed p t h source target
            giveMode target) targets.pairs

end LayerCache.Program
