import LayerCache.Shell.Program.Names

/-! Programs that change who may do what with files, and when files were changed. -/
namespace LayerCache.Program

namespace Access

/-- Whether an argument that looks like options names a mode. -/
def isMode (arg : String) : Bool :=
  match arg.toList with
  | '-' :: c :: _ => c.isDigit || "rwxXstugoa,+=".toList.contains c
  | _ => false

/-- An entry's access as messages show it. -/
def shown (mode : Nat) : String :=
  let digits := (Nat.toDigits 8 mode)
  let padded := List.replicate (4 - digits.length) '0' ++ digits
  String.ofList padded ++ " (" ++ String.ofList (Mode.letters mode) ++ ")"

/-- An entry and, if asked for, all below it, by their names. -/
def tree (d : Disk) (recursive : Bool) (name : String) (place : Place) (entry : Entry) :
    List (String × Place × Entry) :=
  let inside := if recursive && entry.isFolder then d.below place else []
  (name, place, entry) :: inside.map fun (names, entry) =>
    (within name (Octets.ofText (Text.join "/" names)), place ++ names, entry)

/-- What is said of an entry that cannot be worked on: of a link that leads nowhere, and where all
entries are told. -/
structure Wording where
  dangling : String → String
  told : String → String

/-- Goes through named entries and, if asked for, all below them. -/
def forEntries (p : Process) (o : Options) (names : List String) (follows : Bool) (w : Wording)
    (work : String → Place → Entry → Work Unit) : Work Unit :=
  names.forM fun name => do
    let d := (← get).disk
    match d.look follows (path name) with
    | .ok (place, entry) => (tree d (o.has 'R') name place entry).forM fun (name, at?, entry) => do
        if !(o.has 'R' && follows && entry.isLink) then work name at? entry
    | .error fault =>
      let dangles := fault = .notFound && (d.look false (path name)) matches .ok (_, .link _)
      let text := if dangles then w.dangling name
        else "cannot access " ++ quotedFile name ++ ": " ++ fault.reason
      if o.has 'f' then finish 1 else complain p text
      if o.has 'v' then printLine (w.told name).toList

/-- Changes the access to one entry. -/
def changeOne (p : Process) (o : Options) (change : Mode.Change) (flagged : Bool) (name : String)
    (place : Place) (entry : Entry) : Work Unit := do
  let d := (← get).disk
  let before := d.modeOf place entry
  let after := change d.mask entry.isFolder before
  modify fun e => { e with disk := e.disk.setMode place after }
  let changed := before != after
  if o.has 'v' || (o.has 'c' && changed) then
    printLine ("mode of " ++ quotedFile name ++ (if changed then " changed from " ++ shown before ++
      " to " else " retained as ") ++ shown after).toList
  if flagged then
    let naive := change 0 entry.isFolder before
    if Mode.without after naive != 0 then
      let letters (mode : Nat) := String.ofList (Mode.letters mode)
      complain p (fileName name ++ ": new permissions are " ++ letters after ++ ", not " ++
        letters naive)

end Access

def Access.modeWording : Access.Wording where
  dangling name := "cannot operate on dangling symlink " ++ quotedFile name
  told name := quotedFile name ++ " could not be accessed"

def accessOptions : Usage :=
  ⟨"cfvR", "", [("changes", 'c'), ("recursive", 'R'), ("no-preserve-root", '0'),
    ("preserve-root", '1'), ("quiet", 'f'), ("reference=", 'r'), ("silent", 'f'),
    ("verbose", 'v')], true, ""⟩

def changeMode (p : Process) : Work Unit :=
  let isFlag (a : String) : Bool := Access.isMode a
  let before := p.args.takeWhile (· != "--")
  let flagged := before.find? isFlag
  let args := before.filter (!isFlag ·) ++ p.args.drop before.length
  withOptions { p with args } accessOptions fun o => do
    let d := (← get).disk
    match o.value? 'r' with
    | some name => match d.stat (path name) with
      | .error fault =>
        complain p ("failed to get attributes of " ++ quotedFile name ++ ": " ++ fault.reason)
      | .ok (place, entry) =>
        let mode := d.modeOf place entry
        if o.operands.isEmpty then askForHelp p "missing operand"
        else
          let work := Access.changeOne p o (fun _ _ _ => mode) false
          Access.forEntries p o o.operands true Access.modeWording work
    | none =>
      let (mode?, names) := match flagged with
        | some text => (some text, o.operands)
        | none => (o.operands.head?, o.operands.drop 1)
      match mode?, names with
      | none, _ => askForHelp p "missing operand"
      | some text, [] => askForHelp p ("missing operand after " ++ quotedFile text)
      | some text, names => match Mode.ofText? text with
        | none => askForHelp p ("invalid mode: " ++ quotedFile text)
        | some change =>
          let work := Access.changeOne p o change flagged.isSome
          Access.forEntries p o names true Access.modeWording work

/-- The only owner there is. -/
def ownerNames : List String := ["root", "0", ""]

def changeOwner (p : Process) (group : Bool) : Work Unit :=
  withOptions p { accessOptions with
      bare := "cfvRhHLP"
      long := accessOptions.long ++
        [("dereference", 'd'), ("no-dereference", 'h'), ("from=", 'F')] } fun o => do
    let wording (who : String) : Access.Wording := {
      dangling := fun name =>
        "cannot dereference " ++ quotedFile name ++ ": " ++ Fault.notFound.reason
      told := fun name => "failed to change " ++ (if group then "group" else "ownership") ++
        " of " ++ quotedFile name ++ " to " ++ who }
    let known (text : String) : Bool :=
      if group then ownerNames.contains text
      else (Text.split ':' text).all ownerNames.contains
    match o.value? 'r', o.operands with
    | some _, [] | none, [] => askForHelp p "missing operand"
    | none, [one] => askForHelp p ("missing operand after " ++ quotedFile one)
    | some _, names => Access.forEntries p o names (!o.has 'h') (wording "root") fun _ _ _ => pure ()
    | none, who :: names =>
      let isNumber := (Text.split ':' who).all fun part => part.toList.all Char.isDigit
      if !known who && !isNumber then
        complain p ("invalid " ++ (if group then "group" else "user") ++ ": " ++ quotedFile who)
      else Access.forEntries p o names (!o.has 'h') (wording who) fun name _ _ => do
        if o.has 'v' then
          printLine ((if group then "group of " else "ownership of ") ++ quotedFile name ++
            " retained as " ++ if group || !who.toList.contains ':' then "root"
            else "root:root").toList

end LayerCache.Program
