import LayerCache.Shell.Program.Names

/-! Where things go: operands that end in a target, which may be a folder that takes all others
under their own names; and what happens to whatever stands there. -/
namespace LayerCache.Program

/-- Who decides on what stands at a target. -/
inductive Asking where
  | undecided
  | always
  | force
  /-- Nothing is replaced; that counts as a failure. -/
  | never
  /-- Nothing is replaced, without a word. -/
  | skip
  deriving DecidableEq, Repr

/-- How what is replaced is kept. -/
inductive Backup where
  | simple
  | numbered
  | asBefore
  deriving DecidableEq, Repr

/-- Targets that operands name. -/
structure Targets where
  /-- Sources and the names they go to. -/
  pairs : List (String × String)
  /-- The last operand is a folder or was said to be one. -/
  inFolder : Bool := false

namespace Backup

def words : List (List String × Option Backup) :=
  [(["none", "off"], none), (["simple", "never"], some simple),
    (["existing", "nil"], some asBefore), (["numbered", "t"], some numbered)]

/-- The number of a backup with a name, from its ending. -/
def number? (name other : String) : Option Nat := do
  let rest ← Text.afterStart? (name ++ ".~") other
  if Text.endsWith rest "~" then Chars.number? rest.toList.dropLast else none

/-- The name under which what a target names is kept. -/
def nameFor (d : Disk) (suffix : String) (target : String) : Backup → String
  | simple => target ++ suffix
  | kind =>
    let numbers := match d.find .self (path target) with
      | .ok (.taken place _) =>
        (childrenOf d place.dropLast).filterMap (number? (Octets.ofText (place.getLast?.getD "")))
      | _ => []
    if kind = asBefore && numbers.isEmpty then target ++ suffix
    else target ++ ".~" ++ toString (numbers.foldl max 0 + 1) ++ "~"

end Backup

/-- The kind of backup that options ask for. -/
def withBackup (p : Process) (o : Options) (work : Option Backup → Work Unit) : Work Unit :=
  match o.value? 'B' with
  | some word =>
    if word = "" then work (some .asBefore)
    else withChoice p "backup" word Backup.words work
  | none => work (if o.hasAny "bS" then some .asBefore else none)

def backupSuffix (o : Options) : String :=
  match o.value? 'S' with
  | some suffix => if suffix = "" || suffix.toList.contains '/' then "~" else suffix
  | none => "~"

/-- Why a name does not lead to a folder. -/
def noFolder? (d : Disk) (name : String) : Option Fault :=
  match d.stat (path name) with
  | .ok (_, .folder) => none
  | .ok _ => some .notFolder
  | .error fault => some fault

/-- The name of something within the folder it goes to. -/
def nameWithin (folder source : String) : String := within folder (bareEnd source)

/-- Sources and targets by the operands. With only one operand, `alone` is the folder it goes to.
`tries` tells whether two operands name a target that is no folder even if it is one. -/
def withTargets (p : Process) (o : Options) (alone : Option String)
    (tries : String → String → Work Bool) (work : Targets → Work Unit) : Work Unit := do
  let d := (← get).disk
  let into (folder : String) (sources : List String) : Targets :=
    ⟨sources.map fun s => (s, nameWithin folder s), true⟩
  match o.operands with
  | [] => askForHelp p "missing file operand"
  | first :: rest =>
    if o.has 'T' then
      if o.has 't' then
        complain p "cannot combine --target-directory (-t) and --no-target-directory (-T)"
      else match rest with
        | [] => askForHelp p ("missing destination file operand after " ++ quotedFile first)
        | [target] => work ⟨[(first, target)], false⟩
        | _ :: other :: _ => askForHelp p ("extra operand " ++ quotedFile other)
    else match o.value? 't', rest.getLast? with
      | some folder, _ => match noFolder? d folder with
        | some fault =>
          complain p ("target directory " ++ quotedFile folder ++ ": " ++ fault.reason)
        | none => work (into folder (first :: rest))
      | none, none => match alone with
        | some folder => work (into folder [first])
        | none => askForHelp p ("missing destination file operand after " ++ quotedFile first)
      | none, some target =>
        if rest.length = 1 && (← tries first target) then work ⟨[(first, target)], false⟩
        else match noFolder? d target with
          | none => work (into target (first :: rest.dropLast))
          | some fault =>
            if rest.length = 1 then work ⟨[(first, target)], false⟩
            else complain p ("target " ++ quotedFile target ++ ": " ++ fault.reason)

/-- Two names for one entry of one folder. -/
def areOneName (d : Disk) (left right : String) : Bool :=
  match d.find .self (path left), d.find .self (path right) with
  | .ok (.taken a _), .ok (.taken b _) => a = b
  | _, _ => false

end LayerCache.Program
