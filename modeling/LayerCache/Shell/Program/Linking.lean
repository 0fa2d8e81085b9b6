import LayerCache.Shell.Program.Targets

/-! Programs that give files more names or make links to them. -/
namespace LayerCache.Program

namespace Linking

/-- Makes a link or gives a file one more name, if that is possible. -/
def create (o : Options) (source target : String) (d : Disk) : Except Fault Disk :=
  if o.has 's' then
    if source = "" then .error .notFound else d.makeLink (path target) (path source)
  else do
    let (place, _) ← d.look (o.last? "LP" matches some ('L', _)) (path source)
    d.addName place (path target)

/-- A source as it is named from the folder of a target. -/
def relativeSource (d : Disk) (source target : String) : String :=
  match d.resolve .nothing true (path (folderPart target)), d.resolve .nothing true (path source)
    with
  | .ok folder, .ok place => Octets.ofText (Text.join "/" (Disk.wayFrom folder place))
  | _, _ => source

/-- What a failure is called. -/
def wording (o : Options) (source target : String) (fault : Fault) : String :=
  if o.has 's' then
    "failed to create symbolic link " ++
      (if fault = .nameTooLong || source = "" then quotedFile target ++ " -> " ++ quotedFile source
      else quotedFile target)
  else "failed to create hard link " ++
    (if fault = .exists || fault = .noSpace then quotedFile target
    else quotedFile target ++ " => " ++ quotedFile source)

/-- Makes room at a target that something stands at. Tells what was kept of it, or nothing if there
is nothing more to do. -/
def clear (p : Process) (o : Options) (backup : Option Backup) (made : List Place)
    (source target : String) : Work (Option (Option String)) := do
  let d := (← get).disk
  let stop (text : String) : Work (Option (Option String)) := do
    complain p text
    return none
  match d.look false (path target) with
  | .error .notFound => return some none
  | .error fault => stop ("failed to access " ++ quotedFile target ++ ": " ++ fault.reason)
  | .ok (_, .folder) => stop (fileName target ++ ": cannot overwrite directory")
  | .ok (there, _) =>
    let isSource := match d.look (o.has 's') (path source) with
      | .ok (place, .file serial _) =>
        d.areSame place there && ((d.placesOf serial).length = 1 || areOneName d source target)
      | .ok (place, _) => place = there
      | .error _ => false
    if made.contains there && !o.has 's' then
      stop ("will not overwrite just-created " ++ quotedFile target ++ " with " ++
        quotedFile source)
    else if (backup.isNone || !o.has 's') && isSource then
      stop (quotedFile source ++ " and " ++ quotedFile target ++ " are the same file")
    else
      if o.last? "fi" matches some ('i', _) then
        if !(← ask p ("replace " ++ quotedFile target ++ "?")) then
          finish 1
          return none
      match backup with
      | some kind =>
        let kept := kind.nameFor d (backupSuffix o) target
        match ← onDisk (·.rename true (path target) (path kept)) with
        | .ok () => return some (some kept)
        | .error fault => stop ("cannot backup " ++ quotedFile target ++ ": " ++ fault.reason)
      | none =>
        modify fun e => { e with disk := e.disk.drop there }
        return some none

def linkOne (p : Process) (o : Options) (backup : Option Backup) (made : List Place)
    (source target : String) : Work Unit := do
  let d := (← get).disk
  let before := d.look (o.last? "LP" matches some ('L', _)) (path source)
  let shown := if o.has 'r' then relativeSource d source target else source
  let tell (kept : Option String) : Work Unit := do
    if o.has 'v' then
      printLine ((kept.elim "" fun name => quotedFile name ++ " ~ ") ++ quotedFile target ++
        (if o.has 's' then " -> " else " => ") ++ quotedFile shown).toList
  match create o shown target d, before with
  | .ok disk, _ =>
    modify fun e => { e with disk }
    tell none
  | .error _, .error fault =>
    if o.has 's' then again p o backup shown target tell
    else complain p ("failed to access " ++ quotedFile source ++ ": " ++ fault.reason)
  | .error _, .ok (_, .folder) =>
    if o.has 's' then again p o backup shown target tell
    else complain p (fileName source ++ ": hard link not allowed for directory")
  | .error _, .ok _ => again p o backup shown target tell
where
  again (p : Process) (o : Options) (backup : Option Backup) (source target : String)
      (tell : Option String → Work Unit) : Work Unit := do
    let cleared ← if o.hasAny "fi" || backup.isSome then clear p o backup made source target
      else pure (some none)
    cleared.forM fun kept => do
      match ← onDisk (create o source target) with
      | .ok () => tell kept
      | .error fault => complain p (wording o source target fault ++ ": " ++ fault.reason)

end Linking

def link (p : Process) : Work Unit :=
  withOptions p ⟨"bdFfiLnPrsTv", "St", [("backup?", 'B'), ("directory", 'd'), ("force", 'f'),
      ("interactive", 'i'), ("logical", 'L'), ("no-dereference", 'n'), ("physical", 'P'),
      ("relative", 'r'), ("symbolic", 's'), ("suffix=", 'S'), ("target-directory=", 't'),
      ("no-target-directory", 'T'), ("verbose", 'v')], true, ""⟩ fun o =>
    if o.has 'r' && !o.has 's' then complain p "cannot do --relative without --symbolic"
    else withBackup p o fun backup =>
      let whole (source target : String) : Work Bool := do
        let d := (← get).disk
        let asLink := o.has 'n' && d.look false (path target) matches .ok (_, .link _)
        return asLink || (o.has 's' && !o.has 'r' &&
          Linking.create o source target d matches .ok _)
      withTargets p o (some ".") whole fun targets =>
        targets.pairs.foldlM (fun made (source, target) => do
          Linking.linkOne p o backup made source target
          let there? := ((← get).disk.look false (path target)).toOption.map Prod.fst
          return there?.toList ++ made) [] *> pure ()

/-- Gives a file one more name. -/
def linkPlainly (p : Process) : Work Unit :=
  withOptions p {} fun o => match o.operands with
    | [] => askForHelp p "missing operand"
    | [one] => askForHelp p ("missing operand after " ++ quotedFile one)
    | [source, target] => discard <| attempt p ("cannot create link " ++ quotedFile target ++
        " to " ++ quotedFile source) (Linking.create { given := [] } source target)
    | _ :: _ :: other :: _ => askForHelp p ("extra operand " ++ quotedFile other)

end LayerCache.Program
