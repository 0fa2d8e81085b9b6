import LayerCache.Disk.Basic

/-! Changes of the disk. An operation of several steps may stop half-way and then leaves what it
has done, so it returns the disk beside its result. -/
namespace LayerCache.Disk

def set (d : Disk) (place : Place) (entry : Entry) : Disk :=
  { d with entries := d.entries.insert place entry }

def drop (d : Disk) (place : Place) : Disk :=
  { d with entries := d.entries.erase place, traits := d.traits.erase place }

def usualMask : Nat := 18

/-- Notes the access to a new entry, which is all that is asked for less what the mask takes. -/
def noteMode (d : Disk) (place : Place) (mode : Nat) : Disk :=
  if d.mask = usualMask then d
  else { d with traits := d.traits.insert place { mode := some (mode - (mode &&& d.mask)) } }

/-- A new file under a free name. -/
def addFile (d : Disk) (place : Place) (content : ByteArray) : Disk :=
  { (d.set place (.file d.fresh content)).noteMode place 0o666 with fresh := d.fresh + 1 }

/-- A new folder under a free name. -/
def addFolder (d : Disk) (place : Place) : Disk := (d.set place .folder).noteMode place 0o777

/-- Replaces the content of a file or makes a new one; links are followed. -/
def write (d : Disk) (p : Path) (content : ByteArray) : Except Fault Disk :=
  match d.find .file p with
  | .ok (.taken place (.file serial _)) => .ok (d.set place (.file serial content))
  | .ok (.taken _ (.device device)) => if device = .full then .error .noSpace else .ok d
  | .ok (.taken _ (.program _)) => .error .denied
  | .ok (.taken _ _) => .error .isFolder
  | .ok (.free folder name) => .ok (d.addFile (folder ++ [name]) content)
  | .error fault => .error fault

/-- Removes a file or a link, never a folder, and nothing that is asked for as a folder. -/
def remove (d : Disk) (p : Path) : Except Fault Disk :=
  match d.findFrom .self p p.names with
  | .ok (.taken _ .folder) => .error .isFolder
  | .ok (.taken place _) => if p.asksForFolder then .error .notFolder else .ok (d.drop place)
  | .ok (.free _ _) => .error .notFound
  | .error fault => .error fault

/-- A trailing separator means nothing to the name of a new folder. -/
def makeFolder (d : Disk) (p : Path) : Except Fault Disk :=
  match d.findFrom .self p p.names with
  | .ok (.taken _ _) => .error .exists
  | .ok (.free folder name) => .ok (d.addFolder (folder ++ [name]))
  | .error fault => .error fault

def makeLink (d : Disk) (p target : Path) : Except Fault Disk :=
  match d.find .self p with
  | .ok (.taken _ _) => .error .exists
  | .ok (.free folder name) => .ok (d.set (folder ++ [name]) (.link target))
  | .error fault => .error fault

/-- Makes the first folder of a list of ancestors, and for want of a parent the rest first. -/
def makeFoldersOf (d : Disk) : List Path → Except Fault Unit × Disk
  | [] => (.error .noParent, d)
  | p :: ups =>
    if p.text = "" then (.ok (), d)
    else match d.makeFolder p with
      | .ok made => (.ok (), made)
      | .error .notFound =>
        match makeFoldersOf d ups with
        | (.error fault, made) => (.error fault, made)
        | (.ok (), made) => match made.makeFolder p with
          | .ok done => (.ok (), done)
          | .error fault => (if made.isFolder p then .ok () else .error fault, made)
      | .error fault => (if d.isFolder p then .ok () else .error fault, d)

/-- Makes a folder and every missing one above it; a folder already there is fine. -/
def makeFolders (d : Disk) (p : Path) : Except Fault Unit × Disk := makeFoldersOf d p.ancestors

/-- Writes a file with the folders above it; what cannot be made is left out. -/
def provide (d : Disk) (p : Path) (content : ByteArray) : Disk :=
  let d := p.parent.elim d fun folder => (d.makeFolders folder).2
  (d.write p content).toOption.getD d

/-- Removes whatever stands at a path, a folder with all it holds. -/
def removeAll (d : Disk) (p : Path) : Except Fault Disk :=
  match d.find .self p with
  | .ok (.taken place _) =>
    .ok { d with
      entries := ⟨d.entries.pairs.filter fun (k, _) => !place.isPrefixOf k⟩
      traits := ⟨d.traits.pairs.filter fun (k, _) => !place.isPrefixOf k⟩ }
  | .ok (.free _ _) => .error .notFound
  | .error fault => .error fault

theorem entryAt_set_of_ne (d : Disk) {place other : Place} (h : place ≠ other) (entry : Entry) :
    (d.set place entry).entryAt other = d.entryAt other := by
  simp [entryAt, set, Dict.find?_insert_of_ne _ h]

theorem entryAt_drop_of_ne (d : Disk) {place other : Place} (h : place ≠ other) :
    (d.drop place).entryAt other = d.entryAt other := by
  simp [entryAt, drop, Dict.find?_erase_of_ne _ h]

theorem entryAt_set_self (d : Disk) {place : Place} (h : place ≠ []) (entry : Entry) :
    (d.set place entry).entryAt place = some entry := by
  simp [entryAt, set, h]

theorem entryAt_drop_self (d : Disk) {place : Place} (h : place ≠ []) :
    (d.drop place).entryAt place = none := by
  simp [entryAt, drop, h]

end LayerCache.Disk

/-! What tells two disks apart, as a list of changes in the order they have to be made: a folder is
made before it is filled. -/
namespace LayerCache.Disk

inductive Change where
  | remove (place : Place)
  | makeFolder (place : Place)
  | write (place : Place) (content : ByteArray)

/-- Files and folders are compared, nothing else is. -/
def Change.toReach (before : Disk) (place : Place) : Entry → Option Change
  | .file _ content =>
    if (before.content? place).map (·.data) = some content.data then none
    else some (.write place content)
  | .folder => if before.entryAt place matches some .folder then none else some (.makeFolder place)
  | _ => none

/-- Removals of files that are gone, then what is new. -/
def changes (before after : Disk) : List Change :=
  (before.entries.pairs.filterMap fun (place, entry) => match entry with
    | .file _ _ => if (after.content? place).isSome then none else some (.remove place)
    | _ => none) ++
  after.entries.pairs.filterMap fun (place, entry) => Change.toReach before place entry

end LayerCache.Disk
