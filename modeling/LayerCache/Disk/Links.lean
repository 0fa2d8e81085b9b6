import LayerCache.Disk.Edit
import LayerCache.Disk.Walk

/-! Files under several names, and entries that get other names. A file is known by its serial
number, so that what is written under one of its names is read under all of them. -/
namespace LayerCache.Disk

/-- The places at which a file stands. -/
def placesOf (d : Disk) (serial : Nat) : List Place :=
  d.entries.pairs.filterMap fun
    | (place, .file s _) => if s = serial then some place else none
    | _ => none

/-- The places at which the entry of a place stands. -/
def aliases (d : Disk) (place : Place) : List Place :=
  match d.entryAt place with
  | some (.file serial _) => d.placesOf serial
  | _ => [place]

def changeTraits (d : Disk) (place : Place) (change : Traits → Traits) : Disk :=
  { d with traits := (d.aliases place).foldl (fun traits place =>
      traits.insert place (change ((traits.find? place).getD {}))) d.traits }

/-- What is changed now has no other time noted. -/
def forgetTime (d : Disk) (place : Place) : Disk :=
  if (d.traits.find? place).isSome then d.changeTraits place ({ · with time := none, nanos := 0 }) else d

def withContent (serial : Nat) (content : ByteArray) : Entry → Entry
  | .file s old => if s = serial then .file s content else .file s old
  | entry => entry

/-- Replaces the content of a file under all its names. -/
def rewrite (d : Disk) (serial : Nat) (content : ByteArray) : Disk :=
  let d := (d.placesOf serial).head?.elim d d.forgetTime
  { d with entries := ⟨d.entries.pairs.map fun (place, entry) =>
      (place, withContent serial content entry)⟩ }

/-- Writes a file, which keeps all its names. -/
def save (d : Disk) (p : Path) (content : ByteArray) : Except Fault Disk :=
  match d.find .file p with
  | .ok (.taken _ (.file serial _)) => .ok (d.rewrite serial content)
  | _ => d.write p content

/-- Gives a file one more name. -/
def addName (d : Disk) (place : Place) (p : Path) : Except Fault Disk :=
  match d.findFrom .self p p.names with
  | .error fault => .error fault
  | .ok (.taken _ _) => .error .exists
  | .ok (.free folder name) => match d.entryAt place with
    | none => .error .notFound
    | some .folder => .error .notPermitted
    | some entry =>
      if p.asksForFolder then .error .notFound
      else
        let d := d.set (folder ++ [name]) entry
        .ok (match d.traits.find? place with
          | some t => { d with traits := d.traits.insert (folder ++ [name]) t }
          | none => d)

section

variable {ν : Type}

/-- Keys from a place on get another place in front. -/
def rekey (place into : Place) (all : Dict Place ν) : Dict Place ν :=
  let (moved, kept) := all.pairs.partition fun (k, _) => place.isPrefixOf k
  moved.foldl (fun all (k, a) => all.insert (into ++ k.drop place.length) a) ⟨kept⟩

end

/-- Moves an entry, with all below it, to where nothing stands. -/
def moveBranch (d : Disk) (place into : Place) : Disk :=
  { d with
    entries := rekey place into d.entries
    traits := rekey place into d.traits
    here := if place.isPrefixOf d.here then into ++ d.here.drop place.length else d.here }

def endsInDots (p : Path) : Bool :=
  p.names.isEmpty || p.names.getLast? == some "." || p.names.getLast? == some ".."

/-- Whether something may be moved to a place where something else stands. -/
def checkPlace (d : Disk) (entry : Entry) (into : Place) : Option Entry → Except Fault Unit
  | none => .ok ()
  | some .folder =>
    if !(entry matches .folder) then .error .isFolder
    else if (d.below into).isEmpty then .ok () else .error .notEmpty
  | some _ => if entry matches .folder then .error .notFolder else .ok ()

/-- Gives an entry another name. What has that name already is replaced if it may be. -/
def rename (d : Disk) (replaces : Bool) (old new : Path) : Except Fault Disk := do
  let source ← d.findFrom .self old old.names
  let target ← d.findFrom .self new new.names
  if endsInDots old then throw .busy
  if endsInDots new then throw (if replaces then .busy else .exists)
  let (into, standing) := match target with
    | .taken place entry => (place, some entry)
    | .free folder name => (folder ++ [name], none)
  match source with
  | .free _ _ => throw .notFound
  | .taken place entry =>
    if !replaces && standing.isSome then throw .exists
    if !(entry matches .folder) && (old.asksForFolder || new.asksForFolder) then throw .notFolder
    if place = into then return d
    if place.isPrefixOf into then throw .invalid
    if into.isPrefixOf place then throw .notEmpty
    match entry, standing with
    | .file serial _, some (.file other _) => if serial = other then return d
    | _, _ => pure ()
    d.checkPlace entry into standing
    return (d.drop into).moveBranch place into

/-- Lets time pass: what was changed until now gets its time noted. -/
def wait (d : Disk) (seconds : Nat) : Disk :=
  let noted := d.entries.pairs.foldl (fun traits (place, entry) => match entry with
    | .program _ | .device _ => traits
    | _ =>
      let t := (traits.find? place).getD {}
      if t.time.isSome then traits else traits.insert place { t with time := some d.clock }) d.traits
  { d with traits := noted, clock := d.clock + seconds }

end LayerCache.Disk
