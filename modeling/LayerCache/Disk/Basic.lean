import LayerCache.Dict
import LayerCache.Path
import LayerCache.Disk.Fault

/-! The disk as a finite map from places to entries. A place is the list of names from the root;
increasing place order is the order of a depth-first walk with siblings sorted by name. Names are
texts: a disk whose names are not all valid UTF-8 is none of those described here. -/
namespace LayerCache

/-- The names on the way from the root. Each is a text, so it is encoded as UTF-8. -/
abbrev Place := List String

/-- Files that hold nothing: one that reads as nothing, one that reads as zeros, and one that takes
nothing either. -/
inductive Device where
  | null
  | zero
  | full
  deriving DecidableEq, Repr

/-- As much of an endless file as anyone takes. -/
def Device.zeros : ByteArray := ⟨Array.replicate 2097152 0⟩

def Device.content : Device → ByteArray
  | .null => .empty
  | .zero | .full => zeros

/-- A file keeps its serial number while it is overwritten and loses it when it is removed, so
that a file opened earlier is told from a newer one of the same name. -/
inductive Entry where
  | file (serial : Nat) (content : ByteArray)
  | folder
  | link (target : Path)
  /-- A program that can be started. -/
  | program (name : String)
  | device (d : Device)

/-- What is known of an entry where it is not what it usually is. -/
structure Traits where
  /-- Who may do what with it, as nine bits and three more above. -/
  mode : Option Nat := none
  /-- When it was last changed, in seconds. -/
  time : Option Int := none
  /-- What of a second is added to that. -/
  nanos : Nat := 0
  /-- A file that programs hand texts through. -/
  isPipe : Bool := false
  deriving DecidableEq, Repr

structure Disk where
  entries : Dict Place Entry
  /-- Where relative paths start. -/
  here : Place
  /-- The serial number of the next new file. -/
  fresh : Nat
  traits : Dict Place Traits := .empty
  /-- The access that new entries lack. -/
  mask : Nat := 18
  /-- The time it is, in seconds, to whoever has not waited. -/
  clock : Int := 1767225600

/-- Where a path leads: to something, or to a free name in a folder. -/
inductive Found where
  | taken (place : Place) (entry : Entry)
  | free (folder : Place) (name : String)

namespace Path

/-- The names a path goes through. -/
def names (p : Path) : List String := p.pieces.filter (· ≠ "")

def asksForFolder (p : Path) : Bool := p.text.toList.getLast? == some '/'

/-- The names, with an empty one at the end where a trailing separator asks for a folder. -/
def steps (p : Path) : List String :=
  if p.asksForFolder && !p.names.isEmpty then p.names ++ [""] else p.names

end Path

namespace Disk

def empty : Disk := { entries := .empty, here := [], fresh := 0 }

/-- The root is a folder without an entry of its own. -/
def entryAt (d : Disk) (place : Place) : Option Entry :=
  if place.isEmpty then some .folder else d.entries.find? place

def content? (d : Disk) (place : Place) : Option ByteArray :=
  match d.entryAt place with
  | some (.file _ content) => some content
  | _ => none

/-- How much all files hold together. -/
def bytes (d : Disk) : Nat :=
  (d.entries.pairs.map fun
    | (_, .file _ content) => content.size
    | _ => 0).foldr (· + ·) 0

def longestName : Nat := 255

def longestPath : Nat := 4095

/-- What a path is followed for: what it leads to, what it names even if that is a link, or a file
to be written. -/
inductive Aim where
  | target
  | self
  | file
  deriving DecidableEq, Repr

/-- Nothing can be added to what the system keeps there. -/
def isFixed (folder : Place) : Bool := folder.head? == some "proc"

/-- Follows names from a folder. `jump` takes over at a link. A file to be written cannot be asked
for as a folder. -/
def follow (d : Disk) (jump : Place → List String → Except Fault Found) (aim : Aim)
    (folder : Place) : List String → Except Fault Found
  | [] => .ok (.taken folder .folder)
  | name :: rest =>
    if name = "" ∨ name = "." then follow d jump aim folder rest
    else if name = ".." then follow d jump aim folder.dropLast rest
    else if aim = .file ∧ rest = [""] then .error .isFolder
    else if longestName < name.utf8ByteSize then .error .nameTooLong
    else match d.entryAt (folder ++ [name]) with
      | none =>
        if rest.isEmpty && !isFixed folder then .ok (.free folder name) else .error .notFound
      | some .folder => follow d jump aim (folder ++ [name]) rest
      | some (.link target) =>
        if rest.isEmpty && aim = .self then .ok (.taken (folder ++ [name]) (.link target))
        else jump (if target.isAbsolute then [] else folder) (target.steps ++ rest)
      | some entry =>
        if rest.isEmpty then .ok (.taken (folder ++ [name]) entry) else .error .notFolder

/-- Follows names with at most the given number of links on the way. -/
def followLinks (d : Disk) (aim : Aim) : Nat → Place → List String → Except Fault Found
  | 0 => follow d (fun _ _ => .error .tooManyLinks) aim
  | n + 1 => follow d (followLinks d aim n) aim

def mostLinks : Nat := 40

/-- Checks made on the text of a path before any folder is read. -/
def checkText (p : Path) : Except Fault Unit :=
  if p.text.toList.contains (Char.ofNat 0) then .error .zeroInPath
  else if p.text = "" then .error .notFound
  else if longestPath < p.text.utf8ByteSize then .error .nameTooLong
  else .ok ()

def findFrom (d : Disk) (aim : Aim) (p : Path) (steps : List String) : Except Fault Found :=
  match checkText p with
  | .error fault => .error fault
  | .ok () => followLinks d aim mostLinks (if p.isAbsolute then [] else d.here) steps

def find (d : Disk) (aim : Aim) (p : Path) : Except Fault Found := findFrom d aim p p.steps

/-- What a path names, links followed. -/
def stat (d : Disk) (p : Path) : Except Fault (Place × Entry) :=
  match d.find .target p with
  | .ok (.taken place entry) => .ok (place, entry)
  | .ok (.free _ _) => .error .notFound
  | .error fault => .error fault

def «exists» (d : Disk) (p : Path) : Bool := d.stat p matches .ok _

def isFile (d : Disk) (p : Path) : Bool :=
  d.stat p matches .ok (_, .file _ _) | .ok (_, .program _)

def isFolder (d : Disk) (p : Path) : Bool := d.stat p matches .ok (_, .folder)

/-- What a program reads as: no text. -/
def code : ByteArray := ⟨#[0x7f, 0x45, 0x4c, 0x46, 0xff]⟩

def read (d : Disk) (p : Path) : Except Fault ByteArray :=
  match d.stat p with
  | .ok (_, .file _ content) => .ok content
  | .ok (_, .program _) => .ok code
  | .ok (_, .device device) => .ok device.content
  | .ok _ => .error .isFolder
  | .error fault => .error fault

def readText (d : Disk) (p : Path) : Except Fault String :=
  match d.read p with
  | .ok content => match String.fromUTF8? content with
    | some text => .ok text
    | none => .error .notText
  | .error fault => .error fault

end Disk
end LayerCache
