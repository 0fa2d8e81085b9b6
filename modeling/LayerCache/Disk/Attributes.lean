import LayerCache.Disk.Links
import LayerCache.Text.Utf8

/-! What is known of an entry beside its content: kind, access, time, size and number of names. -/
namespace LayerCache

namespace Entry

/-- The kind of an entry as listings show it. -/
def letter : Entry → Char
  | .file _ _ | .program _ => '-'
  | .folder => 'd'
  | .link _ => 'l'
  | .device _ => 'c'

def isFolder (e : Entry) : Bool := e matches .folder

def isLink (e : Entry) : Bool := e matches .link _

def usualMode : Entry → Nat
  | .file _ _ => 0o644
  | .folder | .program _ => 0o755
  | .link _ => 0o777
  | .device _ => 0o666

/-- How many bytes a folder takes. -/
def folderSize : Nat := 4096

def size : Entry → Nat
  | .file _ content => content.size
  | .folder => folderSize
  | .link target => (Octets.ofText target.text).length
  | .program _ => Disk.code.size
  | .device _ => 0

/-- How many blocks of 512 bytes are set aside. -/
def blocks : Entry → Nat
  | .link _ | .device _ => 0
  | e => (e.size + 4095) / 4096 * 8

end Entry

namespace Disk

def modeOf (d : Disk) (place : Place) (entry : Entry) : Nat :=
  ((d.traits.find? place).bind Traits.mode).getD entry.usualMode

def timeOf (d : Disk) (place : Place) : Int :=
  ((d.traits.find? place).bind Traits.time).getD d.clock

def setMode (d : Disk) (place : Place) (mode : Nat) : Disk :=
  d.changeTraits place ({ · with mode := some mode })

def setTime (d : Disk) (place : Place) (time : Int) : Disk :=
  d.changeTraits place ({ · with time := some time })

/-- How many names an entry has; a folder is also named by itself and by the folders in it. -/
def namesOf (d : Disk) (place : Place) : Entry → Nat
  | .folder => 2 + (d.below place).countP fun (names, entry) =>
      names.length = 1 && entry.isFolder
  | entry => match entry with
    | .file serial _ => (d.placesOf serial).length
    | _ => 1

/-- Times, and among equal ones the order in which files were made. -/
def ageOf (d : Disk) (place : Place) (entry : Entry) : List Int :=
  [d.timeOf place, ((d.traits.find? place).elim 0 Traits.nanos : Nat), match entry with
    | .file serial _ => serial + 1
    | _ => 0]

def isNewer (left right : List Int) : Bool := right < left

/-- What a path names, links followed only if that is asked for. -/
def look (d : Disk) (follows : Bool) (p : Path) : Except Fault (Place × Entry) :=
  match d.find (if follows then .target else .self) p with
  | .ok (.taken place entry) => .ok (place, entry)
  | .ok (.free _ _) => .error .notFound
  | .error fault => .error fault

/-- Whether two places hold one and the same entry. -/
def areSame (d : Disk) (left right : Place) : Bool := (d.aliases left).contains right

end Disk
end LayerCache
