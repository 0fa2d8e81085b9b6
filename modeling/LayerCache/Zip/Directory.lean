import LayerCache.Text.Utf8
import LayerCache.Zip.Ending
import LayerCache.Zip.Member

/-! Extra fields of directory records. They may widen a number, rename a member or say how it is
encrypted. Fields that break off end the reading and count no further; false ones spoil the
archive. -/
namespace LayerCache.Zip

/-- A member as far as its extra fields are read, and where reading goes on if it does. -/
structure Extended where
  member : Member
  next : Option Nat

/-- Reads a number on the way, or stops there. -/
def readOn (b : ByteArray) (width : Nat) : Option Nat → Option (Nat × Nat)
  | none => none
  | some start => (numberAt b start width).map fun n => (n, start + width)

/-- Steps over bytes, or stops if they are not all there. -/
def stepOver (b : ByteArray) (start length : Nat) : Option Nat :=
  if start + length ≤ b.size then some (start + length) else none

/-- Stands in a narrow place for a number that is written wide. -/
def fullNumber : Nat := 0xffffffff

/-- Takes the wide number if one is due. -/
def widen (b : ByteArray) (all : Bool) (narrow : Nat) (next : Option Nat) : Nat × Option Nat :=
  if all || narrow == fullNumber then
    match readOn b 8 next with
    | some (wide, next) => (wide, some next)
    | none => (narrow, none)
  else (narrow, next)

/-- Wide numbers come in a fixed order; long fields hold all of them, short ones those that are
due. -/
def extendNumbers (m : Member) (b : ByteArray) (start length : Nat) : Option Extended :=
  let all := decide (24 ≤ length)
  let (unpackedSize, next) := widen b all m.unpackedSize (some start)
  let (size, next) := if next.isSome then widen b all m.size next else (m.size, none)
  let (header, next) := if next.isSome then widen b all m.header next else (m.header, none)
  let m := { m with unpackedSize, size, header }
  match next with
  | none => some ⟨m, none⟩
  | some stop =>
    if stop ≤ start + length then some ⟨m, stepOver b stop (start + length - stop)⟩ else none

/-- Times of a member: only their number and kind are checked. -/
def extendTimes (m : Member) (b : ByteArray) (start length : Nat) : Option Extended :=
  if length ≠ 32 then none
  else match readOn b 2 (stepOver b start 4) with
    | none => some ⟨m, none⟩
    | some (tag, next) =>
      if tag ≠ 1 then none
      else match readOn b 2 (some next) with
        | none => some ⟨m, none⟩
        | some (size, next) => if size ≠ 24 then none else some ⟨m, stepOver b next 24⟩

def bitCount (n : Nat) : Nat := ((List.range 8).filter n.testBit).length

/-- At most three times that flags tell of. A field with one time may have flags for more. -/
def extendStamps (m : Member) (b : ByteArray) (start length : Nat) : Option Extended :=
  match readOn b 1 (some start) with
  | none => some ⟨m, none⟩
  | some (flags, next) =>
    if flags < 8 ∧ (length = 5 ∨ length = 1 + 4 * bitCount flags) then
      some ⟨m, stepOver b next (length - 1)⟩
    else none

/-- A text that replaces another one, whose checksum stands before it. -/
def replacement (old b : ByteArray) (start length : Nat) : Option (Option (ByteArray × Nat)) :=
  match readOn b 4 (stepOver b start 1) with
  | none => some none
  | some (expected, next) =>
    if length < 5 then none
    else match stepOver b next (length - 5) with
      | none => some none
      | some stop =>
        if (checksum old).toNat = expected then some (some (b.extract next stop, stop)) else none

def extendName (m : Member) (b : ByteArray) (start length : Nat) : Option Extended := do
  match ← replacement m.rawName b start length with
  | none => return ⟨m, none⟩
  | some (rawName, stop) =>
    let name ← String.fromUTF8? rawName
    return ⟨{ m with rawName, name }, some stop⟩

def extendComment (m : Member) (b : ByteArray) (start length : Nat) : Option Extended := do
  match ← replacement m.comment.toUTF8 b start length with
  | none => return ⟨m, none⟩
  | some (comment, stop) => return ⟨{ m with comment := ← String.fromUTF8? comment }, some stop⟩

/-- The maker of the encryption that members are scrambled with. -/
def scramblingMaker : Nat := 0x4541

/-- How a member is scrambled, and how it was packed before. -/
def extendScrambling (m : Member) (b : ByteArray) (start length : Nat) : Option Extended :=
  if length ≠ 7 then none
  else match numberAt b start 2, numberAt b (start + 2) 2, numberAt b (start + 4) 1,
      numberAt b (start + 5) 2 with
    | some version, some maker, some strength, some method =>
      if maker = scramblingMaker ∧ (version = 1 ∨ version = 2) ∧ 1 ≤ strength ∧ strength ≤ 3 then
        some ⟨{ m with method, scrambled := true }, some (start + 7)⟩
      else none
    | _, _, _, _ => some ⟨m, none⟩

/-- One field by its kind; other kinds say nothing. -/
def extendBy (kind : Nat) (m : Member) (b : ByteArray) (start length : Nat) : Option Extended :=
  match kind with
  | 0x0001 => extendNumbers m b start length
  | 0x000a => extendTimes m b start length
  | 0x5455 => extendStamps m b start length
  | 0x6375 => extendComment m b start length
  | 0x7075 => extendName m b start length
  | 0x9901 => extendScrambling m b start length
  | _ => some ⟨m, stepOver b start length⟩

/-- Every field takes at least the four bytes of its kind and length. -/
def extendFrom (b : ByteArray) : Nat → Member → Nat → Option Member
  | 0, m, _ => some m
  | fuel + 1, m, start =>
    match numberAt b start 2, numberAt b (start + 2) 2 with
    | some kind, some length => do
      match ← extendBy kind m b (start + 4) length with
      | ⟨m, none⟩ => return m
      | ⟨m, some next⟩ => extendFrom b fuel m next
    | _, _ => some m

/-- The member its record and all its extra fields describe. -/
def extend (m : Member) (extra : ByteArray) : Option Member := extendFrom extra extra.size m 0

@[simp] theorem extend_empty (m : Member) : extend m .empty = some m := rfl

end LayerCache.Zip

/-! Names of archive members. An archive says of each whether it is UTF-8; if not, each byte is a
character of the code page archives started with. -/
namespace LayerCache.Zip

/-- The characters of the bytes from 128 on. -/
def upperPage : Array Nat := #[
  0x00c7, 0x00fc, 0x00e9, 0x00e2, 0x00e4, 0x00e0, 0x00e5, 0x00e7, 0x00ea, 0x00eb, 0x00e8, 0x00ef,
  0x00ee, 0x00ec, 0x00c4, 0x00c5, 0x00c9, 0x00e6, 0x00c6, 0x00f4, 0x00f6, 0x00f2, 0x00fb, 0x00f9,
  0x00ff, 0x00d6, 0x00dc, 0x00a2, 0x00a3, 0x00a5, 0x20a7, 0x0192, 0x00e1, 0x00ed, 0x00f3, 0x00fa,
  0x00f1, 0x00d1, 0x00aa, 0x00ba, 0x00bf, 0x2310, 0x00ac, 0x00bd, 0x00bc, 0x00a1, 0x00ab, 0x00bb,
  0x2591, 0x2592, 0x2593, 0x2502, 0x2524, 0x2561, 0x2562, 0x2556, 0x2555, 0x2563, 0x2551, 0x2557,
  0x255d, 0x255c, 0x255b, 0x2510, 0x2514, 0x2534, 0x252c, 0x251c, 0x2500, 0x253c, 0x255e, 0x255f,
  0x255a, 0x2554, 0x2569, 0x2566, 0x2560, 0x2550, 0x256c, 0x2567, 0x2568, 0x2564, 0x2565, 0x2559,
  0x2558, 0x2552, 0x2553, 0x256b, 0x256a, 0x2518, 0x250c, 0x2588, 0x2584, 0x258c, 0x2590, 0x2580,
  0x03b1, 0x00df, 0x0393, 0x03c0, 0x03a3, 0x03c3, 0x00b5, 0x03c4, 0x03a6, 0x0398, 0x03a9, 0x03b4,
  0x221e, 0x03c6, 0x03b5, 0x2229, 0x2261, 0x00b1, 0x2265, 0x2264, 0x2320, 0x2321, 0x00f7, 0x2248,
  0x00b0, 0x2219, 0x00b7, 0x221a, 0x207f, 0x00b2, 0x25a0, 0x00a0]

def pageChar (byte : UInt8) : Char :=
  if byte < 128 then Char.ofNat byte.toNat
  else Char.ofNat ((upperPage[byte.toNat - 128]?).getD 0)

def decodeName (utf8 : Bool) (bytes : ByteArray) : String :=
  if utf8 then Utf8.decodeLossy bytes else String.ofList (bytes.data.toList.map pageChar)

end LayerCache.Zip

/-! Archives: members behind each other, then a directory of them, then an end record that says
where the directory is. Other data may stand before an archive and behind it. -/
namespace LayerCache.Zip

/-- The method of members whose extra field says how they were packed. -/
def scrambledMethod : Nat := 99

/-- What the fixed part of a directory record says, with its extra fields and the start of the next
record. -/
def recordAt (b : ByteArray) (start : Nat) : Option (Member × ByteArray × Nat) := do
  guard (hasSignature b directorySignature start)
  let flags ← numberAt b (start + 8) 2
  let method ← numberAt b (start + 10) 2
  let checksum ← numberAt b (start + 16) 4
  let size ← numberAt b (start + 20) 4
  let unpackedSize ← numberAt b (start + 24) 4
  let name ← numberAt b (start + 28) 2
  let extra ← numberAt b (start + 30) 2
  let comment ← numberAt b (start + 32) 2
  let header ← numberAt b (start + 42) 4
  let extras := start + 46 + name
  let stop := extras + extra + comment
  guard (stop ≤ b.size)
  let rawName := b.extract (start + 46) extras
  let decode := decodeName (flags.testBit 11)
  return ({
    rawName, name := decode rawName, comment := decode (b.extract (extras + extra) stop), method,
    locked := flags.testBit 0, scrambled := false, checksum, size, unpackedSize, header,
    start := none }, b.extract extras (extras + extra), stop)

/-- One member and the start of the next record. Its header must stand before the directory. -/
def memberAt (b : ByteArray) (place : Place) (start : Nat) : Option (Member × Nat) := do
  let (m, extra, next) ← recordAt b start
  let m ← extend m extra
  guard (m.method = scrambledMethod → m.scrambled)
  guard (m.header + place.shift < place.start)
  return ({ m with header := m.header + place.shift }, next)

def membersFrom (b : ByteArray) (place : Place) : Nat → Nat → Option (List Member)
  | 0, _ => some []
  | count + 1, start => do
    let (first, next) ← memberAt b place start
    let others ← membersFrom b place count next
    return first :: others

/-- Replaces the member of the same name, or adds one at the end. -/
def insertMember (m : Member) : List Member → List Member
  | [] => [m]
  | other :: rest => if other.name = m.name then m :: rest else other :: insertMember m rest

/-- A name that occurs twice keeps its first place and its last data. -/
def distinctMembers (members : List Member) : List Member :=
  members.foldl (fun kept m => insertMember m kept) []

structure Directory where
  members : List Member

namespace Directory

/-- The last end record that leads to a directory counts. -/
def ofArchive? (b : ByteArray) : Option Directory :=
  (List.range b.size).reverse.findSome? fun record => do
    let place ← placeAt b record
    return ⟨distinctMembers (← membersFrom b place place.count place.start)⟩

def names (dir : Directory) : List String := dir.members.map (·.name)

/-- The content of a member, and the directory that knows where its data starts. -/
def read (dir : Directory) (b : ByteArray) (name : String) :
    Except ReadFault ByteArray × Directory :=
  match dir.members.find? fun m => m.name == name with
  | none => (.error .missing, dir)
  | some m =>
    let (result, m) := m.read b
    (result, ⟨insertMember m dir.members⟩)

end Directory
end LayerCache.Zip

/-! Writing archives: every member is stored as it is, under a UTF-8 name. -/
namespace LayerCache.Zip

/-- The fields that the header of a member and its directory record share. -/
def sharedFields (name : String) (content : ByteArray) : List UInt8 :=
  number 2 20 ++ number 2 0x800 ++ number 2 0 ++ number 2 0 ++ number 2 0x21 ++
    number 4 (checksum content).toNat ++ number 4 content.size ++ number 4 content.size ++
    number 2 name.utf8ByteSize ++ number 2 0

def packMember (name : String) (content : ByteArray) : List UInt8 :=
  number 4 localSignature ++ sharedFields name content ++ name.toUTF8.data.toList ++
    content.data.toList

def packRecord (name : String) (content : ByteArray) (header : Nat) : List UInt8 :=
  number 4 directorySignature ++ number 2 20 ++ sharedFields name content ++ number 2 0 ++
    number 2 0 ++ number 2 0 ++ number 4 0 ++ number 4 header ++ name.toUTF8.data.toList

/-- Directory records, with the headers from a given place on. -/
def packRecords (header : Nat) : List (String × ByteArray) → List UInt8
  | [] => []
  | (name, content) :: rest =>
    packRecord name content header ++
      packRecords (header + (packMember name content).length) rest

def packEnd (count size offset : Nat) : List UInt8 :=
  number 4 endSignature ++ number 2 0 ++ number 2 0 ++ number 2 count ++ number 2 count ++
    number 4 size ++ number 4 offset ++ number 2 0

def pack (members : List (String × ByteArray)) : ByteArray :=
  let data := members.flatMap fun (name, content) => packMember name content
  let records := packRecords 0 members
  ⟨(data ++ records ++ packEnd members.length records.length data.length).toArray⟩

end LayerCache.Zip
