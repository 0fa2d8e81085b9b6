import LayerCache.Zip.Inflate

/-! Numbers of fixed width, the lowest byte first, as archives hold them. -/
namespace LayerCache.Zip

/-- The number in some bytes, or nothing if they end too early. -/
def numberAt (b : ByteArray) (start width : Nat) : Option Nat :=
  if start + width ≤ b.size then
    let bytes := (b.extract start (start + width)).data.toList
    some (bytes.foldr (fun byte n => byte.toNat + 256 * n) 0)
  else none

/-- The lowest bytes of a number. -/
def number : Nat → Nat → List UInt8
  | 0, _ => []
  | width + 1, n => UInt8.ofNat n :: number width (n / 256)

@[simp] theorem length_number (width n : Nat) : (number width n).length = width := by
  induction width generalizing n with
  | zero => rfl
  | succ width ih => simp [number, ih]

end LayerCache.Zip

/-! CRC-32 of a text of bytes: the remainder of a division of polynomials over two elements, with
bits taken lowest first. -/
namespace LayerCache.Zip

def polynomial : UInt32 := 0xedb88320

def divideBit (crc : UInt32) : UInt32 :=
  if crc &&& 1 = 1 then (crc >>> 1) ^^^ polynomial else crc >>> 1

def divideByte (crc : UInt32) (byte : UInt8) : UInt32 :=
  Nat.repeat divideBit 8 (crc ^^^ byte.toUInt32)

def checksum (b : ByteArray) : UInt32 := b.foldl divideByte 0xffffffff ^^^ 0xffffffff

end LayerCache.Zip

/-! Members of an archive: what the directory says of them, and their content behind a header of
their own. -/
namespace LayerCache.Zip

structure Member where
  rawName : ByteArray
  name : String
  comment : String
  method : Nat
  locked : Bool
  /-- Encrypted in a way that no key is asked for. -/
  scrambled : Bool
  checksum : Nat
  size : Nat
  unpackedSize : Nat
  header : Nat
  /-- Where the data starts, once the header was read. -/
  start : Option Nat

def localSignature : Nat := 0x04034b50

def hasSignature (b : ByteArray) (signature start : Nat) : Bool :=
  numberAt b start 4 == some signature

/-- Why a member cannot be read. -/
inductive ReadFault where
  | missing
  | locked
  | cutHeader
  | badHeader
  | unknownMethod
  | wrongKey
  | incomplete
  | corrupt
  | badChecksum
  deriving DecidableEq, Repr

def ReadFault.message : ReadFault → String
  | missing => "specified file not found in archive"
  | locked => "unsupported Zip archive: Password required to decrypt file"
  | cutHeader => "i/o error"
  | badHeader => "invalid Zip archive: Invalid local file header"
  | unknownMethod => "unsupported Zip archive: Compression method not supported"
  | wrongKey => "provided password is incorrect"
  | incomplete => "incomplete deflate stream"
  | corrupt => "corrupt deflate stream"
  | badChecksum => "Invalid checksum"

/-- Where the data behind a header starts. -/
def dataStart (b : ByteArray) (header : Nat) : Except ReadFault Nat :=
  if header + 30 ≤ b.size then
    match hasSignature b localSignature header, numberAt b (header + 26) 2,
      numberAt b (header + 28) 2 with
    | true, some name, some extra => .ok (header + 30 + name + extra)
    | _, _, _ => .error .badHeader
  else .error .cutHeader

def storedMethod : Nat := 0

def deflatedMethod : Nat := 8

/-- The content behind stored bytes. -/
def unpack (method : Nat) (stored : ByteArray) : Except ReadFault ByteArray :=
  if method = storedMethod then .ok stored
  else match inflate stored with
    | .ok content => .ok content
    | .error .ends => .error .incomplete
    | .error .corrupt => .error .corrupt

namespace Member

/-- The header is read once; what it said is kept even if the archive changes. -/
def located (m : Member) (b : ByteArray) : Except ReadFault Nat × Member :=
  match m.start with
  | some start => (.ok start, m)
  | none => match dataStart b m.header with
    | .ok start => (.ok start, { m with start := some start })
    | .error fault => (.error fault, m)

/-- The content from a place on, checked against the directory. -/
def contentAt (m : Member) (b : ByteArray) (start : Nat) : Except ReadFault ByteArray := do
  if m.method ≠ storedMethod ∧ m.method ≠ deflatedMethod then throw .unknownMethod
  if m.scrambled then throw .wrongKey
  let content ← unpack m.method (b.extract start (start + m.size))
  if (Zip.checksum content).toNat ≠ m.checksum then throw .badChecksum
  return content

def read (m : Member) (b : ByteArray) : Except ReadFault ByteArray × Member :=
  if m.locked then (.error .locked, m)
  else match m.located b with
    | (.ok start, m) => (m.contentAt b start, m)
    | (.error fault, m) => (.error fault, m)

theorem start_of_located {m : Member} {b : ByteArray} {start : Nat}
    (h : (m.located b).1 = .ok start) : (m.located b).2.start = some start := by
  unfold located at h ⊢
  split at h
  · simp_all
  · split at h <;> simp_all

end Member
end LayerCache.Zip
