/-! Words of some bits as numbers below a power of two, and texts of bytes cut into words. -/
namespace LayerCache.Words

def bound (bits : Nat) : Nat := Nat.pow 2 bits

def rotateLeft (bits n x : Nat) : Nat := ((x <<< n) ||| (x >>> (bits - n))) % bound bits

def rotateRight (bits n x : Nat) : Nat := rotateLeft bits (bits - n) x

def complement (bits x : Nat) : Nat := bound bits - 1 - x % bound bits

/-- The bits of one word where a third one is set, and those of another elsewhere. -/
def select (bits chooser x y : Nat) : Nat :=
  (chooser &&& x) ||| (complement bits chooser &&& y)

def majority (x y z : Nat) : Nat := (x &&& y) ||| (x &&& z) ||| (y &&& z)

def ofBytes (bytes : List Nat) : Nat := bytes.foldl (fun n b => 256 * n + b) 0

/-- So many bytes of a number, the highest first. -/
def toBytes : Nat → Nat → List Nat
  | 0, _ => []
  | count + 1, n => n / Nat.pow 256 count % 256 :: toBytes count n

/-- Lists of so many; a last one that is shorter is left out. -/
def groups {α : Type} (size : Nat) (xs : List α) : List (List α) :=
  (List.range (xs.length / size)).map fun i => (xs.drop (i * size)).take size

/-- Bytes filled up to whole blocks: a single bit, zeros, and the number of bits before them. -/
def padded (block lengthBytes : Nat) (highFirst : Bool) (bytes : List Nat) : List Nat :=
  let used := (bytes.length + 1 + lengthBytes) % block
  let zeros := if used = 0 then 0 else block - used
  let length := toBytes lengthBytes (bytes.length * 8)
  bytes ++ 0x80 :: List.replicate zeros 0 ++ if highFirst then length else length.reverse

/-- The words of every block. -/
def blocks (block word : Nat) (highFirst : Bool) (bytes : List Nat) : List (Array Nat) :=
  go (bytes.length / block) bytes
where
  go : Nat → List Nat → List (Array Nat)
    | 0, _ => []
    | n + 1, rest =>
      let read (b : List Nat) := ofBytes (if highFirst then b else b.reverse)
      ((groups word (rest.take block)).map read).toArray :: go n (rest.drop block)

end LayerCache.Words

/-! A digest is sixteen bytes, written as thirty-two hexadecimal digits. -/
namespace LayerCache

structure Digest where
  bytes : Vector UInt8 16
  deriving DecidableEq

namespace Digest

def ofBytes? (bytes : List UInt8) : Option Digest :=
  if h : bytes.length = 16 then some ⟨⟨bytes.toArray, by simpa using h⟩⟩ else none

def toList (d : Digest) : List UInt8 := d.bytes.toList

@[simp] theorem length_toList (d : Digest) : d.toList.length = 16 := by simp [toList]

theorem ofBytes?_toList (d : Digest) : ofBytes? d.toList = some d := by
  cases d with
  | mk bytes => simp [ofBytes?, toList, Vector.toList]

def hexDigit (n : Nat) : Char := if n < 10 then Char.ofNat (48 + n) else Char.ofNat (87 + n)

def hexByte (b : UInt8) : List Char := [hexDigit (b.toNat / 16), hexDigit (b.toNat % 16)]

def hex (bytes : List UInt8) : String := String.ofList (bytes.flatMap hexByte)

instance : ToString Digest := ⟨fun d => hex d.toList⟩

/-- The first eight digits, enough to tell units apart. -/
def short (d : Digest) : String := hex (d.toList.take 4)

def describe (d : Digest) : String := "ContentHash(" ++ d.short ++ "..)"

end Digest
end LayerCache
