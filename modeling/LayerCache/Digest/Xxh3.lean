import LayerCache.Digest.Basic

/-! The 128-bit XXH3 digest with seed zero and the default secret. Each range of input lengths has
its own mixing; inputs over 240 bytes run through eight accumulators in stripes of 64 bytes. -/
namespace LayerCache.Xxh3

def secretBytes : Array Nat := #[
  0xb8, 0xfe, 0x6c, 0x39, 0x23, 0xa4, 0x4b, 0xbe, 0x7c, 0x01, 0x81, 0x2c, 0xf7, 0x21, 0xad, 0x1c,
  0xde, 0xd4, 0x6d, 0xe9, 0x83, 0x90, 0x97, 0xdb, 0x72, 0x40, 0xa4, 0xa4, 0xb7, 0xb3, 0x67, 0x1f,
  0xcb, 0x79, 0xe6, 0x4e, 0xcc, 0xc0, 0xe5, 0x78, 0x82, 0x5a, 0xd0, 0x7d, 0xcc, 0xff, 0x72, 0x21,
  0xb8, 0x08, 0x46, 0x74, 0xf7, 0x43, 0x24, 0x8e, 0xe0, 0x35, 0x90, 0xe6, 0x81, 0x3a, 0x26, 0x4c,
  0x3c, 0x28, 0x52, 0xbb, 0x91, 0xc3, 0x00, 0xcb, 0x88, 0xd0, 0x65, 0x8b, 0x1b, 0x53, 0x2e, 0xa3,
  0x71, 0x64, 0x48, 0x97, 0xa2, 0x0d, 0xf9, 0x4e, 0x38, 0x19, 0xef, 0x46, 0xa9, 0xde, 0xac, 0xd8,
  0xa8, 0xfa, 0x76, 0x3f, 0xe3, 0x9c, 0x34, 0x3f, 0xf9, 0xdc, 0xbb, 0xc7, 0xc7, 0x0b, 0x4f, 0x1d,
  0x8a, 0x51, 0xe0, 0x4b, 0xcd, 0xb4, 0x59, 0x31, 0xc8, 0x9f, 0x7e, 0xc9, 0xd9, 0x78, 0x73, 0x64,
  0xea, 0xc5, 0xac, 0x83, 0x34, 0xd3, 0xeb, 0xc3, 0xc5, 0x81, 0xa0, 0xff, 0xfa, 0x13, 0x63, 0xeb,
  0x17, 0x0d, 0xdd, 0x51, 0xb7, 0xf0, 0xda, 0x49, 0xd3, 0x16, 0x55, 0x26, 0x29, 0xd4, 0x68, 0x9e,
  0x2b, 0x16, 0xbe, 0x58, 0x7d, 0x47, 0xa1, 0xfc, 0x8f, 0xf8, 0xb8, 0xd1, 0x7a, 0xd0, 0x31, 0xce,
  0x45, 0xcb, 0x3a, 0x8f, 0x95, 0x16, 0x04, 0x28, 0xaf, 0xd7, 0xfb, 0xca, 0xbb, 0x4b, 0x40, 0x7e]

def secret : ByteArray := ⟨secretBytes.map UInt8.ofNat⟩

def secretSize : Nat := 192

def prime32a : UInt64 := 0x9E3779B1
def prime32b : UInt64 := 0x85EBCA77
def prime32c : UInt64 := 0xC2B2AE3D
def prime64a : UInt64 := 0x9E3779B185EBCA87
def prime64b : UInt64 := 0xC2B2AE3D27D4EB4F
def prime64c : UInt64 := 0x165667B19E3779F9
def prime64d : UInt64 := 0x85EBCA77C2B2AE63
def prime64e : UInt64 := 0x27D4EB2F165667C5
def primeMixA : UInt64 := 0x165667919E3779F9
def primeMixB : UInt64 := 0x9FB21C651E98DF25

def byteAt (b : ByteArray) (i : Nat) : UInt64 := (b[i]?.getD 0).toUInt64

/-- Four bytes, least significant first. -/
def word32 (b : ByteArray) (i : Nat) : UInt64 :=
  byteAt b i ||| byteAt b (i + 1) <<< 8 ||| byteAt b (i + 2) <<< 16 ||| byteAt b (i + 3) <<< 24

/-- Eight bytes, least significant first. -/
def word64 (b : ByteArray) (i : Nat) : UInt64 := word32 b i ||| word32 b (i + 4) <<< 32

def low32 (x : UInt64) : UInt64 := x &&& 0xffffffff

def swap32 (x : UInt64) : UInt64 :=
  (x &&& 0xff) <<< 24 ||| (x >>> 8 &&& 0xff) <<< 16 ||| (x >>> 16 &&& 0xff) <<< 8 |||
    (x >>> 24 &&& 0xff)

def swap64 (x : UInt64) : UInt64 := swap32 (low32 x) <<< 32 ||| swap32 (x >>> 32)

def rotate32 (x : UInt64) (n : UInt64) : UInt64 := low32 (x <<< n) ||| x >>> (32 - n)

/-- Two halves of a 128-bit quantity. -/
structure Wide where
  low : UInt64
  high : UInt64

def multiply (a b : UInt64) : Wide :=
  let product := a.toNat * b.toNat
  ⟨UInt64.ofNat product, UInt64.ofNat (product >>> 64)⟩

def fold (a b : UInt64) : UInt64 :=
  let product := multiply a b
  product.low ^^^ product.high

def shiftXor (x : UInt64) (n : UInt64) : UInt64 := x ^^^ x >>> n

def avalanche (h : UInt64) : UInt64 := shiftXor (shiftXor h 37 * primeMixA) 32

def avalanche64 (h : UInt64) : UInt64 :=
  shiftXor (shiftXor (shiftXor h 33 * prime64b) 29 * prime64c) 32

def secretXor (i j : Nat) : UInt64 := word64 secret i ^^^ word64 secret j

def ofEmpty : Wide := ⟨avalanche64 (secretXor 64 72), avalanche64 (secretXor 80 88)⟩

def ofUpTo3 (b : ByteArray) : Wide :=
  let combined := byteAt b 0 <<< 16 ||| byteAt b (b.size / 2) <<< 24 ||| byteAt b (b.size - 1) |||
    b.size.toUInt64 <<< 8
  let turned := rotate32 (swap32 combined) 13
  ⟨avalanche64 (combined ^^^ (word32 secret 0 ^^^ word32 secret 4)),
    avalanche64 (turned ^^^ (word32 secret 8 ^^^ word32 secret 12))⟩

def ofUpTo8 (b : ByteArray) : Wide :=
  let input := word32 b 0 + word32 b (b.size - 4) <<< 32
  let m := multiply (input ^^^ secretXor 16 24) (prime64a + b.size.toUInt64 <<< 2)
  let high := m.high + m.low <<< 1
  let low := shiftXor (m.low ^^^ high >>> 3) 35 * primeMixB
  ⟨shiftXor low 28, avalanche high⟩

def ofUpTo16 (b : ByteArray) : Wide :=
  let first := word64 b 0
  let last := word64 b (b.size - 8)
  let m := multiply (first ^^^ last ^^^ secretXor 32 40) prime64a
  let low := m.low + (b.size - 1).toUInt64 <<< 54
  let flipped := last ^^^ secretXor 48 56
  let high := m.high + flipped + low32 flipped * (prime32b - 1)
  let h := multiply (low ^^^ swap64 high) prime64b
  ⟨avalanche h.low, avalanche (h.high + high * prime64b)⟩

def mix16 (b : ByteArray) (i s : Nat) : UInt64 :=
  fold (word64 b i ^^^ word64 secret s) (word64 b (i + 8) ^^^ word64 secret (s + 8))

def mix32 (acc : Wide) (b : ByteArray) (i j s : Nat) : Wide :=
  ⟨(acc.low + mix16 b i s) ^^^ (word64 b j + word64 b (j + 8)),
    (acc.high + mix16 b j (s + 16)) ^^^ (word64 b i + word64 b (i + 8))⟩

def finishMiddle (size : Nat) (acc : Wide) : Wide :=
  ⟨avalanche (acc.low + acc.high),
    0 - avalanche (acc.low * prime64a + acc.high * prime64d + size.toUInt64 * prime64b)⟩

/-- Pairs of sixteen-byte pieces are taken from both ends, innermost first. -/
def ofUpTo128 (b : ByteArray) : Wide :=
  let rounds := (b.size - 1) / 32
  let acc := (List.range (rounds + 1)).reverse.foldl
    (fun acc k => mix32 acc b (16 * k) (b.size - 16 * (k + 1)) (32 * k))
    ⟨b.size.toUInt64 * prime64a, 0⟩
  finishMiddle b.size acc

def ofUpTo240 (b : ByteArray) : Wide :=
  let acc := (List.range 4).foldl (fun acc k => mix32 acc b (32 * k) (32 * k + 16) (32 * k))
    ⟨b.size.toUInt64 * prime64a, 0⟩
  let acc := (List.range (b.size / 32 - 4)).foldl
    (fun acc k => mix32 acc b (32 * (k + 4)) (32 * (k + 4) + 16) (3 + 32 * k))
    ⟨avalanche acc.low, avalanche acc.high⟩
  finishMiddle b.size (mix32 acc b (b.size - 16) (b.size - 32) (136 - 17 - 16))

/-- The eight running sums of a long input. -/
abbrev Lanes := Array UInt64

def lanesStart : Lanes :=
  #[prime32c, prime64a, prime64b, prime64c, prime64d, prime32b, prime64e, prime32a]

def lane (acc : Lanes) (i : Nat) : UInt64 := acc[i]?.getD 0

/-- One stripe: each lane takes its product and its neighbour's word. -/
def accumulate (acc : Lanes) (b : ByteArray) (i s : Nat) : Lanes :=
  Array.ofFn fun k : Fin 8 =>
    let key := word64 b (i + 8 * k) ^^^ word64 secret (s + 8 * k)
    let beside := k.val ^^^ 1
    lane acc k + word64 b (i + 8 * beside) + low32 key * (key >>> 32)

def scramble (acc : Lanes) : Lanes :=
  Array.ofFn fun k : Fin 8 =>
    (shiftXor (lane acc k) 47 ^^^ word64 secret (secretSize - 64 + 8 * k)) * prime32a

def stripes (b : ByteArray) (start count : Nat) (acc : Lanes) : Lanes :=
  (List.range count).foldl (fun acc n => accumulate acc b (start + 64 * n) (8 * n)) acc

def merge (acc : Lanes) (s : Nat) (start : UInt64) : UInt64 :=
  avalanche ((List.range 4).foldl (fun sum k =>
    sum + fold (lane acc (2 * k) ^^^ word64 secret (s + 16 * k))
      (lane acc (2 * k + 1) ^^^ word64 secret (s + 16 * k + 8))) start)

def ofLong (b : ByteArray) : Wide :=
  let blocks := (b.size - 1) / 1024
  let acc := (List.range blocks).foldl
    (fun acc n => scramble (stripes b (1024 * n) 16 acc)) lanesStart
  let acc := stripes b (1024 * blocks) ((b.size - 1 - 1024 * blocks) / 64) acc
  let acc := accumulate acc b (b.size - 64) (secretSize - 64 - 7)
  ⟨merge acc 11 (b.size.toUInt64 * prime64a),
    merge acc (secretSize - 64 - 11) (~~~ (b.size.toUInt64 * prime64b))⟩

def hash (b : ByteArray) : Wide :=
  if b.size = 0 then ofEmpty
  else if b.size ≤ 3 then ofUpTo3 b
  else if b.size ≤ 8 then ofUpTo8 b
  else if b.size ≤ 16 then ofUpTo16 b
  else if b.size ≤ 128 then ofUpTo128 b
  else if b.size ≤ 240 then ofUpTo240 b
  else ofLong b

end LayerCache.Xxh3

namespace LayerCache.Digest

/-- Sixteen bytes, least significant first, the low half before the high one. -/
def ofWide (w : Xxh3.Wide) : Digest :=
  ⟨Vector.ofFn fun k : Fin 16 =>
    if k.val < 8 then (w.low >>> (8 * k.val).toUInt64).toUInt8
    else (w.high >>> (8 * (k.val - 8)).toUInt64).toUInt8⟩

def ofContent (content : ByteArray) : Digest := ofWide (Xxh3.hash content)

def ofText (text : String) : Digest := ofContent text.toUTF8

end LayerCache.Digest
