import LayerCache.Digest.Basic

/-! The 128-bit digest of four words that turn round sixty-four times for every block. -/
namespace LayerCache.Md5

open Words

/-- The first bits of the sines of the natural numbers. -/
def sines : Array Nat := #[
  0xd76aa478, 0xe8c7b756, 0x242070db, 0xc1bdceee, 0xf57c0faf, 0x4787c62a, 0xa8304613, 0xfd469501,
  0x698098d8, 0x8b44f7af, 0xffff5bb1, 0x895cd7be, 0x6b901122, 0xfd987193, 0xa679438e, 0x49b40821,
  0xf61e2562, 0xc040b340, 0x265e5a51, 0xe9b6c7aa, 0xd62f105d, 0x02441453, 0xd8a1e681, 0xe7d3fbc8,
  0x21e1cde6, 0xc33707d6, 0xf4d50d87, 0x455a14ed, 0xa9e3e905, 0xfcefa3f8, 0x676f02d9, 0x8d2a4c8a,
  0xfffa3942, 0x8771f681, 0x6d9d6122, 0xfde5380c, 0xa4beea44, 0x4bdecfa9, 0xf6bb4b60, 0xbebfbc70,
  0x289b7ec6, 0xeaa127fa, 0xd4ef3085, 0x04881d05, 0xd9d4d039, 0xe6db99e5, 0x1fa27cf8, 0xc4ac5665,
  0xf4292244, 0x432aff97, 0xab9423a7, 0xfc93a039, 0x655b59c3, 0x8f0ccc92, 0xffeff47d, 0x85845dd1,
  0x6fa87e4f, 0xfe2ce6e0, 0xa3014314, 0x4e0811a1, 0xf7537e82, 0xbd3af235, 0x2ad7d2bb, 0xeb86d391]

def shifts : Array Nat := #[7, 12, 17, 22, 5, 9, 14, 20, 4, 11, 16, 23, 6, 10, 15, 21]

structure State where
  a : Nat
  b : Nat
  c : Nat
  d : Nat

def start : State := ⟨0x67452301, 0xefcdab89, 0x98badcfe, 0x10325476⟩

/-- How three words are mixed in a round, and which word of the block is taken. -/
def mix (i : Nat) (s : State) : Nat × Nat :=
  match i / 16 with
  | 0 => (select 32 s.b s.c s.d, i)
  | 1 => (select 32 s.d s.b s.c, (5 * i + 1) % 16)
  | 2 => (s.b ^^^ s.c ^^^ s.d, (3 * i + 5) % 16)
  | _ => (s.c ^^^ (s.b ||| complement 32 s.d), 7 * i % 16)

def round (block : Array Nat) (s : State) (i : Nat) : State :=
  let (f, g) := mix i s
  let sum := (s.a + f + sines.getD i 0 + block.getD g 0) % bound 32
  ⟨s.d, (s.b + rotateLeft 32 (shifts.getD (i / 16 * 4 + i % 4) 0) sum) % bound 32, s.b, s.c⟩

def absorb (s : State) (block : Array Nat) : State :=
  let t := (List.range 64).foldl (round block) s
  ⟨(s.a + t.a) % bound 32, (s.b + t.b) % bound 32, (s.c + t.c) % bound 32, (s.d + t.d) % bound 32⟩

def digest (bytes : List Nat) : List Nat :=
  let s := (blocks 64 4 false (padded 64 8 false bytes)).foldl absorb start
  [s.a, s.b, s.c, s.d].flatMap fun w => (toBytes 4 w).reverse

end LayerCache.Md5

/-! The digests of the secure hash standard: one of 160 bits, and the families over words of 32 and
of 64 bits. Their constants are bits of roots of the first primes behind the point. -/
namespace LayerCache.Sha

open Words

def isPrime (n : Nat) : Bool := 2 ≤ n && (List.range n).all fun d => d < 2 || n % d != 0

/-- The first eighty primes are below this. -/
def primes : List Nat := (List.range 410).filter isPrime

/-- The largest number of so many bits whose power is at most another number. -/
def root (power n : Nat) : Nat → Nat → Nat
  | 0, found => found
  | bits + 1, found =>
    let next := found + Nat.pow 2 bits
    root power n bits (if Nat.pow next power ≤ n then next else found)

/-- So many bits behind the point of a root. -/
def rootBits (power bits n : Nat) : Nat :=
  root power (n * Nat.pow 2 (power * bits)) (bits + 6) 0 % bound bits

/-- Words of some bits, rounds, and by how much words are turned and shifted. -/
structure Family where
  bits : Nat
  rounds : Nat
  turnsA : Nat × Nat × Nat
  turnsE : Nat × Nat × Nat
  /-- Two turns and a shift. -/
  early : Nat × Nat × Nat
  late : Nat × Nat × Nat
  constants : Array Nat

def constantsOf (bits count : Nat) : Array Nat := ((primes.take count).map (rootBits 3 bits)).toArray

def short : Family :=
  ⟨32, 64, (2, 13, 22), (6, 11, 25), (7, 18, 3), (17, 19, 10), constantsOf 32 64⟩

def long : Family :=
  ⟨64, 80, (28, 34, 39), (14, 18, 41), (1, 8, 7), (19, 61, 6), constantsOf 64 80⟩

namespace Family

def turn (f : Family) (by3 : Nat × Nat × Nat) (x : Nat) : Nat :=
  rotateRight f.bits by3.1 x ^^^ rotateRight f.bits by3.2.1 x ^^^ rotateRight f.bits by3.2.2 x

def turnShift (f : Family) (by3 : Nat × Nat × Nat) (x : Nat) : Nat :=
  rotateRight f.bits by3.1 x ^^^ rotateRight f.bits by3.2.1 x ^^^ (x >>> by3.2.2)

/-- The words of all rounds, from those of a block. -/
def schedule (f : Family) (block : Array Nat) : Array Nat :=
  (List.range (f.rounds - 16)).foldl (fun w i =>
    w.push ((w.getD i 0 + f.turnShift f.early (w.getD (i + 1) 0) + w.getD (i + 9) 0 +
      f.turnShift f.late (w.getD (i + 14) 0)) % bound f.bits)) block

def round (f : Family) (words : Array Nat) (s : List Nat) (i : Nat) : List Nat :=
  match s with
  | [a, b, c, d, e, g, h, k] =>
    let t := k + f.turn f.turnsE e + select f.bits e g h + f.constants.getD i 0 + words.getD i 0
    let u := f.turn f.turnsA a + majority a b c
    [(t + u) % bound f.bits, a, b, c, (d + t) % bound f.bits, e, g, h]
  | s => s

def absorb (f : Family) (s : List Nat) (block : Array Nat) : List Nat :=
  let words := f.schedule block
  List.zipWith (fun x y => (x + y) % bound f.bits) s
    ((List.range f.rounds).foldl (f.round words) s)

/-- So many bytes of a digest from some start. -/
def digest (f : Family) (start : List Nat) (size : Nat) (bytes : List Nat) : List Nat :=
  let word := f.bits / 8
  let all := padded (16 * word) (2 * word) true bytes
  (((blocks (16 * word) word true all).foldl f.absorb start).flatMap (toBytes word)).take size

end Family

def firstRoots (bits : Nat) : List Nat := (primes.take 8).map (rootBits 2 bits)

/-- Roots of the second eight primes. -/
def otherRoots (bits : Nat) : List Nat := ((primes.drop 8).take 8).map (rootBits 2 bits)

def digest256 (bytes : List Nat) : List Nat := short.digest (firstRoots 32) 32 bytes

def digest224 (bytes : List Nat) : List Nat :=
  short.digest ((otherRoots 64).map (· % bound 32)) 28 bytes

def digest512 (bytes : List Nat) : List Nat := long.digest (firstRoots 64) 64 bytes

def digest384 (bytes : List Nat) : List Nat := long.digest (otherRoots 64) 48 bytes

/-- The words of all rounds of the digest of 160 bits. -/
def schedule (block : Array Nat) : Array Nat :=
  (List.range 64).foldl (fun w i =>
    w.push (rotateLeft 32 1 (w.getD i 0 ^^^ w.getD (i + 2) 0 ^^^ w.getD (i + 8) 0 ^^^
      w.getD (i + 13) 0))) block

def round (words : Array Nat) (s : List Nat) (i : Nat) : List Nat :=
  match s with
  | [a, b, c, d, e] =>
    let (f, k) := match i / 20 with
      | 0 => (select 32 b c d, 0x5a827999)
      | 1 => (b ^^^ c ^^^ d, 0x6ed9eba1)
      | 2 => (majority b c d, 0x8f1bbcdc)
      | _ => (b ^^^ c ^^^ d, 0xca62c1d6)
    [(rotateLeft 32 5 a + f + e + k + words.getD i 0) % bound 32, a, rotateLeft 32 30 b, c, d]
  | s => s

def absorb (s : List Nat) (block : Array Nat) : List Nat :=
  let words := schedule block
  List.zipWith (fun x y => (x + y) % bound 32) s ((List.range 80).foldl (round words) s)

def digest160 (bytes : List Nat) : List Nat :=
  let start := [0x67452301, 0xefcdab89, 0x98badcfe, 0x10325476, 0xc3d2e1f0]
  ((blocks 64 4 true (padded 64 8 true bytes)).foldl absorb start).flatMap (toBytes 4)

end LayerCache.Sha

/-! The digest of up to 512 bits that mixes words of 64 bits in columns and diagonals. -/
namespace LayerCache.Blake

open Words

def orders : Array (Array Nat) := #[
  #[0, 1, 2, 3, 4, 5, 6, 7, 8, 9, 10, 11, 12, 13, 14, 15],
  #[14, 10, 4, 8, 9, 15, 13, 6, 1, 12, 0, 2, 11, 7, 5, 3],
  #[11, 8, 12, 0, 5, 2, 15, 13, 10, 14, 3, 6, 7, 1, 9, 4],
  #[7, 9, 3, 1, 13, 12, 11, 14, 2, 6, 5, 10, 4, 0, 15, 8],
  #[9, 0, 5, 7, 2, 4, 10, 15, 14, 1, 11, 12, 6, 8, 3, 13],
  #[2, 12, 6, 10, 0, 11, 8, 3, 4, 13, 7, 5, 15, 14, 1, 9],
  #[12, 5, 1, 15, 14, 13, 4, 10, 0, 7, 6, 3, 9, 2, 8, 11],
  #[13, 11, 7, 14, 12, 1, 3, 9, 5, 0, 15, 4, 8, 6, 2, 10],
  #[6, 15, 14, 9, 11, 3, 0, 8, 12, 2, 13, 7, 1, 4, 10, 5],
  #[10, 2, 8, 4, 7, 6, 1, 5, 15, 11, 9, 14, 3, 12, 13, 0]]

/-- Mixes four words with two of the block. -/
def mix (v : Array Nat) (places : Nat × Nat × Nat × Nat) (x y : Nat) : Array Nat :=
  let (a, b, c, d) := places
  let add (m n : Nat) : Nat := (m + n) % bound 64
  let va := add (add (v.getD a 0) (v.getD b 0)) x
  let vd := rotateRight 64 32 (v.getD d 0 ^^^ va)
  let vc := add (v.getD c 0) vd
  let vb := rotateRight 64 24 (v.getD b 0 ^^^ vc)
  let va := add (add va vb) y
  let vd := rotateRight 64 16 (vd ^^^ va)
  let vc := add vc vd
  let vb := rotateRight 64 63 (vb ^^^ vc)
  (((v.setIfInBounds a va).setIfInBounds b vb).setIfInBounds c vc).setIfInBounds d vd

def lanes : List (Nat × Nat × Nat × Nat) :=
  [(0, 4, 8, 12), (1, 5, 9, 13), (2, 6, 10, 14), (3, 7, 11, 15),
    (0, 5, 10, 15), (1, 6, 11, 12), (2, 7, 8, 13), (3, 4, 9, 14)]

def round (block : Array Nat) (v : Array Nat) (r : Nat) : Array Nat :=
  let order := orders.getD (r % 10) #[]
  lanes.zipIdx.foldl (fun v (places, i) =>
    mix v places (block.getD (order.getD (2 * i) 0) 0) (block.getD (order.getD (2 * i + 1) 0) 0)) v

/-- Takes in a block that ends so many bytes after the beginning. -/
def absorb (s : List Nat) (block : Array Nat) (length : Nat) (isLast : Bool) : List Nat :=
  let roots := (Sha.firstRoots 64).toArray
  let tail := roots.toList.zipIdx.map fun (x, i) =>
    if i = 4 then x ^^^ (length % bound 64)
    else if i = 6 && isLast then complement 64 x else x
  let v := (List.range 12).foldl (round block) (s ++ tail).toArray
  s.zipIdx.map fun (x, i) => x ^^^ v.getD i 0 ^^^ v.getD (i + 8) 0

def go (s : List Nat) (length : Nat) : Nat → List Nat → List Nat
  | 0, _ => s
  | fuel + 1, bytes =>
    let isLast := bytes.length ≤ 128
    let taken := bytes.take 128
    let whole := taken ++ List.replicate (128 - taken.length) 0
    let block := ((groups 8 whole).map fun b => ofBytes b.reverse).toArray
    let length := length + taken.length
    let s := absorb s block length isLast
    if isLast then s else go s length fuel (bytes.drop 128)

/-- The digest of so many bytes. -/
def digest (size : Nat) (bytes : List Nat) : List Nat :=
  let start := (Sha.firstRoots 64).zipIdx.map fun (x, i) =>
    if i = 0 then x ^^^ 0x01010000 ^^^ size else x
  ((go start 0 (bytes.length / 128 + 1) bytes).flatMap fun w => (toBytes 8 w).reverse).take size

end LayerCache.Blake

/-! Sums of bytes that tell whether a text was changed by chance. -/
namespace LayerCache.Sums

def polynomial : Nat := 0x04c11db7

def divideBit (n : Nat) : Nat :=
  let doubled := n * 2
  if 0x80000000 ≤ n then (doubled ^^^ polynomial) % 0x100000000 else doubled

/-- One byte of a division of polynomials over two elements, the highest bit first. -/
def divideByte (n byte : Nat) : Nat := Nat.repeat divideBit 8 (n ^^^ (byte <<< 24))

/-- The bytes of a number, the lowest first, without zeros at the end. -/
def lowBytes : Nat → Nat → List Nat
  | 0, _ => []
  | fuel + 1, n => if n = 0 then [] else n % 256 :: lowBytes fuel (n / 256)

/-- The remainder of a text with its length behind it. -/
def remainder (bytes : List Nat) : Nat :=
  0xffffffff - (lowBytes 9 bytes.length).foldl divideByte (bytes.foldl divideByte 0)

/-- A sum of 16 bits that is turned by one before every byte. -/
def turning (bytes : List Nat) : Nat :=
  bytes.foldl (fun n b => (n / 2 + n % 2 * 32768 + b) % 65536) 0

/-- The sum of all bytes, folded into 16 bits. -/
def folded (bytes : List Nat) : Nat :=
  let sum := bytes.foldl (· + ·) 0 % 0x100000000
  let once := sum % 65536 + sum / 65536
  once % 65536 + once / 65536

end LayerCache.Sums
