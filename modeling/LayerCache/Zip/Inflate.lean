/-! Codes of symbols by bits, given by the lengths alone: codes of one length count up, and start
where the codes of the length before it end. -/
namespace LayerCache.Zip

/-- Bits in the order they are read. -/
abbrev Bits := List Bool

/-- Why reading stops before the end of the data it reads. -/
inductive Stop where
  | ends
  | corrupt
  deriving DecidableEq, Repr

def bitsOf (bytes : List UInt8) : Bits :=
  bytes.flatMap fun byte => (List.range 8).map byte.toNat.testBit

/-- A number of some bits, the lowest first. -/
def takeNumber : Nat → Bits → Except Stop (Nat × Bits)
  | 0, bits => .ok (0, bits)
  | _ + 1, [] => .error .ends
  | width + 1, bit :: bits => match takeNumber width bits with
    | .ok (n, rest) => .ok (bit.toNat + 2 * n, rest)
    | .error stop => .error stop

/-- How many codes there are of each length from one on, and the symbols in the order of codes. -/
structure Huffman where
  counts : List Nat
  symbols : Array Nat

namespace Huffman

def longest : Nat := 15

/-- A symbol of length zero has no code. -/
def ofLengths (lengths : List Nat) : Huffman :=
  let widths := (List.range longest).map (· + 1)
  let symbols (width : Nat) :=
    (lengths.zipIdx.filter fun (w, _) => w == width).map Prod.snd
  ⟨widths.map fun width => lengths.count width, (widths.flatMap symbols).toArray⟩

/-- The share of all codes of the greatest length that counts leave no room for or use up. -/
def used (width : Nat) : List Nat → Nat
  | [] => 0
  | count :: counts => count * Nat.pow 2 (longest - width) + used (width + 1) counts

/-- Every sequence of bits starts with exactly one code. -/
def complete (h : Huffman) : Bool := used 1 h.counts == Nat.pow 2 longest

/-- Only one symbol has a code, of one bit, or none has any. -/
def lone (h : Huffman) : Bool := h.symbols.size == (h.counts.head?).getD 0 && h.symbols.size ≤ 1

/-- A code, if the lengths make a complete one. -/
def ofLengths? (lengths : List Nat) : Except Stop Huffman :=
  if (ofLengths lengths).complete then .ok (ofLengths lengths) else .error .corrupt

/-- A code that may also be a lone one. -/
def ofFewLengths? (lengths : List Nat) : Except Stop Huffman :=
  if (ofLengths lengths).lone then .ok (ofLengths lengths) else ofLengths? lengths

/-- Reads on by one bit a length, with the first code of that length and the symbols before it. -/
def walk (h : Huffman) (code first index : Nat) : List Nat → Bits → Except Stop (Nat × Bits)
  | [], _ => .error .corrupt
  | _ :: _, [] => .error .ends
  | count :: counts, bit :: bits =>
    let code := 2 * code + bit.toNat
    if code < first + count then
      match h.symbols[index + (code - first)]? with
      | some symbol => .ok (symbol, bits)
      | none => .error .corrupt
    else walk h code (2 * (first + count)) (index + count) counts bits

/-- The symbol whose code comes next. The bit that is not the lone code is corrupt. -/
def next (h : Huffman) (bits : Bits) : Except Stop (Nat × Bits) :=
  h.walk 0 0 0 (if h.lone then h.counts.take 1 else h.counts) bits

end Huffman
end LayerCache.Zip

/-! Deflated data: blocks of literal bytes and of copies of earlier output. -/
namespace LayerCache.Zip

/-- The least number of a range and how many bits are added to it. -/
abbrev Steps := Array (Nat × Nat)

def lengthSteps : Steps := #[(3, 0), (4, 0), (5, 0), (6, 0), (7, 0), (8, 0), (9, 0), (10, 0),
  (11, 1), (13, 1), (15, 1), (17, 1), (19, 2), (23, 2), (27, 2), (31, 2), (35, 3), (43, 3),
  (51, 3), (59, 3), (67, 4), (83, 4), (99, 4), (115, 4), (131, 5), (163, 5), (195, 5), (227, 5),
  (258, 0)]

def distanceSteps : Steps := #[(1, 0), (2, 0), (3, 0), (4, 0), (5, 1), (7, 1), (9, 2), (13, 2),
  (17, 3), (25, 3), (33, 4), (49, 4), (65, 5), (97, 5), (129, 6), (193, 6), (257, 7), (385, 7),
  (513, 8), (769, 8), (1025, 9), (1537, 9), (2049, 10), (3073, 10), (4097, 11), (6145, 11),
  (8193, 12), (12289, 12), (16385, 13), (24577, 13)]

def takeStep (steps : Steps) (symbol : Nat) (bits : Bits) : Except Stop (Nat × Bits) := do
  match steps[symbol]? with
  | none => throw .corrupt
  | some (least, width) =>
    let (more, bits) ← takeNumber width bits
    return (least + more, bits)

/-- The codes of a block: of bytes, its end and lengths, and of distances. -/
structure Codes where
  symbols : Huffman
  distances : Huffman

inductive Token where
  | literal (byte : UInt8)
  | copy (length distance : Nat)
  | finish
  deriving DecidableEq, Repr

def takeToken (codes : Codes) (bits : Bits) : Except Stop (Token × Bits) := do
  let (symbol, bits) ← codes.symbols.next bits
  if symbol < 256 then return (.literal (UInt8.ofNat symbol), bits)
  else if symbol = 256 then return (.finish, bits)
  else
    let (length, bits) ← takeStep lengthSteps (symbol - 257) bits
    let (symbol, bits) ← codes.distances.next bits
    let (distance, bits) ← takeStep distanceSteps symbol bits
    return (.copy length distance, bits)

/-- Before the first byte of output stand zeros. -/
def copy (distance : Nat) : Nat → ByteArray → ByteArray
  | 0, out => out
  | length + 1, out =>
    let byte := if distance ≤ out.size then (out[out.size - distance]?).getD 0 else 0
    copy distance length (out.push byte)

/-- The output so far, and the bits after it or why there are none. -/
structure Inflated where
  out : ByteArray
  rest : Except Stop Bits

/-- Every token takes at least one bit, so the bits at the start are fuel enough. -/
def takeTokens (codes : Codes) : Nat → ByteArray → Bits → Inflated
  | 0, out, _ => ⟨out, .error .ends⟩
  | fuel + 1, out, bits => match takeToken codes bits with
    | .error stop => ⟨out, .error stop⟩
    | .ok (.literal byte, bits) => takeTokens codes fuel (out.push byte) bits
    | .ok (.copy length distance, bits) => takeTokens codes fuel (copy distance length out) bits
    | .ok (.finish, bits) => ⟨out, .ok bits⟩

def takeBytes : Nat → ByteArray → Bits → Inflated
  | 0, out, bits => ⟨out, .ok bits⟩
  | n + 1, out, bits => match takeNumber 8 bits with
    | .error stop => ⟨out, .error stop⟩
    | .ok (byte, bits) => takeBytes n (out.push (UInt8.ofNat byte)) bits

def fixedCodes : Codes :=
  ⟨.ofLengths (List.replicate 144 8 ++ List.replicate 112 9 ++ List.replicate 24 7 ++
    List.replicate 8 8), .ofLengths (List.replicate 32 5)⟩

/-- The order in which the lengths of the codes of lengths are written. -/
def lengthOrder : List Nat := [16, 17, 18, 0, 8, 7, 9, 6, 10, 5, 11, 4, 12, 3, 13, 2, 14, 1, 15]

def takeNumbers (width : Nat) : Nat → Bits → Except Stop (List Nat × Bits)
  | 0, bits => .ok ([], bits)
  | n + 1, bits => do
    let (first, bits) ← takeNumber width bits
    let (others, bits) ← takeNumbers width n bits
    return (first :: others, bits)

/-- A run of one length: how often, and which. The last length stands at the head of the list. -/
def takeRun (symbol : Nat) (lengths : List Nat) (bits : Bits) :
    Except Stop (List Nat × Bits) := do
  if symbol < 16 then return ([symbol], bits)
  else if symbol = 16 then
    match lengths with
    | [] => throw .corrupt
    | last :: _ =>
      let (n, bits) ← takeNumber 2 bits
      return (List.replicate (n + 3) last, bits)
  else if symbol = 17 then
    let (n, bits) ← takeNumber 3 bits
    return (List.replicate (n + 3) 0, bits)
  else
    let (n, bits) ← takeNumber 7 bits
    return (List.replicate (n + 11) 0, bits)

/-- Reads lengths until exactly so many are there; the last one comes first. -/
def takeLengths (code : Huffman) (total : Nat) : Nat → List Nat → Bits →
    Except Stop (List Nat × Bits)
  | 0, _, _ => .error .corrupt
  | fuel + 1, lengths, bits =>
    if lengths.length = total then .ok (lengths, bits)
    else if total < lengths.length then .error .corrupt
    else do
      let (symbol, bits) ← code.next bits
      let (run, bits) ← takeRun symbol lengths bits
      takeLengths code total fuel (run ++ lengths) bits

/-- More codes than there are symbols and distances are corrupt. -/
def takeCodes (bits : Bits) : Except Stop (Codes × Bits) := do
  let (symbols, bits) ← takeNumber 5 bits
  let (distances, bits) ← takeNumber 5 bits
  let (orders, bits) ← takeNumber 4 bits
  if 29 < symbols ∨ 29 < distances then throw .corrupt
  let (widths, bits) ← takeNumbers 3 (orders + 4) bits
  let width (symbol : Nat) : Nat := (widths[lengthOrder.idxOf symbol]?).getD 0
  let code ← Huffman.ofLengths? ((List.range 19).map width)
  let total := symbols + 257 + (distances + 1)
  let (lengths, bits) ← takeLengths code total (total + 1) [] bits
  let lengths := lengths.reverse
  return (⟨← Huffman.ofFewLengths? (lengths.take (symbols + 257)),
    ← Huffman.ofFewLengths? (lengths.drop (symbols + 257))⟩, bits)

/-- A stored block starts at a whole byte with its size, given twice. -/
def takeStored (out : ByteArray) (bits : Bits) : Inflated :=
  match takeNumbers 16 2 (bits.drop (bits.length % 8)) with
  | .ok ([size, complement], bits) =>
    if size + complement = 0xffff then takeBytes size out bits else ⟨out, .error .corrupt⟩
  | .ok _ => ⟨out, .error .corrupt⟩
  | .error stop => ⟨out, .error stop⟩

def takeBlock (kind : Nat) (out : ByteArray) (bits : Bits) : Inflated :=
  match kind with
  | 0 => takeStored out bits
  | 1 => takeTokens fixedCodes bits.length out bits
  | 2 => match takeCodes bits with
    | .ok (codes, bits) => takeTokens codes bits.length out bits
    | .error stop => ⟨out, .error stop⟩
  | _ => ⟨out, .error .corrupt⟩

/-- A block says first whether it is the last one and then of what kind it is. -/
def takeBlocks : Nat → ByteArray → Bits → Inflated
  | 0, out, _ => ⟨out, .error .ends⟩
  | fuel + 1, out, bits =>
    match takeNumber 3 bits with
    | .error stop => ⟨out, .error stop⟩
    | .ok (header, bits) =>
      let block := takeBlock (header / 2) out bits
      match block.rest with
      | .ok bits => if header % 2 = 1 then block else takeBlocks fuel block.out bits
      | .error _ => block

/-- The content behind deflated bytes; what follows its last block does not count. -/
def inflate (b : ByteArray) : Except Stop ByteArray :=
  let bits := bitsOf b.data.toList
  let all := takeBlocks bits.length .empty bits
  all.rest.map fun _ => all.out

end LayerCache.Zip
