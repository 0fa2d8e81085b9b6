/-! UTF-8 read leniently: each longest beginning of a sequence that does not go on as it should
becomes one replacement character. -/
namespace LayerCache.Utf8

/-- A sequence under way: bytes still due, bits so far, and the range the next byte must lie in. -/
structure Open where
  due : Nat
  bits : Nat
  low : UInt8
  high : UInt8

def replacement : Char := Char.ofNat 0xfffd

/-- The sequence a leading byte opens. Ranges exclude overlong forms, surrogates and code points
past the last one. -/
def opening (b : UInt8) : Option Open :=
  let n := b.toNat
  if 0xc2 ≤ n && n ≤ 0xdf then some ⟨1, n - 0xc0, 0x80, 0xbf⟩
  else if n = 0xe0 then some ⟨2, 0, 0xa0, 0xbf⟩
  else if n = 0xed then some ⟨2, 0xd, 0x80, 0x9f⟩
  else if 0xe1 ≤ n && n ≤ 0xef then some ⟨2, n - 0xe0, 0x80, 0xbf⟩
  else if n = 0xf0 then some ⟨3, 0, 0x90, 0xbf⟩
  else if 0xf1 ≤ n && n ≤ 0xf3 then some ⟨3, n - 0xf0, 0x80, 0xbf⟩
  else if n = 0xf4 then some ⟨3, 4, 0x80, 0x8f⟩
  else none

/-- A byte that begins afresh: what it says at once, and the sequence it leaves open. -/
def begin (b : UInt8) : List Char × Option Open :=
  if b.toNat < 0x80 then ([Char.ofNat b.toNat], none)
  else match opening b with
    | some seq => ([], some seq)
    | none => ([replacement], none)

def feed (b : UInt8) : Option Open → List Char × Option Open
  | none => begin b
  | some seq =>
    if seq.low ≤ b && b ≤ seq.high then
      let bits := seq.bits * 64 + (b.toNat - 0x80)
      if seq.due = 1 then ([Char.ofNat bits], none)
      else ([], some ⟨seq.due - 1, bits, 0x80, 0xbf⟩)
    else
      let (said, next) := begin b
      (replacement :: said, next)

def decodeFrom (state : Option Open) : List UInt8 → List Char
  | [] => if state.isSome then [replacement] else []
  | b :: bs =>
    let (said, next) := feed b state
    said ++ decodeFrom next bs

def decodeLossy (bytes : ByteArray) : String :=
  match String.fromUTF8? bytes with
  | some text => text
  | none => String.ofList (decodeFrom none bytes.toList)

end LayerCache.Utf8

/-! Bytes seen as characters. A program that knows no encodings takes every byte for a character of
its own, so its texts hold only the first 256 characters. -/
namespace LayerCache.Octets

def ofBytes (bytes : ByteArray) : List Char :=
  bytes.data.toList.map fun b => Char.ofNat b.toNat

def toBytes (cs : List Char) : ByteArray := ⟨(cs.map fun c => UInt8.ofNat c.toNat).toArray⟩

/-- The bytes a text is written with. -/
def ofText (s : String) : String := String.ofList (ofBytes s.toUTF8)

/-- The text that bytes spell. -/
def toText (s : String) : String := Utf8.decodeLossy (toBytes s.toList)

theorem toNat_ofNat_byte (b : UInt8) : (Char.ofNat b.toNat).toNat = b.toNat := by
  have h := b.toNat_lt
  have v : Nat.isValidChar b.toNat := Or.inl (by omega)
  rw [Char.ofNat, dif_pos v]
  rfl

theorem toBytes_ofBytes (bytes : ByteArray) : toBytes (ofBytes bytes) = bytes := by
  simp [toBytes, ofBytes, Function.comp_def, toNat_ofNat_byte]

end LayerCache.Octets
