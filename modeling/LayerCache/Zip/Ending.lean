import LayerCache.Zip.Member

/-! The end of an archive: a record that says where the directory is, and, where its numbers do not
fit, a wide record that a locator in front of it points to. -/
namespace LayerCache.Zip

def directorySignature : Nat := 0x02014b50

def endSignature : Nat := 0x06054b50

def wideEndSignature : Nat := 0x06064b50

def locatorSignature : Nat := 0x07064b50

/-- How much data was put before the archive, where its directory starts, and how many records it
has. -/
structure Place where
  shift : Nat
  start : Nat
  count : Nat
  deriving DecidableEq, Repr

/-- The first place from a given one on that passes a test. -/
def firstFrom (start stop : Nat) (test : Nat → Bool) : Option Nat :=
  ((List.range (stop - start)).find? fun i => test (start + i)).map (start + ·)

/-- Where a wide record should be, and on which disk the directory is. -/
structure Locator where
  disk : Nat
  offset : Nat
  disks : Nat

def locatorAt (b : ByteArray) (start : Nat) : Option Locator := do
  guard (hasSignature b locatorSignature start)
  return ⟨← numberAt b (start + 4) 4, ← numberAt b (start + 8) 8, ← numberAt b (start + 16) 4⟩

/-- What a wide record says. -/
structure WideEnd where
  madeBy : Nat
  needed : Nat
  disk : Nat
  diskOfDirectory : Nat
  here : Nat
  total : Nat
  offset : Nat

/-- A wide record reaches to the locator and has room before it for all directory records. -/
def wideEndAt (b : ByteArray) (locator : Locator) (stop start : Nat) : Option WideEnd := do
  guard (hasSignature b wideEndSignature start)
  let size ← numberAt b (start + 4) 8
  guard (44 ≤ size ∧ start + size + 12 = stop)
  let wide : WideEnd := {
    madeBy := ← numberAt b (start + 12) 2, needed := ← numberAt b (start + 14) 2,
    disk := ← numberAt b (start + 16) 4, diskOfDirectory := ← numberAt b (start + 20) 4,
    here := ← numberAt b (start + 24) 8, total := ← numberAt b (start + 32) 8,
    offset := ← numberAt b (start + 48) 8 }
  guard (wide.diskOfDirectory = locator.disk)
  guard (wide.total * 46 + wide.offset ≤ start)
  return wide

/-- The wide record is searched from the stated place on; how far it is off tells how much data was
put before the archive. -/
def widePlace (b : ByteArray) (locator : Locator) (stop : Nat) : Option Place := do
  guard (locator.offset < stop ∧ locator.disks ≤ 1)
  let start ← firstFrom locator.offset stop fun i => (wideEndAt b locator stop i).isSome
  let wide ← wideEndAt b locator stop start
  guard (wide.here ≤ wide.total ∧ wide.needed ≤ wide.madeBy ∧ wide.disk = wide.diskOfDirectory)
  let shift := start - locator.offset
  return ⟨shift, wide.offset + shift, wide.total⟩

/-- The first directory record is searched likewise. -/
def narrowPlace (b : ByteArray) (total here offset record : Nat) : Option Place := do
  let start ←
    if total = 0 then some (max record offset)
    else firstFrom offset record (hasSignature b directorySignature)
  return ⟨start - offset, start, here⟩

/-- Where the directory is by the end record at some place. -/
def placeAt (b : ByteArray) (record : Nat) : Option Place := do
  guard (hasSignature b endSignature record)
  let disk ← numberAt b (record + 4) 2
  let diskOfDirectory ← numberAt b (record + 6) 2
  let here ← numberAt b (record + 8) 2
  let total ← numberAt b (record + 10) 2
  let offset ← numberAt b (record + 16) 4
  let comment ← numberAt b (record + 20) 2
  guard (record + 22 + comment ≤ b.size)
  let locator :=
    if (total = 0xffff ∨ offset = 0xffffffff) ∧ 20 ≤ record then locatorAt b (record - 20) else none
  match locator with
  | some locator => widePlace b locator (record - 20)
  | none =>
    guard (disk = diskOfDirectory)
    narrowPlace b total here offset record

end LayerCache.Zip
