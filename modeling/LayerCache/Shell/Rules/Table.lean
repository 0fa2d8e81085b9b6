import LayerCache.Shell.Rules.Value

/-! Tables of values. Their keys are gone through in the order of a sum of their characters; keys
that share one come in the order in which they were last used, the latest first. As long as all keys
are whole numbers, these take the place of the sums. -/
namespace LayerCache.Rules

inductive Key where
  | count (n : Int)
  | text (cs : List Char)
  deriving DecidableEq, Repr

namespace Key

def toList : Key → List Char
  | count n => (toString n).toList
  | text cs => cs

/-- The sum of a key's characters. -/
def sum (cs : List Char) : UInt32 :=
  cs.foldl (fun h c => (h ^^^ c.val) * 16777619) 2166136261

end Key

structure Entry where
  key : List Char
  value : Value
  /-- The entry was asked for by its number. -/
  counted : Bool
  deriving Inhabited

structure Table where
  buckets : Array (List Entry) := Array.replicate 64 []
  size : Nat := 0
  /-- Keys were used that are no numbers. -/
  isNamed : Bool := false
  deriving Inhabited

namespace Table

/-- Entries to a bucket, on the average, before there are more buckets. -/
def crowd : Nat := 12

def place (t : Table) (key : List Char) : Nat :=
  if t.isNamed then (Key.sum key).toNat % t.buckets.size
  else (((Chars.int? key).getD 0).emod t.buckets.size).toNat

def bucket (t : Table) (i : Nat) : List Entry := (t.buckets[i]?).getD []

def add (t : Table) (e : Entry) : Table :=
  let i := t.place e.key
  { t with buckets := t.buckets.setIfInBounds i (e :: t.bucket i) }

def entries (t : Table) : List Entry := t.buckets.toList.flatten

/-- From here on keys go by their sums. -/
def named (t : Table) : Table :=
  if t.isNamed then t
  else
    let empty : Table := { t with buckets := Array.replicate t.buckets.size [], isNamed := true }
    t.entries.foldl add empty

def grown (t : Table) : Table :=
  let wider : Table := { t with buckets := Array.replicate (2 * t.buckets.size) [] }
  t.entries.reverse.foldl add wider

/-- A table that is ready for a key, and what it holds there. -/
def focus (t : Table) (k : Key) : Table × Option Entry :=
  let t := if k matches .text _ then t.named else t
  (t, (t.bucket (t.place k.toList)).find? fun e => e.key = k.toList)

/-- Sets a value. The entry moves to the front, but where it goes by a number it already went by. -/
def insert (t : Table) (k : Key) (value : Value) : Table :=
  let key := k.toList
  let byCount := k matches .count _
  let (t, found) := t.focus k
  match found with
  | some e =>
    let i := t.place key
    let others := t.bucket i
    let changed : List Entry :=
      if t.isNamed && byCount && e.counted then
        others.map fun other => if other.key = key then { other with value } else other
      else ⟨key, value, e.counted || byCount⟩ :: others.filter (·.key != key)
    { t with buckets := t.buckets.setIfInBounds i changed }
  | none =>
    let t := { t with size := t.size + 1 }
    let t := if crowd * t.buckets.size < t.size then t.grown else t
    t.add ⟨key, value, byCount⟩

/-- The value at a key, which is there from then on. -/
def get (t : Table) (k : Key) : Value × Table :=
  let value := ((t.focus k).2).elim .unset Entry.value
  (value, t.insert k value)

def contains (t : Table) (k : Key) : Bool × Table :=
  match t.focus k with
  | (t, some e) => (true, t.insert k e.value)
  | (t, none) => (false, t)

def erase (t : Table) (k : Key) : Table :=
  match t.focus k with
  | (t, none) => t
  | (t, some e) =>
    if t.size = 1 then {}
    else
      let i := t.place e.key
      { t with
        buckets := t.buckets.setIfInBounds i ((t.bucket i).filter (·.key != e.key))
        size := t.size - 1 }

/-- The keys in their order. -/
def keys (t : Table) : List (List Char) × Table :=
  let t := t.named
  (t.entries.map Entry.key, t)

def ofList (values : List (Key × Value)) : Table :=
  values.foldl (fun t (k, v) => t.insert k v) {}

end Table
end LayerCache.Rules
