import LayerCache.Dict
import LayerCache.Digest.Basic
import LayerCache.Environment

/-! JSON documents as far as files of this library hold them: of numbers only the plain counts are
kept, of texts those whose escapes all stand for characters. -/
namespace LayerCache

inductive Json where
  | null
  | bool (value : Bool)
  /-- A number written as digits alone. -/
  | count (n : Nat)
  /-- A number with a sign, a fraction or an exponent. -/
  | otherNumber
  /-- Nothing if half a surrogate pair is escaped on its own. -/
  | text (value : Option String)
  | array (items : List Json)
  | object (fields : List (Option String × Json))

namespace Json

def text? : Json → Option String
  | text value => value
  | _ => none

def items? : Json → Option (List Json)
  | array items => some items
  | _ => none

end Json
end LayerCache

/-! Writing JSON, indented by two blanks, one member or item to a line. -/
namespace LayerCache.Json

def lowHex (n : Nat) : Char := if n < 10 then Char.ofNat (48 + n) else Char.ofNat (87 + n)

def quotedChar (c : Char) : List Char :=
  if c = '"' then ['\\', '"']
  else if c = '\\' then ['\\', '\\']
  else if c.toNat = 8 then ['\\', 'b']
  else if c.toNat = 12 then ['\\', 'f']
  else if c = '\n' then ['\\', 'n']
  else if c = '\r' then ['\\', 'r']
  else if c = '\t' then ['\\', 't']
  else if c.toNat < 0x20 then ['\\', 'u', '0', '0', lowHex (c.toNat / 16), lowHex (c.toNat % 16)]
  else [c]

def quote (s : String) : List Char := '"' :: s.toList.flatMap quotedChar ++ ['"']

def newLine (depth : Nat) : List Char := '\n' :: List.replicate (2 * depth) ' '

/-- Written members between brackets; no line is spent on an empty collection. -/
def enclosed (opening closing : Char) (depth : Nat) : List (List Char) → List Char
  | [] => [opening, closing]
  | member :: members =>
    opening :: newLine (depth + 1) ++ member ++
      members.flatMap (fun m => ',' :: newLine (depth + 1) ++ m) ++ newLine depth ++ [closing]

def field (key : String) (value : List Char) : List Char := quote key ++ ':' :: ' ' :: value

def writeObject (depth : Nat) (fields : List (List Char)) : List Char :=
  enclosed '\x7b' '\x7d' depth fields

def writeArray (depth : Nat) (items : List (List Char)) : List Char := enclosed '[' ']' depth items

end LayerCache.Json

/-! What a JSON value says, read as a value of another type: records, names of constants, digests.
Members that are not asked for are passed over. -/
namespace LayerCache.Json

/-- The fields of an object, all of whose keys are texts. -/
def fields? : Json → Option (List (String × Json))
  | object fields => fields.mapM fun (key, value) => key.map (·, value)
  | _ => none

/-- The member of a key that must stand in a record exactly once. -/
def member? (fields : List (String × Json)) (key : String) : Option Json :=
  match fields.filter fun (k, _) => k == key with
  | [(_, value)] => some value
  | _ => none

/-- A record as an object, or as an array of its members in their order. -/
def record? (keys : List String) (json : Json) : Option (List Json) :=
  match json with
  | array items => if items.length = keys.length then some items else none
  | _ => do
    let fields ← json.fields?
    keys.mapM (member? fields)

/-- The name of a constant, bare or as the only key of an object over nothing. -/
def constant? : Json → Option String
  | text value => value
  | object [(key, null)] => key
  | _ => none

def byte? : Json → Option UInt8
  | count n => if n < 256 then some (UInt8.ofNat n) else none
  | _ => none

/-- Keys may repeat; the last one counts, and all values must be well-formed. -/
def dict? {ν : Type} (value? : Json → Option ν) (json : Json) : Option (Dict String ν) := do
  let fields ← json.fields?
  let pairs ← fields.mapM fun (key, value) => (value? value).map (key, ·)
  return Dict.ofList pairs

end LayerCache.Json

namespace LayerCache

def Digest.ofJson? (json : Json) : Option Digest := do
  let items ← json.items?
  let bytes ← items.mapM Json.byte?
  Digest.ofBytes? bytes

def Environment.ofJson? (json : Json) : Option Environment := do
  Environment.ofName? (← json.constant?)

end LayerCache
