import LayerCache.Dict
import LayerCache.Text.Lines
import LayerCache.Toml.Basic

/-! Writing a table: plain values first, then each table under a header of its own, a blank line
before it. -/
namespace LayerCache.Toml

namespace Writer

/-- What decides the form of a text. A tab is no control character here. -/
structure Traits where
  control : Bool
  newline : Bool
  backslash : Bool
  singles : Nat
  doubles : Nat

/-- The longest run of a character. -/
def longestRun (c : Char) (cs : List Char) : Nat :=
  (cs.foldl (fun (best, run) d =>
    if d == c then (max best (run + 1), run + 1) else (best, 0)) (0, 0)).1

def isControl (c : Char) : Bool := c != '\t' && (c.toNat < 0x20 || c.toNat == 0x7f)

def traits (cs : List Char) : Traits where
  control := cs.any fun c => isControl c && c != '\n'
  newline := cs.contains '\n'
  backslash := cs.contains '\\'
  singles := longestRun '\'' cs
  doubles := longestRun '"' cs

inductive Form where
  | basic
  | literal
  | basicLines
  | literalLines
  deriving DecidableEq

/-- The first form that needs no escapes, a plain one before one over several lines. -/
def form (t : Traits) : Form :=
  if !t.control && !t.backslash && t.doubles == 0 && !t.newline then .basic
  else if !t.control && t.singles == 0 && !t.newline then .literal
  else if !t.control && !t.backslash && t.doubles ≤ 2 then .basicLines
  else if !t.control && t.singles ≤ 2 then .literalLines
  else if t.newline then .basicLines
  else .basic

def upperHex (n : Nat) : Char := if n < 10 then Char.ofNat (48 + n) else Char.ofNat (55 + n)

def escape (c : Char) : List Char :=
  if c.toNat = 8 then ['\\', 'b']
  else if c = '\t' then ['\\', 't']
  else if c = '\n' then ['\\', 'n']
  else if c.toNat = 12 then ['\\', 'f']
  else if c = '\r' then ['\\', 'r']
  else if c = '"' then ['\\', '"']
  else if c = '\\' then ['\\', '\\']
  else if c.toNat < 0x20 || c.toNat == 0x7f then
    ['\\', 'u', '0', '0', upperHex (c.toNat / 16), upperHex (c.toNat % 16)]
  else [c]

/-- Over several lines, line feeds stand for themselves, and so do quotes unless three would
come together. -/
def escapeLines : Nat → List Char → List Char
  | _, [] => []
  | run, c :: cs =>
    if c = '"' then
      if run < 2 then c :: escapeLines (run + 1) cs else '\\' :: c :: escapeLines 0 cs
    else (if c = '\n' then [c] else escape c) ++ escapeLines 0 cs

def writeText (s : String) : List Char :=
  let cs := s.toList
  let t := traits cs
  let lineEnd := if t.newline then ['\n'] else []
  match form t with
  | .basic => '"' :: cs.flatMap escape ++ ['"']
  | .literal => '\'' :: cs ++ ['\'']
  | .basicLines => "\"\"\"".toList ++ lineEnd ++ escapeLines 0 cs ++ "\"\"\"".toList
  | .literalLines => "'''".toList ++ lineEnd ++ cs ++ "'''".toList

def isBare (c : Char) : Bool := c.isAlphanum || c == '-' || c == '_'

/-- A key stays on its line. -/
def writeKey (s : String) : List Char :=
  let cs := s.toList
  if !cs.isEmpty && cs.all isBare then cs
  else if !cs.any isControl && !cs.contains '\\' && !cs.contains '"' then
    '"' :: cs.flatMap escape ++ ['"']
  else if !cs.any isControl && !cs.contains '\'' then '\'' :: cs ++ ['\'']
  else '"' :: cs.flatMap escape ++ ['"']

def separated (between : List Char) : List (List Char) → List Char
  | [] => []
  | [one] => one
  | one :: more => one ++ between ++ separated between more

mutual

/-- A value on one line. -/
def writeValue : Toml → List Char
  | .text s => writeText s
  | .integer n => (toString n).toList
  | .float x => x.render.toList
  | .bool b => (toString b).toList
  | .datetime d => d.render.toList
  | .array items => '[' :: separated ", ".toList (writeItems items) ++ [']']
  | .table fields =>
    if fields.isEmpty then "\x7b\x7d".toList
    else "\x7b ".toList ++ separated ", ".toList (writeMembers fields) ++ " \x7d".toList

def writeItems : List Toml → List (List Char)
  | [] => []
  | item :: items => writeValue item :: writeItems items

def writeMembers : List (String × Toml) → List (List Char)
  | [] => []
  | (key, value) :: fields =>
    (writeKey key ++ " = ".toList ++ writeValue value) :: writeMembers fields

end

/-- A table of its own: its header path, whether it is a row of an array, and its fields. -/
structure Section where
  path : List String
  row : Bool
  fields : Fields

def isPlain (v : Toml) : Bool := !v.isTable && v.rows?.isNone

/-- The values that a table writes itself. -/
def plainFields (fields : Fields) : Fields := fields.filter fun (_, v) => isPlain v

/-- A table of subtables only needs no header. -/
def Section.isShown (s : Section) : Bool :=
  s.row || s.fields.isEmpty || !(plainFields s.fields).isEmpty

def Section.header (s : Section) : List Char :=
  let path := separated ['.'] (s.path.map writeKey)
  if s.row then "[[".toList ++ path ++ "]]\n".toList else '[' :: path ++ "]\n".toList

def Section.body (s : Section) : List Char :=
  (plainFields s.fields).flatMap fun (key, v) =>
    writeKey key ++ " = ".toList ++ writeValue v ++ ['\n']

end Writer

mutual

/-- A value with the fields of all its tables in key order. -/
def arrange : Toml → Toml
  | .array items => .array (arrangeItems items)
  | .table fields => .table (Dict.ofList (arrangeFields fields)).pairs
  | v => v

def arrangeItems : List Toml → List Toml
  | [] => []
  | item :: items => arrange item :: arrangeItems items

def arrangeFields : List (String × Toml) → List (String × Toml)
  | [] => []
  | (key, value) :: fields => (key, arrange value) :: arrangeFields fields

end

namespace Writer

mutual

/-- The tables below a field, in the order they are written. -/
def sectionsOf (path : List String) : Toml → List Section
  | .table fields => ⟨path, false, fields⟩ :: sectionsOfFields path fields
  | .array items => if (Toml.array items).rows?.isSome then sectionsOfRows path items else []
  | _ => []

def sectionsOfRows (path : List String) : List Toml → List Section
  | [] => []
  | .table fields :: rows =>
    ⟨path, true, fields⟩ :: sectionsOfFields path fields ++ sectionsOfRows path rows
  | _ :: rows => sectionsOfRows path rows

def sectionsOfFields (path : List String) : List (String × Toml) → List Section
  | [] => []
  | (key, value) :: fields => sectionsOf (path ++ [key]) value ++ sectionsOfFields path fields

end

/-- Sections that are shown, each after a blank line unless nothing stands before it. -/
def writeSections (first : Bool) : List Section → List Char
  | [] => []
  | s :: rest =>
    if s.isShown then
      (if first then [] else ['\n']) ++ s.header ++ s.body ++ writeSections false rest
    else writeSections first rest

end Writer

/-- The text of a table whose keys are in order. -/
def render (table : Dict String Toml) : String :=
  let fields := arrangeFields table.pairs
  let top : Writer.Section := ⟨[], false, fields⟩
  String.ofList (top.body ++
    Writer.writeSections (Writer.plainFields fields).isEmpty (Writer.sectionsOfFields [] fields))

end LayerCache.Toml
