import LayerCache.Text.Ascii
import LayerCache.Text.Lines

/-! Paths as the texts they are written as. Their parts ignore repeated separators and inner `.`
parts; the text itself keeps them, because messages show it. A path of bytes that are not valid UTF-8
has no text and is none of these. -/
namespace LayerCache

/-- A path is a text, so it is encoded as UTF-8. -/
structure Path where
  text : String
  deriving DecidableEq, Repr, Inhabited

namespace Path

instance : ToString Path := ⟨text⟩

/-- The pieces between separators, empty ones included. -/
def pieces (p : Path) : List String := Text.split '/' p.text

def isAbsolute (p : Path) : Bool := p.text.toList.head? == some '/'

/-- Pieces that lead nowhere: empty ones and `.`, save a `.` that opens a relative path. -/
def isVoid (absolute : Bool) (index : Nat) (piece : String) : Bool :=
  piece == "" || (piece == "." && (absolute || index != 0))

def ofPieces (pieces : List String) : Path := ⟨Text.join "/" pieces⟩

/-- The pieces up to the last one that leads somewhere. -/
def trimmed (p : Path) : List (String × Nat) :=
  (p.pieces.zipIdx.reverse.dropWhile fun (s, i) => isVoid p.isAbsolute i s).reverse

/-- The last part, unless it is `.` or `..`. -/
def fileName (p : Path) : Option String :=
  match p.trimmed.getLast? with
  | some (name, _) => if name == ".." || name == "." then none else some name
  | none => none

/-- A path that is empty or the root has no parent. -/
def parent (p : Path) : Option Path :=
  match p.trimmed with
  | [] => none
  | kept =>
    let rest := (kept.dropLast.reverse.dropWhile fun (s, i) => isVoid p.isAbsolute i s).reverse
    if rest.isEmpty then some ⟨if p.isAbsolute then "/" else ""⟩
    else some (ofPieces (rest.map Prod.fst))

/-- The path itself, its parent, and so on up. -/
def ancestors (p : Path) : List Path := go p.text.length p
where
  go : Nat → Path → List Path
    | 0, p => [p]
    | n + 1, p => p :: (match p.parent with | some up => go n up | none => [])

/-- An absolute second path replaces the first. -/
def join (p : Path) (next : Path) : Path :=
  if next.isAbsolute then next
  else if p.text == "" || p.text.toList.getLast? == some '/' then ⟨p.text ++ next.text⟩
  else ⟨p.text ++ "/" ++ next.text⟩

def joinName (p : Path) (name : String) : Path := p.join ⟨name⟩

/-- A name is cut at its last dot; a dot in front cuts nothing, and `..` is whole. -/
def cutName (name : String) : Option String × Option String :=
  if name == ".." then (some name, none)
  else match Text.cutLast '.' name with
    | none => (none, some name)
    | some (head, tail) => if head == "" then (some name, none) else (some head, some tail)

def extension (p : Path) : Option String :=
  match p.fileName with
  | none => none
  | some name => match cutName name with
    | (some _, ending) => ending
    | (none, _) => none

/-- The file name without its extension. -/
def stem (p : Path) : Option String :=
  match p.fileName with
  | none => none
  | some name => match cutName name with
    | (some head, _) => some head
    | (none, whole) => whole

/-- Replaces everything after the stem; a path without a file name stays as it is. -/
def setExtension (p : Path) (ending : String) : Path :=
  match p.stem with
  | none => p
  | some stem =>
    let front := p.trimmed.dropLast.map Prod.fst
    let name := if ending == "" then stem else stem ++ "." ++ ending
    ofPieces (front ++ [name])

/-- The old extension is cut off first, its dot kept, and the new one set on what remains. -/
def withExtension (p : Path) (ending : String) : Path :=
  match p.extension with
  | none => p.setExtension ending
  | some old =>
    setExtension ⟨String.ofList (p.text.toList.take (p.text.length - old.length))⟩ ending

def hasExtension (p : Path) (ending : String) : Bool :=
  match p.extension with
  | some e => Text.sameIgnoringCase e ending
  | none => false

end Path
end LayerCache
