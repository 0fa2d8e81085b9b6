import LayerCache.Text.Ascii
import LayerCache.Text.Lines
import LayerCache.Path
import LayerCache.Digest.Xxh3

/-! A unit has one identity, however it is spelled: as a path below a source root, as the name of
an archive entry or as the symbol another unit refers to it by. -/
namespace LayerCache

namespace Chars

/-- Cuts off a dot and the extension, in any case, unless nothing would be left. -/
def dropExtension (ending text : List Char) : List Char :=
  let kept := text.length - (ending.length + 1)
  if 0 < kept ∧ (text.drop kept).map Char.toLower = ('.' :: ending).map Char.toLower
  then text.take kept else text

end Chars

/-- The segments between slashes and backslashes, without the empty ones and `.`. -/
def segmentsOf (raw : String) : List String :=
  (Text.split '/' (Text.slashes raw)).filter fun segment => segment ≠ "" ∧ segment ≠ "."

/-- The logical name behind a spelling. A spelling that climbs with `..` has none: a logical name
stays below the folder it is joined to. -/
def logicalName (raw : String) (ending : Option String) : String :=
  let segments := segmentsOf raw
  if segments.contains ".." then ""
  else
    let joined := Text.join "/" segments
    match ending with
    | none => joined
    | some ending => String.ofList (Chars.dropExtension ending.toList joined.toList)

/-- A logical name in the case it was spelled in, and the digest of its lower case, by which
identities are compared. -/
structure UnitId where
  logical : String
  digest : Digest
  digest_eq : digest = Digest.ofText (Text.lower logical) := by rfl

namespace UnitId

def ofLogical (logical : String) : UnitId :=
  { logical, digest := Digest.ofText (Text.lower logical) }

def ofSymbol (symbol : String) : UnitId := ofLogical (logicalName symbol none)

def ofRelative (relative : Path) (ending : String) : UnitId :=
  ofLogical (logicalName relative.text (some ending))

def ofEntry (entry ending : String) : UnitId := ofLogical (logicalName entry (some ending))

instance : BEq UnitId := ⟨fun a b => a.digest == b.digest⟩

instance : ToString UnitId := ⟨logical⟩

def segments (u : UnitId) : List String := Text.split '/' u.logical

def isEmpty (u : UnitId) : Bool := u.logical == ""

def describe (u : UnitId) : String :=
  "UnitIdentity(" ++ u.logical ++ " #" ++ u.digest.short ++ ")"

/-- Only the last name carries the extension. -/
def fileNames (ending : String) : List String → List String
  | [] => []
  | [last] => [last ++ "." ++ ending]
  | name :: rest => name :: fileNames ending rest

/-- Where the unit's file lies in a folder that holds files by logical name. -/
def pathIn (u : UnitId) (folder : Path) (ending : String) : Path :=
  (fileNames ending u.segments).foldl Path.joinName folder

@[simp] theorem beq_iff {a b : UnitId} : (a == b) = true ↔ a.digest = b.digest := by
  show (a.digest == b.digest) = true ↔ _
  simp

theorem beq_of_lower_eq {a b : UnitId} (h : Text.lower a.logical = Text.lower b.logical) :
    (a == b) = true := by
  rw [beq_iff, a.digest_eq, b.digest_eq, h]

@[simp] theorem logical_ofLogical (logical : String) : (ofLogical logical).logical = logical := rfl

end UnitId
end LayerCache
