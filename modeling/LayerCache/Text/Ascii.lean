/-! Letter case in the ASCII range. Every other character is its own lower case, so two texts that
differ in the case of an accented letter stay different. -/
namespace LayerCache.Text

def lower (s : String) : String := String.ofList (s.toList.map Char.toLower)

def sameIgnoringCase (a b : String) : Bool := lower a == lower b

@[simp] theorem toList_lower (s : String) : (lower s).toList = s.toList.map Char.toLower := by
  simp [lower]

theorem sameIgnoringCase_iff {a b : String} :
    sameIgnoringCase a b = true ↔ lower a = lower b := by
  simp [sameIgnoringCase]

theorem sameIgnoringCase_self (a : String) : sameIgnoringCase a a = true := by
  simp [sameIgnoringCase]

end LayerCache.Text

/-! The characters with the Unicode property White_Space, and trimming by them. -/
namespace LayerCache.Chars

def blankRanges : List (Nat × Nat) := [
  (0x9, 0xd), (0x20, 0x20), (0x85, 0x85), (0xa0, 0xa0), (0x1680, 0x1680), (0x2000, 0x200a),
  (0x2028, 0x2029), (0x202f, 0x202f), (0x205f, 0x205f), (0x3000, 0x3000)]

def isBlank (c : Char) : Bool :=
  blankRanges.any fun (first, last) => first ≤ c.toNat && c.toNat ≤ last

def trimLeft (cs : List Char) : List Char := cs.dropWhile isBlank

def trimRight (cs : List Char) : List Char := (cs.reverse.dropWhile isBlank).reverse

def trim (cs : List Char) : List Char := trimRight (trimLeft cs)

end LayerCache.Chars

namespace LayerCache.Text

def trim (s : String) : String := String.ofList (Chars.trim s.toList)

def isBlank (s : String) : Bool := s.toList.all Chars.isBlank

end LayerCache.Text

/-! Whole numbers as they are written: decimal digits, perhaps behind a sign. -/
namespace LayerCache.Chars

def number? (cs : List Char) : Option Nat :=
  if cs.isEmpty || !cs.all Char.isDigit then none
  else some (cs.foldl (fun n c => 10 * n + (c.toNat - '0'.toNat)) 0)

def int? : List Char → Option Int
  | '-' :: rest => (number? rest).map fun n => -(n : Int)
  | '+' :: rest => (number? rest).map Int.ofNat
  | cs => (number? cs).map Int.ofNat

/-- A text in at least so many places. -/
def padLeft (width : Nat) (cs : List Char) (filler : Char := ' ') : List Char :=
  List.replicate (width - cs.length) filler ++ cs

def padRight (width : Nat) (cs : List Char) : List Char :=
  cs ++ List.replicate (width - cs.length) ' '

end LayerCache.Chars

namespace LayerCache.Text

def number? (s : String) : Option Nat := Chars.number? s.toList

def int? (s : String) : Option Int := Chars.int? s.toList

end LayerCache.Text
