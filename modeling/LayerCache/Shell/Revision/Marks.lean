/-! Which lines of two texts have no partner in the other. As few as can be are without one, and of
several ways to do that the middle of the cheapest path decides. -/
namespace LayerCache.Revision

/-- The keys of two texts' lines: lines with the same key are partners. -/
structure Task where
  left : Array (List Char)
  right : Array (List Char)

namespace Task

def same (t : Task) (x y : Int) : Bool :=
  match t.left[x.toNat]?, t.right[y.toNat]? with
  | some a, some b => a = b
  | _, _ => false

end Task

/-- Lines of the left text and lines of the right one that are still to be compared. -/
structure Region where
  left : Int
  leftEnd : Int
  right : Int
  rightEnd : Int

/-- How far paths with the same cost come, by diagonals in some range. -/
structure Front where
  offset : Int
  reach : Array Int
  low : Int
  high : Int

namespace Front

def «at» (f : Front) (d : Int) : Int := (f.reach[(d + f.offset).toNat]?).getD 0

def set (f : Front) (d x : Int) : Front :=
  { f with reach := f.reach.setIfInBounds (d + f.offset).toNat x }

/-- One more diagonal on each side, as long as the region has them. What lies beyond is as far
away as can be. -/
def widen (f : Front) (r : Region) (beyond : Int) : Front :=
  let f := if r.left - r.rightEnd < f.low then { f.set (f.low - 2) beyond with low := f.low - 1 }
    else { f with low := f.low + 1 }
  if f.high < r.leftEnd - r.right then { f.set (f.high + 2) beyond with high := f.high + 1 }
  else { f with high := f.high - 1 }

/-- Every second diagonal, the highest first. -/
def diagonals (f : Front) : List Int :=
  (List.range ((f.high - f.low) / 2 + 1).toNat).map fun (i : Nat) => f.high - 2 * i

def covers (f : Front) (d : Int) : Bool := f.low ≤ d && d ≤ f.high

end Front

namespace Task

/-- Goes down a diagonal as long as lines are the same. -/
def down (t : Task) (r : Region) (d : Int) : Nat → Int → Int
  | 0, x => x
  | fuel + 1, x =>
    if x < r.leftEnd && x - d < r.rightEnd && t.same x (x - d) then down t r d fuel (x + 1) else x

def up (t : Task) (r : Region) (d : Int) : Nat → Int → Int
  | 0, x => x
  | fuel + 1, x =>
    if r.left < x && r.right < x - d && t.same (x - 1) (x - d - 1) then up t r d fuel (x - 1)
    else x

/-- One more step from the beginning; it stops where it meets the paths from the end. -/
def forward (t : Task) (r : Region) (meets : Bool) (back front : Front) :
    Except (Int × Int) Front :=
  front.diagonals.foldlM (fun (front : Front) d =>
    let below := front.at (d - 1)
    let above := front.at (d + 1)
    let x := t.down r d t.left.size (if below < above then above else below + 1)
    if meets && back.covers d && back.at d ≤ x then .error (x, x - d) else .ok (front.set d x))
    front

/-- One more step from the end. -/
def backward (t : Task) (r : Region) (meets : Bool) (front back : Front) :
    Except (Int × Int) Front :=
  back.diagonals.foldlM (fun (back : Front) d =>
    let below := back.at (d - 1)
    let above := back.at (d + 1)
    let x := t.up r d t.left.size (if below < above then below else above - 1)
    if meets && front.covers d && x ≤ front.at d then .error (x, x - d) else .ok (back.set d x))
    back

/-- Where paths from both sides meet. -/
def middle (t : Task) (r : Region) (odd : Bool) : Nat → Front → Front → Int × Int
  | 0, _, _ => (r.leftEnd, r.rightEnd)
  | fuel + 1, front, back =>
    match (do
      let front ← t.forward r odd back (front.widen r (-1))
      let far : Int := t.left.size + t.right.size + 2
      let back ← t.backward r (!odd) front (back.widen r far)
      return (front, back)) with
    | .error point => point
    | .ok (front, back) => middle t r odd fuel front back

def middleOf (t : Task) (r : Region) : Int × Int :=
  let offset : Int := t.right.size + 2
  let reach : Array Int := Array.replicate (t.left.size + t.right.size + 5) 0
  let start := r.left - r.right
  let stop := r.leftEnd - r.rightEnd
  let front : Front := ⟨offset, reach, start, start⟩
  let back : Front := ⟨offset, reach, stop, stop⟩
  t.middle r ((start - stop) % 2 != 0) (t.left.size + t.right.size + 1) (front.set start r.left)
    (back.set stop r.leftEnd)

def between (low high : Int) : List Nat :=
  (List.range (high - low).toNat).map (low.toNat + ·)

/-- The lines without a partner in either text. -/
def lonely (t : Task) : Nat → Region → List Nat × List Nat
  | 0, _ => ([], [])
  | fuel + 1, r =>
    let left := t.down r (r.left - r.right) t.left.size r.left
    let r := { r with left := left, right := r.right + (left - r.left) }
    let leftEnd := t.up r (r.leftEnd - r.rightEnd) t.left.size r.leftEnd
    let r := { r with leftEnd := leftEnd, rightEnd := r.rightEnd + (leftEnd - r.leftEnd) }
    if r.left = r.leftEnd then ([], between r.right r.rightEnd)
    else if r.right = r.rightEnd then (between r.left r.leftEnd, [])
    else
      let (x, y) := t.middleOf r
      let first := lonely t fuel { r with leftEnd := x, rightEnd := y }
      let second := lonely t fuel { r with left := x, right := y }
      (first.1 ++ second.1, first.2 ++ second.2)

end Task

/-- Lines of one text, each with or without a mark. -/
abbrev Marks := Array Bool

namespace Marks

def has (m : Marks) (i : Nat) : Bool := (m[i]?).getD false

/-- The first line from some place on that has no mark. -/
def free (m : Marks) (i : Nat) : Nat := i + ((m.toList.drop i).takeWhile id).length

/-- The last line before some place that has no mark. -/
def freeBefore (m : Marks) (i : Nat) : Nat :=
  i - 1 - ((m.toList.take i).reverse.takeWhile id).length

/-- Where the run of marked lines begins that ends before some place. -/
def runStart (m : Marks) (i : Nat) : Nat :=
  i - ((m.toList.take i).reverse.takeWhile id).length

def put (m : Marks) (i : Nat) (mark : Bool) : Marks := m.setIfInBounds i mark

end Marks

/-- Marks of one text while runs of them are moved: the run that is looked at, and the place in the
other text that belongs to its end. -/
structure Shift where
  marks : Marks
  start : Nat
  stop : Nat
  other : Nat
  /-- The last end of the run that belongs to marked lines of the other text. -/
  partner : Nat

namespace Shift

/-- Moves the run back by one line after another, as long as nothing else is said by it. -/
def back (keys : Array (List Char)) (others : Marks) : Nat → Shift → Shift
  | 0, s => s
  | fuel + 1, s =>
    if 0 < s.start && keys[s.start - 1]? = keys[s.stop - 1]? then
      let marks := (s.marks.put (s.start - 1) true).put (s.stop - 1) false
      back keys others fuel { s with
        marks
        start := marks.runStart (s.start - 1)
        stop := s.stop - 1
        other := others.freeBefore s.other }
    else s

def forth (keys : Array (List Char)) (others : Marks) : Nat → Shift → Shift
  | 0, s => s
  | fuel + 1, s =>
    if s.stop < keys.size && keys[s.start]? = keys[s.stop]? then
      let marks := (s.marks.put s.start false).put s.stop true
      let stop := marks.free (s.stop + 1)
      let other := others.free (s.other + 1)
      forth keys others fuel { s with
        marks
        start := s.start + 1
        stop
        other
        partner := if s.other + 1 < other then stop else s.partner }
    else s

/-- Moves a run until it grows no more by joining others: back and then as far forth as it goes. -/
def settle (keys : Array (List Char)) (others : Marks) : Nat → Shift → Shift
  | 0, s => s
  | fuel + 1, s =>
    let length := s.stop - s.start
    let s := back keys others (keys.size + 1) s
    let s := { s with partner :=
      if 0 < s.other && others.has (s.other - 1) then s.stop else keys.size }
    let s := forth keys others (keys.size + 1) s
    if s.stop - s.start = length then s else settle keys others fuel s

/-- Moves the run back to where the other text has marked lines too. -/
def rejoin (others : Marks) : Nat → Shift → Shift
  | 0, s => s
  | fuel + 1, s =>
    if s.partner < s.stop then
      rejoin others fuel { s with
        marks := (s.marks.put (s.start - 1) true).put (s.stop - 1) false
        start := s.start - 1
        stop := s.stop - 1
        other := others.freeBefore s.other }
    else s

/-- Goes to the next run and moves it; `i` and `j` are places that belong to each other. -/
def all (keys : Array (List Char)) (others : Marks) : Nat → Marks → Nat → Nat → Marks
  | 0, marks, _, _ => marks
  | fuel + 1, marks, i, j =>
    if keys.size ≤ i then marks
    else if !marks.has i then all keys others fuel marks (i + 1) (others.free j + 1)
    else
      let s : Shift := ⟨marks, i, marks.free i, others.free j, keys.size⟩
      let s := rejoin others (keys.size + 1) (settle keys others (keys.size + 1) s)
      all keys others fuel s.marks s.stop s.other

end Shift

/-- Lines that the other text does not have at all have no partner from the start. -/
def strangers (keys others : Array (List Char)) : Array Bool :=
  keys.map fun key => !others.contains key

/-- Marks the lines of both texts that have no partner. -/
def mark (left right : Array (List Char)) : Marks × Marks :=
  let strange := (strangers left right, strangers right left)
  let known (keys : Array (List Char)) (strange : Array Bool) : List Nat :=
    (List.range keys.size).filter fun i => !(strange[i]?).getD false
  let (lefts, rights) := (known left strange.1, known right strange.2)
  let keysAt (keys : Array (List Char)) (places : List Nat) : Array (List Char) :=
    (places.filterMap fun i => keys[i]?).toArray
  let task : Task := ⟨keysAt left lefts, keysAt right rights⟩
  let (gone, come) := task.lonely (task.left.size + task.right.size + 1)
    ⟨0, task.left.size, 0, task.right.size⟩
  let marked (strange : Array Bool) (places lonely : List Nat) : Marks :=
    lonely.foldl (fun marks i => marks.put ((places[i]?).getD 0) true) strange
  let leftMarks := marked strange.1 lefts gone
  let rightMarks := marked strange.2 rights come
  let leftMarks := Shift.all left rightMarks (2 * left.size + 1) leftMarks 0 0
  (leftMarks, Shift.all right leftMarks (2 * right.size + 1) rightMarks 0 0)

end LayerCache.Revision
