/-! Regular expressions and what they match in a text. `reach` follows every way at once and forgets
the groups; `walk` tries one way after the other and remembers them. -/
namespace LayerCache

structure CharSet where
  ranges : List (Char × Char)
  negated : Bool := false
  deriving DecidableEq, Repr

namespace CharSet

def single (c : Char) : CharSet := { ranges := [(c, c)] }

def all : CharSet := { ranges := [], negated := true }

def covers (s : CharSet) (c : Char) : Bool := s.ranges.any fun (a, b) => a ≤ c && c ≤ b

/-- With `fold` a character may stand in either case. -/
def contains (s : CharSet) (fold : Bool) (c : Char) : Bool :=
  (s.covers c || (fold && (s.covers c.toLower || s.covers c.toUpper))) != s.negated

end CharSet

/-- How often a repetition that may stop is tried: as often as it can be, as seldom as it can be,
or as often as it can be and never less. -/
inductive Greed where
  | most
  | least
  | possessive
  deriving DecidableEq, Repr

inductive Regex where
  | empty
  | one (s : CharSet)
  | atStart
  | atEnd
  | atLineStart
  | atLineEnd
  /-- A place with a word character on one side only; where asked for, on that side. -/
  | wordEdge (before after : Bool)
  | inWord
  | both (first second : Regex)
  | either (first second : Regex)
  | many (r : Regex) (least : Nat) (most : Option Nat) (greed : Greed := .most)
  | group (index : Nat) (r : Regex)
  /-- What a group took, once more. -/
  | again (index : Nat)
  /-- Whether something matches from a place on, or up to it, without taking it. -/
  | look (ahead inverted : Bool) (r : Regex)
  /-- Only the first way through it is taken. -/
  | atomic (r : Regex)
  /-- What is matched begins only here. -/
  | start
  deriving Repr

/-- A text searched, and whether letters match in either case. -/
structure Subject where
  chars : Array Char
  fold : Bool := false

namespace Subject

def isWordChar (c : Char) : Bool := c.isAlphanum || c == '_'

def wordAt (t : Subject) (i : Nat) : Bool := (t.chars[i]?).any isWordChar

def wordBefore (t : Subject) (i : Nat) : Bool := i != 0 && t.wordAt (i - 1)

def slice (t : Subject) (i j : Nat) : List Char := (t.chars.extract i j).toList

def same (t : Subject) (a b : List Char) : Bool :=
  if t.fold then a.map Char.toLower == b.map Char.toLower else a == b

end Subject

namespace Regex

/-- Whether a condition on a place alone holds. -/
def holdsAt (t : Subject) (i : Nat) : Regex → Bool
  | atStart => i == 0
  | atEnd => i == t.chars.size
  | atLineStart => i == 0 || t.chars[i - 1]? == some '\n'
  | atLineEnd => i == t.chars.size || t.chars[i]? == some '\n'
  | wordEdge before after =>
    t.wordBefore i != t.wordAt i && (!before || t.wordBefore i) && (!after || t.wordAt i)
  | inWord => t.wordBefore i == t.wordAt i
  | _ => true

/-- The union of two increasing lists. -/
def unite : List Nat → List Nat → List Nat
  | [], ys => ys
  | xs, [] => xs
  | x :: xs, y :: ys =>
    if x < y then x :: unite xs (y :: ys)
    else if y < x then y :: unite (x :: xs) ys
    else x :: unite xs ys

def times (step : List Nat → List Nat) : Nat → List Nat → List Nat
  | 0, places => places
  | n + 1, places => times step n (step places)

/-- Everything that at most so many steps lead to. -/
def spread (step : List Nat → List Nat) : Nat → List Nat → List Nat → List Nat
  | 0, seen, _ => seen
  | n + 1, seen, edge =>
    let fresh := (step edge).filter fun i => !seen.contains i
    if fresh.isEmpty then seen else spread step n (unite seen fresh) fresh

/-- Where matches that begin at given places may end; what a group took is left open. -/
def reach (t : Subject) : Regex → List Nat → List Nat
  | empty, places => places
  | one s, places => places.filterMap fun i =>
    if (t.chars[i]?).any (s.contains t.fold) then some (i + 1) else none
  | both a b, places => reach t b (reach t a places)
  | either a b, places => unite (reach t a places) (reach t b places)
  | many r least most _, places =>
    let start := times (reach t r) least places
    spread (reach t r) (most.elim (t.chars.size + 1) (· - least)) start start
  | group _ r, places | atomic r, places => reach t r places
  | again _, places => (List.range (t.chars.size + 1)).filter fun i => places.any (· ≤ i)
  | r, places => places.filter fun i => holdsAt t i r

def hasAgain : Regex → Bool
  | again _ => true
  | both a b | either a b => hasAgain a || hasAgain b
  | many r _ _ _ | group _ r | look _ _ r | atomic r => hasAgain r
  | _ => false

/-- What the groups took, the latest first. -/
abbrev Groups := List (Nat × Nat × Nat)

/-- Tries a step as often as it leads on, then one time less, and so on, or the other way round. -/
def repeatedly (lazily : Bool)
    (step : Nat → Groups → (Nat → Groups → Option Groups) → Option Groups) :
    Nat → Nat → Option Nat → Nat → Groups → (Nat → Groups → Option Groups) → Option Groups
  | 0, _, _, _, _, _ => none
  | budget + 1, least, most, i, groups, next =>
    let stop (_ : Unit) := if least = 0 then next i groups else none
    let more (_ : Unit) :=
      if most = some 0 then none
      else step i groups fun j groups =>
        if j = i && least = 0 then none
        else repeatedly lazily step budget (least - 1) (most.map (· - 1)) j groups next
    if lazily then (stop ()).orElse fun _ => more () else (more ()).orElse fun _ => stop ()

/-- The numbers that the end of the whole match and its beginning go by among the groups. -/
def endMark : Nat := 1000000

def startMark : Nat := 1000001

/-- Follows the ways from a place in the order of preference, until `next` is content with one. -/
def walk (t : Subject) :
    Regex → Nat → Groups → (Nat → Groups → Option Groups) → Option Groups
  | empty, i, groups, next => next i groups
  | one s, i, groups, next =>
    if (t.chars[i]?).any (s.contains t.fold) then next (i + 1) groups else none
  | both a b, i, groups, next => walk t a i groups fun j groups => walk t b j groups next
  | either a b, i, groups, next => (walk t a i groups next).orElse fun _ => walk t b i groups next
  | many r least most greed, i, groups, next =>
    let go (next : Nat → Groups → Option Groups) :=
      repeatedly (greed = .least) (walk t r) (t.chars.size + least + 2) least most i groups next
    if greed = .possessive then (go finish).bind fun groups => resume i groups next
    else go next
  | group n r, i, groups, next =>
    walk t r i groups fun j groups => next j ((n, i, j) :: groups)
  | again n, i, groups, next => match groups.lookup n with
    | none => none
    | some (a, b) =>
      let j := i + (b - a)
      if j ≤ t.chars.size && t.same (t.slice a b) (t.slice i j) then next j groups else none
  | look ahead inverted r, i, groups, next =>
    let found := if ahead then walk t r i groups finish
      else (List.range (i + 1)).reverse.findSome? fun k =>
        walk t r k groups fun j groups => if j = i then finish j groups else none
    match found with
    | some found => if inverted then none else next i (found.drop 1)
    | none => if inverted then next i groups else none
  | atomic r, i, groups, next => (walk t r i groups finish).bind fun groups => resume i groups next
  | start, i, groups, next => next i ((startMark, i, i) :: groups)
  | r, i, groups, next => if holdsAt t i r then next i groups else none
where
  finish (j : Nat) (groups : Groups) : Option Groups := some ((endMark, j, j) :: groups)
  resume (i : Nat) (groups : Groups) (next : Nat → Groups → Option Groups) : Option Groups :=
    next ((groups.head?).elim i fun (_, j, _) => j) (groups.drop 1)

/-- A match: where it begins and ends, and what its groups took. -/
structure Match where
  start : Nat
  stop : Nat
  groups : Groups
  deriving DecidableEq, Repr

/-- The longest match that begins at a place. -/
def matchAt (t : Subject) (r : Regex) (i : Nat) : Option Match :=
  let ends := (reach t r [i]).reverse
  (if r.hasAgain then ends else ends.take 1).findSome? fun j =>
    (walk t r i [] fun k groups => if k = j then some groups else none).map (⟨i, j, ·⟩)

/-- The match from a place that comes first in the order of preference. -/
def preferredAt (t : Subject) (r : Regex) (i : Nat) : Option Match :=
  (walk t r i [] (walk.finish)).map fun groups =>
    ⟨((groups.lookup startMark).map Prod.fst).getD i,
      ((groups.lookup endMark).map Prod.fst).getD i, groups.drop 1⟩

/-- The first match in the order of preference that begins at a place or after it. -/
def findPreferred? (t : Subject) (r : Regex) (start : Nat) : Option Match :=
  (List.range' start (t.chars.size + 1 - start)).findSome? (preferredAt t r)

/-- The first match that begins at a place or after it. -/
def find? (t : Subject) (r : Regex) (start : Nat) : Option Match :=
  (List.range' start (t.chars.size + 1 - start)).findSome? (matchAt t r)

def Match.text (t : Subject) (m : Match) (n : Nat) : List Char :=
  if n = 0 then t.slice m.start m.stop
  else match m.groups.lookup n with
    | some (a, b) => t.slice a b
    | none => []

end Regex
end LayerCache
