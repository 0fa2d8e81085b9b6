import LayerCache.UnitId

/-! The entries of an archive that are units. Of several that name one unit the first that is listed
counts. They are kept in increasing order, with the place of each unit's entry. -/
namespace LayerCache

namespace EntryName

def dropSlashes (name : String) : String :=
  String.ofList ((Text.slashes name).toList.dropWhile (· == '/'))

/-- A name that stays below the folder it is unpacked in, on any system. -/
def isEnclosed (name : String) : Bool :=
  let segments := Text.split '/' (Text.slashes name)
  !Text.startsWith (Text.slashes name) "/" &&
    !(segments.head?.any fun first => first.toList.contains ':') && !segments.contains ".."

def isSource (ending name : String) : Bool :=
  match Text.cutLast '.' name with
  | some (stem, e) => stem != "" && Text.sameIgnoringCase e ending
  | none => false

/-- Names under the reserved one, in the same case; no name is reserved if that one is empty. -/
def isReserved (reserved name : String) : Bool :=
  reserved != "" && Text.startsWith name reserved

def unit (ending name : String) : UnitId := .ofEntry (dropSlashes name) ending

def admits (ending reserved name : String) : Bool :=
  isEnclosed name && !Text.endsWith name "/" && isSource ending (dropSlashes name) &&
    !isReserved reserved (dropSlashes name) && !(unit ending name).isEmpty

/-- The entries that are units; of one unit only the first. -/
def owners (ending reserved : String) : List String → List (UnitId × String)
  | [] => []
  | name :: rest =>
    let others := owners ending reserved rest
    if admits ending reserved name then
      (unit ending name, name) :: others.filter fun (u, _) => !(u == unit ending name)
    else others

end EntryName

structure Catalog where
  entries : List String
  /-- The place of each unit's entry. -/
  places : List (UnitId × Nat)
  ordered : entries.Pairwise (· ≤ ·)
  /-- Each place is that of one unit. -/
  whole : (places.map Prod.snd).Perm (List.range entries.length)

namespace Catalog

/-- The places of some names, in increasing order of the names. -/
def orderOf (names : List String) : List Nat :=
  (List.range names.length).mergeSort fun i j => names.getD i "" ≤ names.getD j ""

/-- Where each place goes when a list is put in an order. -/
def moves (order : List Nat) : List Nat :=
  order.zipIdx.foldl (fun moves (old, new) => moves.set old new) (List.replicate order.length 0)

theorem perm_orderOf (names : List String) :
    (orderOf names).Perm (List.range names.length) := List.mergeSort_perm ..

theorem length_orderOf (names : List String) : (orderOf names).length = names.length := by
  rw [(perm_orderOf names).length_eq, List.length_range]

theorem pairwise_orderOf (names : List String) :
    ((orderOf names).map (names.getD · "")).Pairwise (· ≤ ·) := by
  let le : Nat → Nat → Bool := fun i j => decide (names.getD i "" ≤ names.getD j "")
  have transitive : ∀ i j k, le i j → le j k → le i k := by
    intro i j k first second
    simp only [le, decide_eq_true_eq] at first second ⊢
    exact String.le_trans first second
  have total : ∀ i j, le i j || le j i := fun i j => by simpa [le] using String.le_total _ _
  rw [List.pairwise_map]
  simpa [le, orderOf] using List.pairwise_mergeSort transitive total (List.range names.length)

section

variable {pairs : List (Nat × Nat)} {order : List Nat}

theorem length_foldl_set (pairs : List (Nat × Nat)) (moves : List Nat) :
    (pairs.foldl (fun moves (old, new) => moves.set old new) moves).length = moves.length := by
  induction pairs generalizing moves with
  | nil => rfl
  | cons pair rest ih => simp [ih]

theorem getElem?_foldl_set_of_not_mem (moves : List Nat) {i : Nat}
    (absent : i ∉ pairs.map Prod.fst) :
    (pairs.foldl (fun moves (old, new) => moves.set old new) moves)[i]? = moves[i]? := by
  induction pairs generalizing moves with
  | nil => rfl
  | cons pair rest ih =>
    rw [List.map_cons, List.mem_cons, not_or] at absent
    rw [List.foldl_cons, ih _ absent.2, List.getElem?_set_ne (Ne.symm absent.1)]

/-- What is written to each place once stays there. -/
theorem getElem?_foldl_set (distinct : (pairs.map Prod.fst).Nodup) (moves : List Nat) {old new : Nat}
    (member : (old, new) ∈ pairs) (inside : old < moves.length) :
    (pairs.foldl (fun moves (old, new) => moves.set old new) moves)[old]? = some new := by
  induction pairs generalizing moves with
  | nil => cases member
  | cons pair rest ih =>
    rw [List.map_cons, List.nodup_cons] at distinct
    rw [List.foldl_cons]
    rcases List.mem_cons.mp member with rfl | later
    · rw [getElem?_foldl_set_of_not_mem _ distinct.1]
      simp [inside]
    · exact ih distinct.2 _ later (by simpa using inside)

theorem length_moves (order : List Nat) : (moves order).length = order.length := by
  simp [moves, length_foldl_set]

/-- Each place goes to where the order has it. -/
theorem getElem?_moves (perm : order.Perm (List.range order.length)) {i j : Nat}
    (there : order[j]? = some i) : (moves order)[i]? = some j := by
  have distinct : (order.zipIdx.map Prod.fst).Nodup := by
    simpa using perm.nodup_iff.mpr List.nodup_range
  have inside : i < order.length := by
    simpa using perm.mem_iff.mp (List.mem_of_getElem? there)
  exact getElem?_foldl_set distinct _ (List.mk_mem_zipIdx_iff_getElem?.mpr there) (by simpa using inside)

theorem perm_moves (perm : order.Perm (List.range order.length)) :
    (moves order).Perm (List.range order.length) := by
  have back : order.map ((moves order).getD · 0) = List.range order.length := by
    refine List.ext_getElem (by simp) fun j inside _ => ?_
    have bound : j < order.length := by simpa using inside
    simp [getElem?_moves perm (List.getElem?_eq_getElem bound)]
  have all : (List.range order.length).map ((moves order).getD · 0) = moves order := by
    refine List.ext_getElem (by simp [length_moves]) fun j _ inside => ?_
    simp [inside]
  rw [← all]
  exact (perm.map _).symm.trans (.of_eq back)

end

def ofNames (ending reserved : String) (names : List String) : Catalog :=
  let owners := EntryName.owners ending reserved names
  let listed := owners.map Prod.snd
  let order := orderOf listed
  { entries := order.map (listed.getD · "")
    places := owners.zipIdx.map fun ((u, _), i) => (u, (moves order).getD i 0)
    ordered := pairwise_orderOf listed
    whole := by
      have length : order.length = owners.length := by simp [order, listed, length_orderOf]
      have perm : order.Perm (List.range order.length) := by
        rw [length_orderOf]
        exact perm_orderOf listed
      have places : (owners.zipIdx.map fun ((u, _), i) => (u, (moves order).getD i 0)).map Prod.snd =
          moves order := by
        refine List.ext_getElem (by simp [length_moves, length]) fun j _ inside => ?_
        simp [inside]
      rw [places, List.length_map]
      exact perm_moves perm }

/-- The place of a unit's entry. -/
def place? (c : Catalog) (u : UnitId) : Option Nat :=
  (c.places.find? (·.1 == u)).map Prod.snd

def entryOf (c : Catalog) (u : UnitId) : Option String := (c.place? u).bind (c.entries[·]?)

end Catalog
end LayerCache
