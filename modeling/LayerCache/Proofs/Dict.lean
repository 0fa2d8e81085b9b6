import LayerCache.Dict
import Mathlib.Data.List.Induction
import Mathlib.Data.List.Nodup

/-! Dictionaries: what stands under which key, and the order of the keys. -/
namespace LayerCache.Dict

section

variable {κ ν : Type} [DecidableEq κ] {key other : κ} {value : ν} {pairs : List (κ × ν)}

theorem mem_of_findIn (found : findIn key pairs = some value) : (key, value) ∈ pairs := by
  induction pairs with
  | nil => cases found
  | cons pair rest ih =>
    simp only [findIn] at found
    split at found
    · rename_i same
      cases found
      simp [← same]
    · exact List.mem_cons_of_mem _ (ih found)

theorem findIn_of_mem (distinct : (pairs.map Prod.fst).Nodup) (member : (key, value) ∈ pairs) :
    findIn key pairs = some value := by
  induction pairs with
  | nil => cases member
  | cons pair rest ih =>
    rw [List.map_cons, List.nodup_cons] at distinct
    rcases List.mem_cons.mp member with rfl | later
    · simp [findIn]
    · have absent : pair.1 ≠ key := by
        rintro rfl
        exact distinct.1 (List.mem_map.mpr ⟨_, later, rfl⟩)
      simpa [findIn, absent] using ih distinct.2 later

variable [LT κ] [DecidableLT κ]

theorem mem_keys_insertIn :
    other ∈ (insertIn key value pairs).map Prod.fst ↔ other = key ∨ other ∈ pairs.map Prod.fst := by
  induction pairs with
  | nil => simp [insertIn]
  | cons pair rest ih =>
    simp only [insertIn]
    split
    · rename_i same
      simp [same]
    · split
      · simp
      · simp only [List.map_cons, List.mem_cons, ih]
        exact or_left_comm

theorem mem_insertIn {pair : κ × ν} (member : pair ∈ insertIn key value pairs) :
    pair = (key, value) ∨ pair ∈ pairs := by
  induction pairs with
  | nil => exact .inl (List.mem_singleton.mp member)
  | cons first rest ih =>
    simp only [insertIn] at member
    split at member
    · exact (List.mem_cons.mp member).imp_right (List.mem_cons_of_mem _)
    · split at member
      · exact List.mem_cons.mp member
      · rcases List.mem_cons.mp member with rfl | later
        · exact .inr (by simp)
        · exact (ih later).imp_right (List.mem_cons_of_mem _)

theorem sorted_insertIn (transitive : ∀ a b c : κ, a < b → b < c → a < c)
    (total : ∀ a b : κ, a ≠ b → ¬ a < b → b < a)
    (sorted : (pairs.map Prod.fst).Pairwise (· < ·)) :
    ((insertIn key value pairs).map Prod.fst).Pairwise (· < ·) := by
  induction pairs with
  | nil => simp [insertIn]
  | cons pair rest ih =>
    obtain ⟨first, more⟩ := List.pairwise_cons.mp sorted
    simp only [insertIn]
    split
    · rename_i same
      exact same ▸ sorted
    rename_i other
    split
    · rename_i less
      refine List.pairwise_cons.mpr ⟨?_, sorted⟩
      intro k member
      rcases List.mem_cons.mp member with rfl | later
      · exact less
      · exact transitive _ _ _ less (first k later)
    · rename_i above
      refine List.pairwise_cons.mpr ⟨?_, ih more⟩
      intro k member
      rcases mem_keys_insertIn.mp member with rfl | old
      · exact total _ _ (Ne.symm other) above
      · exact first k old

theorem insertIn_last (asymmetric : ∀ a b : κ, a < b → ¬ b < a)
    (above : ∀ k ∈ pairs.map Prod.fst, k < key) :
    insertIn key value pairs = pairs ++ [(key, value)] := by
  induction pairs with
  | nil => rfl
  | cons pair rest ih =>
    have less : pair.1 < key := above pair.1 (by simp)
    have other : pair.1 ≠ key := fun same => asymmetric _ _ less (same ▸ less)
    rw [insertIn, if_neg other, if_neg (asymmetric _ _ less),
      ih fun k member => above k (by simp [member])]
    rfl

/-- Pairs in the order of a dictionary are a dictionary. -/
theorem ofList_sorted (asymmetric : ∀ a b : κ, a < b → ¬ b < a)
    (sorted : (pairs.map Prod.fst).Pairwise (· < ·)) : ofList pairs = ⟨pairs⟩ := by
  induction pairs using List.reverseRecOn with
  | nil => rfl
  | append_singleton before pair ih =>
    rw [List.map_append, List.pairwise_append] at sorted
    obtain ⟨first, _, less⟩ := sorted
    have above : ∀ k ∈ before.map Prod.fst, k < pair.1 := fun k member => less k member _ (by simp)
    calc ofList (before ++ [pair])
      _ = (ofList before).insert pair.1 pair.2 := by simp [ofList]
      _ = ⟨before ++ [pair]⟩ := by rw [ih first, insert, insertIn_last asymmetric above]

end

section

variable {ν : Type} {m : Dict String ν} {key : String} {value : ν}

/-- The keys of a dictionary stand in order, each once. -/
def Sorted (m : Dict String ν) : Prop := m.keys.Pairwise (· < ·)

namespace Sorted

theorem empty : (Dict.empty : Dict String ν).Sorted := List.Pairwise.nil

theorem insert (sorted : m.Sorted) (key : String) (value : ν) : (m.insert key value).Sorted := by
  refine Dict.sorted_insertIn (fun _ _ _ => String.lt_trans) ?_ sorted
  intro a b other above
  exact Std.lt_of_le_of_ne (String.not_lt.mp above) other.symm

theorem erase (sorted : m.Sorted) (key : String) : (m.erase key).Sorted :=
  sorted.sublist (List.filter_sublist.map _)

theorem mem_keys (sorted : m.Sorted) : key ∈ m.keys ↔ ∃ value, m.find? key = some value := by
  have distinct : (m.pairs.map Prod.fst).Nodup := sorted.imp String.ne_of_lt
  constructor
  · intro member
    obtain ⟨⟨k, value⟩, inside, rfl⟩ := List.mem_map.mp member
    exact ⟨value, Dict.findIn_of_mem distinct inside⟩
  · rintro ⟨value, found⟩
    exact List.mem_map.mpr ⟨_, Dict.mem_of_findIn found, rfl⟩

theorem erase_of_missing (sorted : m.Sorted) (missing : m.find? key = none) : m.erase key = m := by
  have other : ∀ pair ∈ m.pairs, pair.1 ≠ key := by
    rintro ⟨k, value⟩ member rfl
    obtain ⟨content, found⟩ := sorted.mem_keys.mp (List.mem_map.mpr ⟨_, member, rfl⟩)
    rw [missing] at found
    cases found
  obtain ⟨pairs⟩ := m
  exact congrArg Dict.mk (List.filter_eq_self.mpr fun pair member => by simpa using other pair member)

theorem mem_pairs (sorted : m.Sorted) : (key, value) ∈ m.pairs ↔ m.find? key = some value :=
  ⟨Dict.findIn_of_mem (sorted.imp String.ne_of_lt), Dict.mem_of_findIn⟩

/-- Two dictionaries in which the same is found are the same. -/
theorem ext {n : Dict String ν} (sorted : m.Sorted) (other : n.Sorted)
    (same : ∀ key, n.find? key = m.find? key) : n = m := by
  have distinct : ∀ {o : Dict String ν}, o.Sorted → o.pairs.Nodup := fun sorted =>
    List.Nodup.of_map Prod.fst (sorted.imp String.ne_of_lt)
  have perm : n.pairs.Perm m.pairs :=
    (List.perm_ext_iff_of_nodup (distinct other) (distinct sorted)).mpr fun ⟨key, value⟩ => by
      rw [other.mem_pairs, sorted.mem_pairs, same]
  have apart : ∀ a b : String × ν, a ∈ n.pairs → b ∈ m.pairs → a.1 < b.1 → b.1 < a.1 → a = b :=
    fun a b _ _ less more => absurd less (String.lt_asymm more)
  have equal := perm.eq_of_pairwise apart (List.pairwise_map.mp other) (List.pairwise_map.mp sorted)
  obtain ⟨pairs⟩ := n
  exact congrArg Dict.mk equal

/-- A dictionary in which nothing is found is empty. -/
theorem eq_empty (sorted : m.Sorted) (missing : ∀ key, m.find? key = none) : m = .empty :=
  empty.ext sorted missing

end Sorted

theorem find?_insert (m : Dict String ν) (key other : String) (value : ν) :
    (m.insert key value).find? other = if key = other then some value else m.find? other := by
  split
  · rename_i same
    rw [same, find?_insert_self]
  · rename_i different
    exact find?_insert_of_ne m different value

theorem find?_erase (m : Dict String ν) (key other : String) :
    (m.erase key).find? other = if key = other then none else m.find? other := by
  split
  · rename_i same
    rw [same, find?_erase_self]
  · rename_i different
    exact find?_erase_of_ne m different

theorem find?_foldl_erase (m : Dict String ν) (names : List String) (key : String) :
    (names.foldl erase m).find? key = if key ∈ names then none else m.find? key := by
  induction names generalizing m with
  | nil => simp
  | cons name rest ih =>
    rw [List.foldl_cons, ih]
    by_cases later : key ∈ rest
    · simp [later]
    by_cases same : name = key
    · simp [same]
    · simp [later, Ne.symm same, find?_erase_of_ne m same]

theorem Sorted.foldl_erase {m : Dict String ν} (sorted : m.Sorted) (names : List String) :
    (names.foldl Dict.erase m).Sorted := by
  induction names generalizing m with
  | nil => exact sorted
  | cons name rest ih => exact ih (sorted.erase name)

end

end LayerCache.Dict
