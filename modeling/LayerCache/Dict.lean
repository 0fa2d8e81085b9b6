/-! Finite maps kept as pairs in increasing key order, so equal maps are equal values and a
traversal is in key order. -/
namespace LayerCache

structure Dict (κ : Type) (ν : Type) where
  pairs : List (κ × ν)
  deriving DecidableEq

namespace Dict

variable {κ ν : Type}

def empty : Dict κ ν := ⟨[]⟩

instance : EmptyCollection (Dict κ ν) := ⟨empty⟩

instance : Inhabited (Dict κ ν) := ⟨empty⟩

section

variable [DecidableEq κ]

def findIn (key : κ) : List (κ × ν) → Option ν
  | [] => none
  | (k, v) :: rest => if k = key then some v else findIn key rest

def find? (d : Dict κ ν) (key : κ) : Option ν := findIn key d.pairs

def contains (d : Dict κ ν) (key : κ) : Bool := (d.find? key).isSome

def erase (d : Dict κ ν) (key : κ) : Dict κ ν := ⟨d.pairs.filter fun (k, _) => decide (k ≠ key)⟩

@[simp] theorem find?_empty (key : κ) : (empty : Dict κ ν).find? key = none := rfl

@[simp] theorem find?_erase_self (d : Dict κ ν) (key : κ) : (d.erase key).find? key = none := by
  simp only [find?, erase]
  induction d.pairs with
  | nil => rfl
  | cons pair rest ih =>
    by_cases h : pair.1 = key
    · simpa [List.filter_cons, h] using ih
    · simpa [List.filter_cons, h, findIn] using ih

theorem find?_erase_of_ne (d : Dict κ ν) {key other : κ} (h : key ≠ other) :
    (d.erase key).find? other = d.find? other := by
  simp only [find?, erase]
  induction d.pairs with
  | nil => rfl
  | cons pair rest ih =>
    by_cases hk : pair.1 = key
    · have : pair.1 ≠ other := by rw [hk]; exact h
      simp_all [findIn]
    · by_cases ho : pair.1 = other <;> simp_all [findIn]

end

section

variable [LT κ] [DecidableLT κ] [DecidableEq κ]

def insertIn (key : κ) (value : ν) : List (κ × ν) → List (κ × ν)
  | [] => [(key, value)]
  | (k, v) :: rest =>
    if k = key then (key, value) :: rest
    else if key < k then (key, value) :: (k, v) :: rest
    else (k, v) :: insertIn key value rest

/-- Sets a key, replacing what it held. -/
def insert (d : Dict κ ν) (key : κ) (value : ν) : Dict κ ν := ⟨insertIn key value d.pairs⟩

def keys (d : Dict κ ν) : List κ := d.pairs.map Prod.fst

def size (d : Dict κ ν) : Nat := d.pairs.length

/-- Later pairs win. -/
def ofList (pairs : List (κ × ν)) : Dict κ ν :=
  pairs.foldl (fun d (k, v) => d.insert k v) empty

@[simp] theorem findIn_insertIn_self (key : κ) (value : ν) (pairs : List (κ × ν)) :
    findIn key (insertIn key value pairs) = some value := by
  induction pairs with
  | nil => simp [insertIn, findIn]
  | cons pair rest ih =>
    simp only [insertIn]
    split
    · simp [findIn]
    · split
      · simp [findIn]
      · simp_all [findIn]

theorem findIn_insertIn_of_ne {key other : κ} (h : key ≠ other) (value : ν)
    (pairs : List (κ × ν)) : findIn other (insertIn key value pairs) = findIn other pairs := by
  induction pairs with
  | nil => simp [insertIn, findIn, h]
  | cons pair rest ih =>
    simp only [insertIn]
    split
    · simp_all [findIn]
    · split
      · simp [findIn, h]
      · simp_all [findIn]

@[simp] theorem find?_insert_self (d : Dict κ ν) (key : κ) (value : ν) :
    (d.insert key value).find? key = some value := findIn_insertIn_self ..

theorem find?_insert_of_ne (d : Dict κ ν) {key other : κ} (h : key ≠ other) (value : ν) :
    (d.insert key value).find? other = d.find? other := findIn_insertIn_of_ne h ..

end

end Dict
end LayerCache
