import LayerCache.Toml.Basic

/-! A document under construction. A table is implicit while only longer headers or dotted keys
have named it; a dotted one belongs to the keys that made it. What has been defined once cannot be
defined or opened again. -/
namespace LayerCache.Toml

inductive Item where
  | value (value : Toml)
  | table (implicit dotted : Bool) (fields : List (String × Item))
  /-- The tables of an array of tables, the newest first. -/
  | rows (rows : List (List (String × Item)))

abbrev Items := List (String × Item)

def lookup (key : String) : Items → Option Item
  | [] => none
  | (k, item) :: rest => if k = key then some item else lookup key rest

/-- Replaces the item of a key, or adds it at the end. -/
def put (key : String) (item : Item) : Items → Items
  | [] => [(key, item)]
  | (k, old) :: rest => if k = key then (key, item) :: rest else (k, old) :: put key item rest

/-- Edits the table that a path of keys leads to, making the tables that are missing on the way.
`edit` is told whether the table it gets is dotted. -/
def within (dotted : Bool) (edit : Bool → Items → Option Items) :
    List String → Bool → Items → Option Items
  | [], itself, items => edit itself items
  | key :: path, _, items =>
    match lookup key items with
    | none => do
      let inner ← within dotted edit path dotted []
      return put key (.table true dotted inner) items
    | some (.value _) => none
    | some (.table implicit own inner) =>
      if dotted && !implicit then none
      else do
        let inner ← within dotted edit path own inner
        return put key (.table implicit own inner) items
    | some (.rows []) => none
    | some (.rows (row :: rows)) => do
      let row ← within dotted edit path false row
      return put key (.rows (row :: rows)) items

/-- A key that is new where its dotted path leads; the path may not enter tables of headers. -/
def define (path : List String) (key : String) (value : Toml) (items : Items) : Option Items :=
  within true (fun dotted items =>
    if dotted == path.isEmpty || (lookup key items).isSome then none
    else some (put key (.value value) items)) path false items

def drop (key : String) (items : Items) : Items := items.filter fun (k, _) => k != key

/-- A header opens a table that is new or implicit; either is the last one from then on. -/
def openTable (key : String) (items : Items) : Option Items :=
  match lookup key items with
  | none => some (put key (.table false false []) items)
  | some (.table true false inner) => some (put key (.table false false inner) (drop key items))
  | some _ => none

def openRow (key : String) (items : Items) : Option Items :=
  match lookup key items with
  | none => some (put key (.rows [[]]) items)
  | some (.rows rows) => some (put key (.rows ([] :: rows)) items)
  | some _ => none

mutual

def Item.close : Item → Toml
  | .value value => value
  | .table _ _ fields => .table (closeItems fields)
  | .rows rows => .array (closeRows rows).reverse

def closeItems : List (String × Item) → Fields
  | [] => []
  | (key, item) :: rest => (key, item.close) :: closeItems rest

def closeRows : List (List (String × Item)) → List Toml
  | [] => []
  | row :: rows => .table (closeItems row) :: closeRows rows

end

end LayerCache.Toml
