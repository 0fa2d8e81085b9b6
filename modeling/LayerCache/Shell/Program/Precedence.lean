import LayerCache.Shell.Program.Options

/-! Items put in an order in which each comes before those it was told to come before. -/
namespace LayerCache.Program

namespace Precedence

/-- An item by its name: how many come before it, and those that it comes before, the latest told
first. -/
structure Item where
  waits : Nat := 0
  followers : List String := []

/-- The items that are left, by their names. -/
abbrev Items := List (String × Item)

def Items.change (items : Items) (name : String) (f : Item → Item) : Items :=
  items.map fun (n, item) => if n = name then (n, f item) else (n, item)

def Items.waits (items : Items) (name : String) : Nat := ((items.lookup name).map Item.waits).getD 0

def Items.followers (items : Items) (name : String) : List String :=
  ((items.lookup name).map Item.followers).getD []

def Items.release (items : Items) (name : String) : Items :=
  items.change name fun item => { item with waits := item.waits - 1 }

def Items.relate (items : Items) (before after : String) : Items :=
  if before = after then items
  else (items.change after fun item => { item with waits := item.waits + 1 }).change before
    fun item => { item with followers := after :: item.followers }

def pairs : List String → List (String × String)
  | before :: after :: rest => (before, after) :: pairs rest
  | _ => []

def ofWords (words : List String) : Items :=
  let names := words.mergeSort.eraseDups
  (pairs words).foldl (fun items (before, after) => items.relate before after)
    (names.map fun name => (name, {}))

/-- Names that no longer wait when one comes, in the order in which they are told. -/
def released (items : Items) : List String → Items × List String
  | [] => (items, [])
  | name :: rest =>
    let items := items.release name
    let (later, names) := released items rest
    (later, if items.waits name = 0 then name :: names else names)

/-- Takes items off a queue until it is empty. -/
def drain : Nat → Items → List String → List String → Items × List String
  | 0, items, _, done => (items, done)
  | _, items, [], done => (items, done)
  | fuel + 1, items, name :: queue, done =>
    let (items, names) := released items (items.followers name)
    drain fuel (items.filter fun (n, _) => n != name) (queue ++ names) (name :: done)

/-- One look at the items in their order. A chain of items, each before the next, grows at its head
until it meets itself; then that loop is given, and the relation that closed it is dropped. -/
def look : Items → List String → Items → Except (Items × List String) (List String)
  | _, chain, [] => .ok chain
  | items, chain, (name, item) :: rest =>
    if item.waits = 0 then look items chain rest
    else match chain with
      | [] => look items [name] rest
      | head :: _ =>
        if !item.followers.contains head then look items chain rest
        else if chain.dropLast.contains name then
          let loop := chain.takeWhile (· != name) ++ [name]
          let items := (items.change name fun item =>
            { item with followers := item.followers.erase head }).release head
          .error (items, loop)
        else look items (name :: chain) rest

def breakLoop : Nat → Items → List String → Items × List String
  | 0, items, _ => (items, [])
  | fuel + 1, items, chain => match look items chain items with
    | .ok chain => breakLoop fuel items chain
    | .error found => found

/-- All items in their order, with the loops found on the way: names, or a loop. -/
def order : Nat → Items → List (String ⊕ List String)
  | 0, _ => []
  | fuel + 1, items =>
    if items.isEmpty then []
    else
      let free := (items.filter fun (_, item) => item.waits = 0).map Prod.fst
      let (left, done) := drain (items.length + 1) items free []
      let names := done.reverse.map Sum.inl
      if left.isEmpty then names
      else
        let (freed, loop) := breakLoop (left.length * left.length + 2) left []
        names ++ .inr loop :: order fuel freed

end Precedence

def sortByPrecedence (p : Process) : Work Unit :=
  withOptions p {} fun o =>
    match o.operands with
    | _ :: extra :: _ => askForHelp p ("extra operand " ++ quotedFile extra)
    | operands => do
      let name := operands.headD "-"
      match ← readFile name with
      | .error fault =>
        complain p (if name = "-" || fault = .isFolder then
          fileName name ++ ": read error: " ++ fault.reason else because name fault.reason)
      | .ok text =>
        let words := wordsOf text
        if words.length % 2 = 1 then
          complain p (fileName name ++ ": input contains an odd number of tokens")
        else
          (Precedence.order (words.length * words.length + 2) (Precedence.ofWords words)).forM fun
            | .inl name => printLine name.toList
            | .inr loop => do
              complain p (fileName name ++ ": input contains a loop:")
              loop.forM (complain p ·)

end LayerCache.Program
