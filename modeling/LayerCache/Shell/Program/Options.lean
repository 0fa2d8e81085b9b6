import LayerCache.Shell.Program.Basic

/-! Options of programs: letters behind a dash, some with a value, and long names for them, which
may be cut short. -/
namespace LayerCache.Program

/-- A long name stands for a letter; behind the name, `=` asks for a value and `?` allows one. -/
structure Usage where
  bare : String := ""
  valued : String := ""
  long : List (String × Char) := []
  /-- Options may stand behind operands. -/
  anywhere : Bool := true
  /-- Letters whose value, if there is one, follows at once. -/
  loose : String := ""

structure Options where
  given : List (Char × String) := []
  operands : List String := []

namespace Options

def has (o : Options) (c : Char) : Bool := o.given.any fun (d, _) => d = c

/-- The last value given to a letter. -/
def value? (o : Options) (c : Char) : Option String := o.given.reverse.lookup c

def values (o : Options) (c : Char) : List String :=
  o.given.filterMap fun (d, v) => if d = c then some v else none

/-- The last given of some letters. -/
def last? (o : Options) (letters : String) : Option (Char × String) :=
  o.given.reverse.find? fun (c, _) => letters.toList.contains c

def hasAny (o : Options) (letters : String) : Bool := (o.last? letters).isSome

def give (c : Char) (value : String) (o : Options) : Options :=
  { o with given := (c, value) :: o.given }

def operand (a : String) (o : Options) : Options := { o with operands := a :: o.operands }

end Options

/-- What one argument gives, and the letter that waits for the next argument. -/
abbrev Given := List (Char × String) × Option (Char × String)

namespace Usage

/-- Letters of one argument. -/
def letters (u : Usage) : List Char → Except String Given
  | [] => .ok ([], none)
  | c :: rest =>
    if u.valued.toList.contains c then
      .ok (if rest.isEmpty then ([], some (c, "option requires an argument -- '" ++
        String.singleton c ++ "'")) else ([(c, String.ofList rest)], none))
    else if u.loose.toList.contains c then .ok ([(c, String.ofList rest)], none)
    else if u.bare.toList.contains c then do
      let (others, waiting) ← letters u rest
      return ((c, "") :: others, waiting)
    else .error ("invalid option -- '" ++ String.singleton c ++ "'")

/-- A long name without its mark, and the mark. -/
def bareName (name : String) : String × Option Char :=
  match name.toList.getLast? with
  | some '=' => (String.ofList name.toList.dropLast, some '=')
  | some '?' => (String.ofList name.toList.dropLast, some '?')
  | _ => (name, none)

/-- Long names that a text may be short for. -/
def candidates (u : Usage) (name : String) : List (String × Option Char × Char) :=
  let all := u.long.map fun (long, c) => ((bareName long).1, (bareName long).2, c)
  match all.find? fun (long, _) => long = name with
  | some found => [found]
  | none => all.filter fun (long, _) => Text.startsWith long name

def longName (u : Usage) (text : List Char) : Except String Given :=
  let name := text.takeWhile (· != '=')
  let value := text.drop name.length
  let shown := "option '--" ++ String.ofList text ++ "'"
  match u.candidates (String.ofList name) with
  | [] => .error ("unrecognized " ++ shown)
  | (long, mark, c) :: others =>
    if others.any fun (_, m, d) => (m, d) != (mark, c) then
      .error (shown ++ " is ambiguous; possibilities:" ++
        String.join (((long, mark, c) :: others).map fun (long, _) => " '--" ++ long ++ "'"))
    else
      let shown := "option '--" ++ long ++ "'"
      match mark, value with
      | none, _ :: _ => .error (shown ++ " doesn't allow an argument")
      | some '=', [] => .ok ([], some (c, shown ++ " requires an argument"))
      | _, value => .ok ([(c, String.ofList (value.drop 1))], none)

def split (u : Usage) (waiting : Option (Char × String)) : List String → Except String Options
  | [] => match waiting with
    | none => .ok {}
    | some (_, flaw) => .error flaw
  | a :: rest => match waiting, a.toList with
    | some (c, _), _ => (split u none rest).map (.give c a)
    | none, '-' :: '-' :: [] => .ok { operands := rest }
    | none, '-' :: '-' :: text => do
      let (given, waiting) ← u.longName text
      return given.foldr (fun (c, v) => .give c v) (← split u waiting rest)
    | none, '-' :: c :: text => do
      let (given, waiting) ← u.letters (c :: text)
      return given.foldr (fun (c, v) => .give c v) (← split u waiting rest)
    | none, _ =>
      if u.anywhere then (split u none rest).map (.operand a) else .ok { operands := a :: rest }

end Usage

def askForHelp (p : Process) (text : String) (status : Nat := 1) : Work Unit :=
  complain p (text ++ "\nTry '" ++ p.name ++ " --help' for more information.") status

/-- What a word chooses from a table, in which words in one row mean the same. A word may be cut
short as long as it means one row only. -/
def choose? {α : Type} (table : List (List String × α)) (word : String) : Option α :=
  let whole := table.find? fun (words, _) => words.contains word
  let parts := table.filter fun (words, _) => words.any (Text.startsWith · word)
  match whole, parts with
  | some (_, a), _ => some a
  | none, [(_, a)] => some a
  | none, _ => none

/-- Works with the choice that the value of an option makes. -/
def withChoice {α : Type} (p : Process) (option word : String) (table : List (List String × α))
    (work : α → Work Unit) (status : Nat := 1) : Work Unit :=
  match choose? table word with
  | some a => work a
  | none =>
    let several := table.any fun (words, _) => words.any (Text.startsWith · word)
    let row (words : List String) := "\n  - " ++ Text.join ", " (words.map fun w => "'" ++ w ++ "'")
    askForHelp p ((if several then "ambiguous" else "invalid") ++ " argument " ++ quoted word ++
      " for '--" ++ option ++ "'\nValid arguments are:" ++
      String.join (table.map fun (words, _) => row words)) status

/-- Works with the options of a process, unless they are wrong. -/
def withOptions (p : Process) (u : Usage) (work : Options → Work Unit) (status : Nat := 1) :
    Work Unit :=
  match u.split none p.args with
  | .ok o => work o
  | .error text => askForHelp p text status

end LayerCache.Program
