import LayerCache.Shell.Rules.Functions
import LayerCache.Shell.Rules.Pattern
import LayerCache.Shell.Rules.Reader

/-! Matches in a text exchanged for other text. -/
namespace LayerCache.Rules

/-- What takes the place of a match: text, and the match itself. -/
inductive Substitute where
  | text (cs : List Char)
  | whole
  deriving DecidableEq, Repr

namespace Substitute

/-- An ampersand stands for the match. Behind backslashes, two of which make one, it is plain. -/
def ofText : Nat → List Char → List Substitute
  | 0, _ => []
  | fuel + 1, cs => match cs with
    | [] => []
    | '&' :: rest => .whole :: ofText fuel rest
    | '\\' :: _ =>
      let slashes := cs.takeWhile (· = '\\')
      let n := slashes.length
      match cs.drop n with
      | '&' :: rest =>
        .text (slashes.take (n / 2)) ::
          (if n % 2 = 0 then .whole else .text ['&']) :: ofText fuel rest
      | rest => .text slashes :: ofText fuel rest
    | c :: rest => .text [c] :: ofText fuel rest

def apply (parts : List Substitute) (found : List Char) : List Char :=
  parts.flatMap fun
    | .text cs => cs
    | .whole => found

end Substitute

namespace Exchange

/-- The text with its first match exchanged, and how many there were. -/
def first (r : Regex) (parts : List Substitute) (cs : List Char) : List Char × Nat :=
  let t : Subject := { chars := cs.toArray }
  match Regex.find? t r 0 with
  | some m =>
    (t.slice 0 m.start ++ Substitute.apply parts (m.text t 0) ++ t.slice m.stop cs.length, 1)
  | none => (cs, 0)

/-- All matches from a place on exchanged. Right behind a match nothing is no match. -/
def allFrom (t : Subject) (r : Regex) (parts : List Substitute) :
    Nat → Nat → Bool → List (List Char) → Nat → List Char × Nat
  | 0, _, _, done, count => (done.reverse.flatten, count)
  | fuel + 1, start, behind, done, count => match Regex.find? t r start with
    | none => ((t.slice start t.chars.size :: done).reverse.flatten, count)
    | some m =>
      let before := t.slice start m.start
      if m.start = m.stop then
        let next := t.slice m.stop (m.stop + 1)
        let (done, count) :=
          if behind && m.start = start then (next :: done, count)
          else (next :: Substitute.apply parts [] :: before :: done, count + 1)
        if t.chars.size ≤ m.stop then (done.reverse.flatten, count)
        else allFrom t r parts fuel (m.stop + 1) false done count
      else
        let done := Substitute.apply parts (m.text t 0) :: before :: done
        allFrom t r parts fuel m.stop true done (count + 1)

def all (r : Regex) (parts : List Substitute) (cs : List Char) : List Char × Nat :=
  allFrom { chars := cs.toArray } r parts (2 * cs.length + 2) 0 false [] 0

end Exchange
end LayerCache.Rules

/-! Scripts of rules run: expressions have values, and statements go on or stop what they are in. -/
namespace LayerCache.Rules
namespace Run

open Act

/-- What comes after a statement. -/
inductive Flow where
  | on
  | next
  | nextFile
  | broken
  | continued
  | returned (v : Value)

def mostRounds : Nat := 1000000000000

/-- Rounds as long as a test holds, with a step behind each. -/
def goRound (test : Act Bool) (body : Act Flow) (step : Act Unit) : Nat → Act Flow
  | 0 => return .on
  | rounds + 1 => do
    if ← test then
      match ← body with
      | .on | .continued =>
        step
        goRound test body step rounds
      | .broken => return .on
      | flow => return flow
    else return .on

/-- Goes through a list as long as rounds may follow. -/
def goThrough (work : α → Act Flow) : List α → Act Flow
  | [] => return .on
  | x :: xs => do
    match ← work x with
    | .on | .continued => goThrough work xs
    | .broken => return .on
    | flow => return flow

def goOn (work : α → Act Flow) : List α → Act Flow
  | [] => return .on
  | x :: xs => do
    match ← work x with
    | .on => goOn work xs
    | flow => return flow

/-- Whole numbers up to this are keys by themselves. -/
def largestCount : Nat := 2147483647

def keyOf (values : List Value) : Act Key := do
  match values with
  | [.number x] => match (Figure.toInt? x).filter fun n => n.natAbs < largestCount with
    | some n => return .count n
    | none => return .text (← asText (.number x))
  | [v] => return .text (← asText v)
  | values => return .text (List.intercalate (← textOf "SUBSEP") (← values.mapM asText))

/-- Whether a value comes before another one, or with it. Only two numbers compare as such. -/
def order (a b : Value) : Act Ordering := do
  match a.number?, b.number? with
  | some x, some y => return if x < y then .lt else if y < x then .gt else .eq
  | _, _ =>
    let (x, y) := (← asText a, ← asText b)
    return if x < y then .lt else if y < x then .gt else .eq

def Relation.holds : Relation → Ordering → Bool
  | .less, o => o = .lt
  | .lessOrEqual, o => o != .gt
  | .equal, o => o = .eq
  | .notEqual, o => o != .eq
  | .greater, o => o = .gt
  | .greaterOrEqual, o => o != .lt

def calculate (sign : Sign) (x y : Float) : Float :=
  match sign with
  | .plus => x + y
  | .minus => x - y
  | .times => x * y
  | .divide => x / y
  | .remainder => Figure.remainder x y
  | .power => Float.pow x y

def matchesAt (r : Regex) (cs : List Char) : Option Regex.Match :=
  Regex.find? { chars := cs.toArray } r 0

/-- Where a value is kept. -/
inductive Place where
  | name (n : String)
  | cell (table : Nat) (key : Key)
  | field (i : Nat)

def Place.value : Place → Act Value
  | .name n => return (← slot n).value
  | .cell i key => withTable i (·.get key)
  | .field i => Act.field i

def Place.store (value : Value) : Place → Act Unit
  | .name n => setVariable n value
  | .cell i key => changeTable i (·.insert key value)
  | .field i => setField i value

def fieldPlace (v : Value) : Act Nat := do
  let i := Figure.clamp v.toFloat
  if i < 0 then mistake ("negative field index $" ++ toString i) else return i.toNat

/-- Puts a line where it was asked for, or into the record. -/
def keepLine (goal : Option Place) (line : List Char) : Act Unit :=
  match goal with
  | some place => place.store (.given line)
  | none => setRecord line

/-- What a routine is given for a name that stands for nothing yet may become a table. -/
def argumentSlot (n : String) : Act Slot := do
  let s ← slot n
  if s.value matches .unset then
    let i ← tableOf n
    return { s with table := some i }
  else return s

mutual

def eval (s : Setting) (fuel : Nat) (e : Expr) : Act Value :=
  match fuel with
  | 0 => throw .crashed
  | fuel + 1 => do
    match e with
    | .number x => return .number x
    | .text cs => return .text cs
    | .regex r => return .ofBool (matchesAt r (← get).record).isSome
    | .name n => return (← slot n).value
    | .element .. | .field _ => do (← locate s fuel e).value
    | .assign goal value =>
      let place ← locate s fuel goal
      let value ← eval s fuel value
      place.store value
      return value
    | .change sign goal value =>
      let place ← locate s fuel goal
      let y := (← eval s fuel value).toFloat
      let value := Value.number (calculate sign (← place.value).toFloat y)
      place.store value
      return value
    | .step sign before goal =>
      let place ← locate s fuel goal
      let x := (← place.value).toFloat
      let y := calculate sign x 1.0
      place.store (.number y)
      return .number (if before then y else x)
    | .choose test first second =>
      if (← eval s fuel test).holds then eval s fuel first else eval s fuel second
    | .or a b =>
      if (← eval s fuel a).holds then return .ofBool true
      return .ofBool (← eval s fuel b).holds
    | .and a b =>
      if !(← eval s fuel a).holds then return .ofBool false
      return .ofBool (← eval s fuel b).holds
    | .within index table =>
      let key ← keyOf (← evalAll s fuel index)
      let i ← tableOf table
      return .ofBool (← withTable i (·.contains key))
    | .matches_ negated text pattern =>
      let cs ← asText (← eval s fuel text)
      let r ← patternFrom s fuel pattern
      return .ofBool ((matchesAt r cs).isSome != negated)
    | .compare r a b =>
      let x ← eval s fuel a
      let y ← holding 1 (eval s fuel b)
      return .ofBool (Relation.holds r (← order x y))
    | .join a b =>
      let x ← asText (← eval s fuel a)
      let y ← asText (← holding 1 (eval s fuel b))
      return .text (x ++ y)
    | .calculate sign a b =>
      let x := (← eval s fuel a).toFloat
      let y := (← holding 1 (eval s fuel b)).toFloat
      return .number (calculate sign x y)
    | .not a => return .ofBool !(← eval s fuel a).holds
    | .negate a => return .number (-(← eval s fuel a).toFloat)
    | .affirm a => return .number (← eval s fuel a).toFloat
    | .known f args => callKnown s fuel f args
    | .call f args => call s fuel f args
    | .getLine source name goal => getLine s fuel source name goal
    | .group parts => return ((← evalAll s fuel parts).getLastD .unset)

def evalAll (s : Setting) (fuel : Nat) (es : List Expr) : Act (List Value) :=
  match fuel with
  | 0 => throw .crashed
  | fuel + 1 => do
    match es with
    | [] => return []
    | e :: es =>
      let value ← eval s fuel e
      return value :: (← evalAll s fuel es)

def patternFrom (s : Setting) (fuel : Nat) (e : Expr) : Act Regex :=
  match fuel with
  | 0 => throw .crashed
  | fuel + 1 => do
    match e with
    | .regex r => return r
    | e => patternOf (← asText (← eval s fuel e))

def locate (s : Setting) (fuel : Nat) (e : Expr) : Act Place :=
  match fuel with
  | 0 => throw .crashed
  | fuel + 1 => do
    match e with
    | .element table index =>
      let key ← keyOf (← evalAll s fuel index)
      let i ← tableOf table
      let _ ← withTable i (·.get key)
      return .cell i key
    | .field place => return .field (← fieldPlace (← eval s fuel place))
    | .name n => return .name n
    | _ => return .field 0

def getLine (s : Setting) (fuel : Nat) (source : From) (name goal : Option Expr) : Act Value :=
  match fuel with
  | 0 => throw .crashed
  | fuel + 1 => do
    let name ← match name with
      | some e => asText (← eval s fuel e)
      | none => pure []
    let place ← goal.mapM (locate s fuel)
    let line? ← if source = .records then some <$> nextRecord mostRounds
      else takeFrom s (source = .command) (String.ofList name)
    match line? with
    | none => return .number (-1.0)
    | some none => return .number 0.0
    | some (some line) =>
      keepLine place line
      return .number 1.0

def callKnown (s : Setting) (fuel : Nat) (f : Known) (args : List Expr) : Act Value :=
  match fuel with
  | 0 => throw .crashed
  | fuel + 1 => do
    match f, args with
    | .length, [] => return .ofNat (← get).record.length
    | .length, [.name n] =>
      let slot ← slot n
      match slot.value, slot.table with
      | .unset, some i => return .ofNat (← withTable i fun t => (t.size, t))
      | v, _ => return .ofNat (← asText v).length
    | .split, text :: .name table :: rest =>
      let cs ← asText (← eval s fuel text)
      let d ← match rest with
        | [] => dividerOf (← textOf "FS")
        | .regex r :: _ => pure (.pattern r)
        | e :: _ => dividerOf (← asText (← eval s fuel e))
      let parts := d.split cs
      let i ← tableOf table
      changeTable i fun _ => .ofList (parts.zipIdx.map fun (part, k) =>
        (.count (k + 1 : Nat), .given part))
      return .ofNat parts.length
    | .matching, [text, pattern] =>
      let cs ← asText (← eval s fuel text)
      let r ← patternFrom s fuel pattern
      let (start, length) : Nat × Int := match matchesAt r cs with
        | some m => (m.start + 1, (m.stop - m.start : Nat))
        | none => (0, -1)
      setGlobal "RSTART" (.ofNat start)
      setGlobal "RLENGTH" (.number (Figure.ofInt length))
      return .ofNat start
    | .sub, pattern :: by_ :: rest => exchange s fuel false pattern by_ (rest.headD (.field (.number 0.0)))
    | .gsub, pattern :: by_ :: rest => exchange s fuel true pattern by_ (rest.headD (.field (.number 0.0)))
    | .sprintf, form :: args =>
      let form ← asText (← eval s fuel form)
      let values ← evalAll s fuel args
      let (text, flaw) := Format.fill (← Act.form) (form.length + 1) 0 form values
      flaw.forM fun flaw => mistake (flaw.message "sprintf" form)
      return .text text.flatten
    | f, args => Functions.apply s f (← evalAll s fuel args)

/-- Exchanges matches in a place for other text. -/
def exchange (s : Setting) (fuel : Nat) (isAll : Bool) (pattern by_ goal : Expr) : Act Value :=
  match fuel with
  | 0 => throw .crashed
  | fuel + 1 => do
    let r ← patternFrom s fuel pattern
    let text ← asText (← eval s fuel by_)
    let parts := Substitute.ofText (text.length + 1) text
    let place ← locate s fuel goal
    let cs ← asText (← place.value)
    let (changed, count) := if isAll then Exchange.all r parts cs else Exchange.first r parts cs
    if 0 < count then place.store (.text changed)
    return .ofNat count

def arguments (s : Setting) (fuel : Nat) (args : List Expr) : Act (List Slot) :=
  match fuel with
  | 0 => throw .crashed
  | fuel + 1 => do
    match args with
    | [] => return []
    | .name n :: args =>
      let slot ← argumentSlot n
      return slot :: (← arguments s fuel args)
    | e :: args =>
      let value ← eval s fuel e
      return { value } :: (← arguments s fuel args)

def call (s : Setting) (fuel : Nat) (f : String) (args : List Expr) : Act Value :=
  match fuel with
  | 0 => throw .crashed
  | fuel + 1 => do
    match s.script.routines.lookup f with
    | none => return .unset
    | some routine =>
      let slots ← arguments s fuel args
      let before := (← get).locals
      let pairs := routine.parameters.zipIdx.map fun (n, i) => (n, (slots[i]?).getD {})
      modify fun m => { m with
        locals := some (pairs.foldl (fun d (n, slot) => d.insert n slot) .empty) }
      let flow ← holding routine.parameters.length do
        if mostHeld < (← get).held then fail "program limit exceeded: eval stack size=1024"
        perform s fuel routine.body
      modify fun m => { m with locals := before }
      match flow with
      | .returned value => return value
      | _ => return .unset

def targetOf (s : Setting) (fuel : Nat) (goal : Option (Target × Expr)) :
    Act (Option (Target × String)) :=
  match fuel with
  | 0 => throw .crashed
  | fuel + 1 => do
    match goal with
    | none => return none
    | some (target, e) => return some (target, String.ofList (← asText (← eval s fuel e)))

def perform (s : Setting) (fuel : Nat) (statement : Statement) : Act Flow :=
  match fuel with
  | 0 => throw .crashed
  | fuel + 1 => do
    match statement with
    | .block parts => goOn (perform s fuel) parts
    | .expr e =>
      let _ ← eval s fuel e
      return .on
    | .print args goal =>
      let values ← evalAll s fuel args
      let goal ← targetOf s fuel goal
      let form := (← global "OFMT").toList []
      let record := (← get).record
      let texts := if args.isEmpty then [record] else values.map (·.toList form)
      let text := List.intercalate (← textOf "OFS") texts ++ (← textOf "ORS")
      send goal text
      return .on
    | .printf args goal =>
      let values ← evalAll s fuel args
      let goal ← targetOf s fuel goal
      let form ← asText (values.headD .unset)
      let (text, flaw) :=
        Format.fill (← Act.form) (form.length + 1) 0 form (values.drop 1)
      send goal text.flatten
      flaw.forM fun flaw => mistake (flaw.message "printf" form)
      return .on
    | .branch test yes no =>
      if (← eval s fuel test).holds then perform s fuel yes
      else match no with
        | some no => perform s fuel no
        | none => return .on
    | .while test body =>
      goRound (do return (← eval s fuel test).holds) (perform s fuel body) (pure ()) mostRounds
    | .doWhile body test =>
      let test : Act Bool := do return (← eval s fuel test).holds
      match ← perform s fuel body with
      | .on | .continued => goRound test (perform s fuel body) (pure ()) mostRounds
      | .broken => return .on
      | flow => return flow
    | .for start test step body =>
      start.forM fun e => do
        let _ ← eval s fuel e
      let test : Act Bool := match test with
        | some e => do return (← eval s fuel e).holds
        | none => pure true
      let step : Act Unit := step.forM fun e => do
        let _ ← eval s fuel e
      goRound test (perform s fuel body) step mostRounds
    | .forEach name table body =>
      let i ← tableOf table
      let keys ← withTable i Table.keys
      goThrough (fun key => do
        setVariable name (.text key)
        perform s fuel body) keys
    | .next => return .next
    | .nextFile => return .nextFile
    | .exit status =>
      status.forM fun e => do
        let n := Figure.clamp (← eval s fuel e).toFloat
        modify fun m => { m with status := some (n.emod 256).toNat }
      throw .exit
    | .return value => match value with
      | some e => return .returned (← eval s fuel e)
      | none => return .returned .unset
    | .break => return .broken
    | .continue => return .continued
    | .delete table index =>
      let i ← tableOf table
      match index with
      | none => changeTable i fun _ => {}
      | some index =>
        let key ← keyOf (← evalAll s fuel index)
        changeTable i (·.erase key)
      return .on

end

/-- How deep calls may lie within each other. -/
def deepest : Nat := 250000

/-- Whether a rule is for the current record. -/
def picks (s : Setting) (i : Nat) : Pick → Act Bool
  | .always => return true
  | .matching e => return (← eval s deepest e).holds
  | .between first last => do
    let isOpen := (← get).between.contains i
    if isOpen || (← eval s deepest first).holds then
      let others := (← get).between.filter (· != i)
      let ends := (← eval s deepest last).holds
      modify fun m => { m with between := if ends then others else i :: others }
      return true
    else return false

def rule (s : Setting) (r : (Pick × Option Statement) × Nat) : Act Flow := do
  let ((pick, body), i) := r
  if !(← picks s i pick) then return .on
  match body with
  | some body => perform s deepest body
  | none =>
    send none ((← get).record ++ (← textOf "ORS"))
    return .on

/-- Every record meets all rules. -/
def records (s : Setting) : Nat → Act Unit
  | 0 => return
  | rounds + 1 => do
    match ← nextRecord mostRounds with
    | none => return
    | some record =>
      setRecord record
      match ← goOn (rule s) s.script.rules.zipIdx with
      | .nextFile => modify fun m => { m with input := none }
      | _ => pure ()
      records s rounds

def statements (s : Setting) (parts : List Statement) : Act Unit :=
  parts.forM fun part => do
    let _ ← perform s deepest part

/-- What comes before the ends. -/
def opening (s : Setting) : Act Unit := do
  statements s s.script.begins
  if !s.script.rules.isEmpty || !s.script.ends.isEmpty then records s mostRounds

def complain (s : Setting) (message : String) : Act Unit := do
  inEffects (Program.complain s.process message 2)
  modify fun m => { m with status := some 2 }

/-- Runs a script to its end. -/
def all (s : Setting) : Act Unit := do
  try
    try opening s
    catch
      | .exit => pure ()
      | halt => throw halt
    statements s s.script.ends
  catch
    | .exit => pure ()
    | .failed message => complain s message
    | .crashed => modify fun m => { m with status := none, outlets := [] }
  closeAll s

end Run
end LayerCache.Rules
