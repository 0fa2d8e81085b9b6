import LayerCache.Shell.Field
import LayerCache.Shell.State

/-! Words become arguments: values, outputs and sums are put in. A script within a word is run by
whoever asks. -/
namespace LayerCache.Shell

/-- Runs a script and gives what it puts out. -/
abbrev Capture := Script → Act (List Char)

def glyphs (kind : Kind) (text : List Char) : List Mark := text.map fun c => .glyph ⟨c, kind⟩

def kindIn (inQuotes : Bool) : Kind := if inQuotes then .quoted else .value

/-- Text of a word that stands in for a value is cut like one. -/
def asValue (inQuotes : Bool) (marks : List Mark) : List Mark :=
  if inQuotes then marks
  else marks.map fun
    | .glyph ⟨c, .plain⟩ => .glyph ⟨c, .value⟩
    | m => m

def textOf (marks : List Mark) : String := Field.text (joined marks)

def isAll (name : String) : Bool := name = "@" || name = "*"

/-- All arguments, each a field of its own, or one text where they are quoted together. -/
def allArguments (st : State) (name : String) (inQuotes : Bool) : List Mark :=
  let kind := kindIn inQuotes
  if inQuotes && name = "*" then
    let joint := match (st.vars.find? "IFS").bind Variable.value with
      | some text => (text.toList.take 1)
      | none => [' ']
    glyphs kind ((st.arguments.map String.toList).intersperse joint).flatten
  else
    let parts := st.arguments.map fun a =>
      (if inQuotes then [Mark.opened] else []) ++ glyphs kind a.toList
    (parts.intersperse [.cut]).flatten

/-- The marks of a value as it is. -/
def plainValue (name : String) (inQuotes : Bool) : Act (List Mark) := do
  let st ← get
  if isAll name then return allArguments st name inQuotes
  match st.value? name with
  | some text => return glyphs (kindIn inQuotes) text.toList
  | none =>
    if st.has 'u' then giveUp (name ++ ": parameter not set")
    return []

/-- Complains about a value that has to be there. -/
def demand (name : String) (orEmpty : Bool) (message : String) : Act Unit :=
  giveUp (name ++ ": " ++ if message != "" then message
    else "parameter not set" ++ if orEmpty then " or null" else "")

/-- Works out a sum and sets the variables it sets. -/
def reckon (text : String) : Act String := do
  let st ← get
  let lookup (name : String) : Except Sum.Flaw Int := match st.value? name with
    | none => .ok 0
    | some v => (Sum.ofText? v).elim (.error (.illegalNumber v)) .ok
  match (Sum.parse text.toList).bind fun a => a.evaluate lookup [] with
  | .ok (n, made) =>
    made.reverse.forM fun (name, n) => setVariable name (toString n)
    return toString n
  | .error flaw =>
    giveUp (flaw.message text)
    return ""

/-- The home folder of a user, or of the caller where no user is named. -/
def State.home? (st : State) (user : String) : Option String :=
  if user = "" then (st.vars.find? "HOME").bind Variable.value
  else [("root", "/root"), ("daemon", "/usr/sbin"), ("bin", "/bin"),
    ("nobody", "/nonexistent")].lookup user

/-- A word that begins in a home folder: with a tilde, and a user's name up to a slash. -/
def State.fromHome (st : State) (w : Word) : Word :=
  match w with
  | .plain '~' :: rest =>
    let name := rest.takeWhile fun p => p matches .plain _ && !(p matches .plain '/')
    let after := rest.drop name.length
    match (Word.plainText? name).bind st.home?, after with
    | some folder, [] | some folder, .plain _ :: _ => .quoted folder.toList :: after
    | _, _ => w
  | w => w

/-- A value of folders between colons, each of them perhaps from a home folder. -/
def State.fromHomes (st : State) (w : Word) : Word :=
  ((Word.betweenColons w).map st.fromHome |>.intersperse [.plain ':']).flatten

/-- What words come to. Fuel bounds how deep words stand in words. -/
def marksOf (capture : Capture) : Nat → Word → Act (List Mark)
  | 0, _ => return []
  | fuel + 1, w => do
    let parts ← w.mapM fun piece => do
      if ← hasJumped then return []
      match piece with
      | .plain c => return [Mark.glyph ⟨c, .plain⟩]
      | .quoted text => return .opened :: glyphs .quoted text
      | .output s inQuotes => return glyphs (kindIn inQuotes) (← capture s)
      | .sum w inQuotes =>
        let text := textOf (← marksOf capture fuel w)
        return glyphs (kindIn inQuotes) (← reckon text).toList
      | .malformed =>
        giveUp "Bad substitution"
        return []
      | .value name .whole inQuotes => plainValue name inQuotes
      | .value name .length inQuotes =>
        let st ← get
        if isAll name then return glyphs (kindIn inQuotes) (toString st.arguments.length).toList
        if (st.value? name).isNone && st.has 'u' then
          giveUp (name ++ ": parameter not set")
        return glyphs (kindIn inQuotes) (toString ((st.value? name).getD "").length).toList
      | .value name (.instead sign orEmpty w) inQuotes =>
        let st ← get
        let value := st.value? name
        let missing := value.isNone || (orEmpty && value = some "")
        let present : Act (List Mark) :=
          if isAll name then return allArguments st name inQuotes
          else return glyphs (kindIn inQuotes) (value.getD "").toList
        let w := if inQuotes then w else st.fromHome w
        if sign = '+' then
          if missing then return [] else return asValue inQuotes (← marksOf capture fuel w)
        else if !missing then present
        else
          let marks ← marksOf capture fuel w
          if sign = '-' then return asValue inQuotes marks
          else
            let text := textOf marks
            if sign = '=' then setVariable name text else demand name orEmpty text
            return glyphs (kindIn inQuotes) text.toList
      | .value name (.without fromEnd longest w) inQuotes =>
        let pattern := joined (← marksOf capture fuel ((← get).fromHome w))
        let text := ((← get).value? name).getD ""
        return glyphs (kindIn inQuotes) (Field.strip pattern fromEnd longest text.toList)
    return parts.flatten

/-- Words nest no deeper than this. -/
def mostWords : Nat := 100

/-- Quotes around all arguments make no field where there are no arguments. -/
def holdsNothing (st : State) (w : Word) : Bool :=
  st.arguments.isEmpty && w.any fun p => p matches .value "@" .whole true

/-- The fields of a word, before patterns are looked at. -/
def fieldsOf (capture : Capture) (w : Word) : Act (List Field) := do
  let marks ← marksOf capture mostWords ((← get).fromHome w)
  let st ← get
  let marks := if holdsNothing st w then marks.filter (· != .opened) else marks
  return split st.separators marks

/-- The arguments that words stand for. -/
def expand (capture : Capture) (words : List Word) : Act (List String) := do
  let fields ← words.mapM (fieldsOf capture)
  let st ← get
  return fields.flatten.flatMap fun f => if st.has 'f' then [f.text] else f.names st.disk

/-- A word as a single text. -/
def expandText (capture : Capture) (w : Word) : Act String := do
  return textOf (← marksOf capture mostWords w)

/-- A word as the name of a file or the like. -/
def expandName (capture : Capture) (w : Word) : Act String := do
  expandText capture ((← get).fromHome w)

/-- The value of an assignment. -/
def expandValue (capture : Capture) (w : Word) : Act String := do
  expandText capture ((← get).fromHomes w)

/-- A word as a pattern. -/
def expandPattern (capture : Capture) (w : Word) : Act Field := do
  return joined (← marksOf capture mostWords ((← get).fromHome w))

end LayerCache.Shell
