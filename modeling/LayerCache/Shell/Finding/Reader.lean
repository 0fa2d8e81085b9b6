import LayerCache.Shell.Calendar.Reader
import LayerCache.Shell.Finding.Expression
import LayerCache.Shell.Program.Mode
import LayerCache.Shell.Program.Search

/-! What to look for, as it is written: options, paths, and an expression of tests and actions. -/
namespace LayerCache.Finding

open Program

/-- What holds for a whole search. -/
structure Setup where
  follows : Following := .never
  least : Nat := 0
  most : Option Nat := none
  /-- What is in a folder comes before the folder. -/
  depthFirst : Bool := false
  grammar : Regex.Grammar := .mixed
  batches : Nat := 0
  /-- The test or action read before. -/
  last : String := ""

/-- Reading stops at the first mistake. -/
abbrev Reading := ExceptT String (StateT Setup Work)

def raw (name : String) : String := "\x60" ++ name ++ "'"

def amount? (text : String) : Option Amount :=
  match text.toList with
  | '+' :: rest => (Chars.number? rest).map fun n => .above n
  | '-' :: rest => (Chars.number? rest).map fun n => .below n
  | cs => (Chars.number? cs).map fun n => .exactly n

def amount (name text : String) : Reading Amount :=
  match amount? text with
  | some a => pure a
  | none => throw ("invalid argument " ++ raw text ++ " to " ++ raw name)

def kindLetters (name text : String) : Reading (List Char) :=
  let pieces := Text.split ',' text
  let letter (piece : String) : Reading Char := match piece.toList with
    | [] => throw ("Last file type in list argument to " ++ name ++
        " is missing, i.e., list is ending on: ','")
    | [c] => if "bcdpflsD".toList.contains c then pure c
      else throw ("Unknown argument to " ++ name ++ ": " ++ String.singleton c)
    | c :: _ => if "bcdpflsD".toList.contains c then
        throw ("Must separate multiple arguments to " ++ name ++ " using: ','")
      else throw ("Unknown argument to " ++ name ++ ": " ++ String.singleton c)
  if text = "" then throw ("Arguments to " ++ name ++ " should contain at least one letter")
  else pieces.mapM letter

def sizeUnits : List (Char × Nat) :=
  [('b', 512), ('c', 1), ('w', 2), ('k', 1024), ('M', 1048576), ('G', 1073741824)]

def sizeTest (text : String) : Reading Test := do
  let cs := text.toList
  let last := cs.getLast?.getD '0'
  let (digits, unit) ← if last.isDigit then pure (cs, 512)
    else match sizeUnits.lookup last with
      | some unit => pure (cs.dropLast, unit)
      | none => throw ("invalid -size type " ++ raw (String.singleton last))
  match amount? (String.ofList digits) with
  | some a => return .size unit a
  | none => throw ("Invalid argument " ++ raw text ++ " to -size")

def accessTest (text : String) : Reading Test :=
  let (bits, rest) : Bits × String := match text.toList with
    | '-' :: rest => (.all, String.ofList rest)
    | '/' :: rest => (.any, String.ofList rest)
    | _ => (.exactly, text)
  match Mode.ofText? rest with
  | some change => pure (.access bits (change 0 false 0) (change 0 true 0))
  | none => throw ("invalid mode " ++ quoted text)

/-- A number of days or minutes before now. A day's fraction does not count. -/
def ageTest (name text : String) (now : Int) : Reading Test := do
  let a ← amount name text
  if Text.endsWith name "time" then
    let day : Int := 86400
    return .changed (match a with
      | .exactly n => .within (now - day - n * day) day
      | .above n => .before (now - day - n * day)
      | .below n => .after (now - 1 - n * day))
  else
    return .changed (match a with
      | .exactly n => .within (now - n * 60) 60
      | .above n => .before (now - n * 60)
      | .below n => .after (now - n * 60))

/-- Where a named file is, and what it is. -/
def reference (name : String) : Reading (Place × Entry × Disk) := do
  let d := (← (get : Work Effects)).disk
  let follows := (← getThe Setup).follows != .never
  match d.look follows (path name) with
  | .ok (place, entry) => return (place, entry, d)
  | .error fault => throw (quoted name ++ ": " ++ fault.reason)

/-- Owners other than the one who owns all files. -/
def otherOwners : List String :=
  ["daemon", "bin", "sys", "sync", "games", "man", "lp", "mail", "news", "uucp", "proxy",
    "www-data", "backup", "list", "irc", "nobody", "_apt"]

def ownerTest (what text : String) : Reading Test :=
  if text = "root" then pure (.owner (.exactly 0))
  else if otherOwners.contains text then pure (.always false)
  else match Text.number? text with
    | some n => pure (.owner (.exactly n))
    | none => throw (quoted text ++ " is not the name of " ++ what)

def grammars : List (String × Regex.Grammar) :=
  let extended := Regex.Grammar.grepExtended
  [("findutils-default", .mixed), ("ed", .basic), ("emacs", .mixed), ("gnu-awk", extended),
    ("grep", .grep), ("posix-awk", extended), ("awk", extended), ("posix-basic", .basic),
    ("posix-egrep", extended), ("egrep", extended), ("posix-extended", extended),
    ("posix-minimal-basic", .basic), ("sed", .basic)]

def grammar (text : String) : Reading Regex.Grammar :=
  match grammars.lookup text with
  | some g => pure g
  | none => throw ("Unknown regular expression type " ++ quoted text ++ "; valid types are " ++
      Text.join ", " (grammars.map fun (name, _) => "'" ++ name ++ "'") ++ ".")

def pattern (text : String) : Reading Regex := do
  match Regex.parse (← getThe Setup).grammar text.toList with
  | .ok r => return r
  | .error flaw => throw ("failed to compile regular expression '" ++ text ++ "': " ++
      flaw.message)

def moment (text : String) : Reading Moment := do
  match Calendar.read? (now (← (get : Work Effects)).disk) text with
  | some m => return m
  | none => throw ("I cannot figure out how to interpret " ++ quoted text ++ " as a date or time")

/-- Empties a file that will be written to. -/
def opened (name : String) : Reading String := do
  match ← (saveFile name [] : Work _) with
  | .ok () => return name
  | .error fault => throw (quoted name ++ ": " ++ fault.reason)

/-- Tests with a value behind them. -/
def valuedTest? (name value : String) : Option (Reading Test) :=
  let glob := Glob.ofText value
  match name with
  | "-name" => some (pure (.name glob false))
  | "-iname" => some (pure (.name glob true))
  | "-path" | "-wholename" => some (pure (.path glob false))
  | "-ipath" | "-iwholename" => some (pure (.path glob true))
  | "-lname" => some (pure (.target glob false))
  | "-ilname" => some (pure (.target glob true))
  | "-regex" => some (do return .path (← pattern value) false)
  | "-iregex" => some (do return .path (← pattern value) true)
  | "-type" => some (do return .kinds (← kindLetters name value))
  | "-xtype" => some (do return .otherKinds (← kindLetters name value))
  | "-size" => some (sizeTest value)
  | "-perm" => some (accessTest value)
  | "-newer" | "-anewer" | "-cnewer" => some (do
    let (place, entry, d) ← reference value
    return .newer (d.ageOf place entry))
  | "-mtime" | "-atime" | "-ctime" | "-mmin" | "-amin" | "-cmin" => some (do
    ageTest name value (← (get : Work Effects)).disk.clock)
  | "-used" => some (do return .always ((← amount name value).holds 0))
  | "-links" => some (do return .names (← amount name value))
  | "-inum" => some (do return .serial (← amount name value))
  | "-uid" | "-gid" => some (do return .owner (← amount name value))
  | "-user" => some (ownerTest "a known user" value)
  | "-group" => some (ownerTest "an existing group" value)
  | "-samefile" => some (do
    let (place, _, _) ← reference value
    return .sameAs place)
  | "-fstype" => some (pure (.always false))
  | _ => match Text.afterStart? "-newer" name with
    | some letters =>
      if letters.length != 2 || !letters.toList.all ("aBcmt".toList.contains ·) ||
          Text.startsWith letters "t" then none
      else if Text.endsWith letters "t" then some (do return .later (← moment value))
      else some (do
        let (place, entry, d) ← reference value
        return .newer (d.ageOf place entry))
    | none => none

def bareTest? (name : String) : Option Test :=
  match name with
  | "-true" | "-readable" | "-writable" => some (.always true)
  | "-false" | "-nouser" | "-nogroup" => some (.always false)
  | "-empty" => some .isEmpty
  | "-executable" => some .mayRun
  | _ => none

def bareAction? (name : String) : Option Action :=
  match name with
  | "-print" => some (.print none '\n')
  | "-print0" => some (.print none (Char.ofNat 0))
  | "-ls" => some (.list none)
  | "-delete" => some .delete
  | "-prune" => some .prune
  | "-quit" => some .quit
  | _ => none

def depthOf (name value : String) : Reading Nat :=
  match Text.number? value with
  | some n => pure n
  | none => throw ("Expected a positive decimal integer argument to " ++ name ++ ", but got " ++
      quoted value)

/-- Options that hold everywhere and are always true. -/
def bareOption? (name : String) : Option (Setup → Setup) :=
  match name with
  | "-depth" | "-d" => some ({ · with depthFirst := true })
  | "-follow" => some ({ · with follows := .always })
  | "-noleaf" | "-xdev" | "-mount" | "-daystart" | "-warn" | "-nowarn" | "-ignore_readdir_race"
  | "-noignore_readdir_race" => some id
  | _ => none

def valuedOption? (name value : String) : Option (Reading Unit) :=
  match name with
  | "-maxdepth" => some (do
    let n ← depthOf name value
    modifyThe Setup ({ · with most := some n }))
  | "-mindepth" => some (do
    let n ← depthOf name value
    modifyThe Setup ({ · with least := n }))
  | "-regextype" => some (do
    let g ← grammar value
    modifyThe Setup ({ · with grammar := g }))
  | _ => none

def valuedNames : List String :=
  ["-name", "-iname", "-path", "-wholename", "-ipath", "-iwholename", "-lname", "-ilname",
    "-regex", "-iregex", "-type", "-xtype", "-size", "-perm", "-newer", "-anewer", "-cnewer",
    "-mtime", "-atime", "-ctime", "-mmin", "-amin", "-cmin", "-used", "-links", "-inum", "-uid",
    "-gid", "-user", "-group", "-samefile", "-fstype", "-maxdepth", "-mindepth", "-regextype",
    "-printf", "-fprint", "-fprint0", "-fls"]

/-- How often a text holds empty braces. -/
def braces (text : String) : Nat := (text.splitOn "\x7b\x7d").length - 1

/-- A command up to its end, and what follows. A plus sign ends it only behind a word with empty braces. -/
def takeCommand (name : String) (mayBatch : Bool) (before : List String) :
    List String → Reading (List String × Bool × List String)
  | [] => throw ("missing argument to " ++ raw name)
  | a :: rest =>
    if a = ";" then
      if before.isEmpty then throw ("missing argument to " ++ raw name)
      else pure (before.reverse, false, rest)
    else if mayBatch && a = "+" && before.head?.any (0 < braces ·) then
      pure (before.reverse, true, rest)
    else takeCommand name mayBatch (a :: before) rest

def command (name : String) (args : List String) : Reading (Action × List String) := do
  let asks := name = "-ok" || name = "-okdir"
  let inFolder := Text.endsWith name "dir"
  let (words, isBatch, rest) ← takeCommand name (!asks) [] args
  if !isBatch then return (.command words inFolder asks, rest)
  let own := if words.getLast? = some "\x7b\x7d" then words.dropLast else words
  if own.isEmpty then throw ("missing argument to " ++ raw name)
  if own.contains "\x7b\x7d" then
    throw ("Only one instance of \x7b\x7d is supported with " ++ name ++ " ... +")
  match own.find? (0 < braces ·) with
  | some word => throw ("In '" ++ name ++ " ... \x7b\x7d +' the '\x7b\x7d' must appear by " ++
      "itself, but you specified '" ++ word ++ "'")
  | none =>
    let index := (← getThe Setup).batches
    modifyThe Setup ({ · with batches := index + 1 })
    return (.batch index own inFolder, rest)

inductive Token where
  | opening
  | closing
  | not
  | and (name : String)
  | or (name : String)
  | comma
  | leaf (e : Expression)

def operator? (a : String) : Option Token :=
  match a with
  | "(" => some .opening
  | ")" => some .closing
  | "!" | "-not" => some .not
  | "-a" | "-and" => some (.and a)
  | "-o" | "-or" => some (.or a)
  | "," => some .comma
  | _ => none

/-- A file to write to, and what is written. -/
def fileAction (name : String) (args : List String) : Reading (Action × List String) := do
  match name, args with
  | "-fprint", file :: rest => return (.print (some (← opened file)) '\n', rest)
  | "-fprint0", file :: rest => return (.print (some (← opened file)) (Char.ofNat 0), rest)
  | "-fls", file :: rest => return (.list (some (← opened file)), rest)
  | "-fprintf", file :: form :: rest =>
    return (.form (some (← opened file)) form.toList, rest)
  | "-printf", form :: rest => return (.form none form.toList, rest)
  | _, _ => throw ("missing argument to " ++ raw name)

/-- One test, action or option with what belongs to it, and the rest. -/
def leaf (name : String) (args : List String) : Reading (Expression × List String) := do
  if ["-exec", "-execdir", "-ok", "-okdir"].contains name then
    let (action, rest) ← command name args
    return (.action action, rest)
  if ["-printf", "-fprintf", "-fprint", "-fprint0", "-fls"].contains name then
    let (action, rest) ← fileAction name args
    return (.action action, rest)
  match bareTest? name, bareAction? name, bareOption? name with
  | some t, _, _ => return (.test t, args)
  | none, some a, _ =>
    if a matches .delete then modifyThe Setup ({ · with depthFirst := true })
    return (.action a, args)
  | none, none, some change =>
    modifyThe Setup change
    return (.test (.always true), args)
  | none, none, none =>
    match args with
    | [] =>
      if valuedNames.contains name then throw ("missing argument to " ++ raw name)
      else throw ((if Text.startsWith name "-newer" then "invalid predicate "
        else "unknown predicate ") ++ raw name)
    | value :: rest => match valuedOption? name value, valuedTest? name value with
      | some option, _ =>
        option
        return (.test (.always true), rest)
      | none, some test =>
        let t ← test
        return (.test t, rest)
      | none, none => throw ((if Text.startsWith name "-newer" then "invalid predicate "
          else "unknown predicate ") ++ raw name)

def takesPattern (name : String) : Bool :=
  ["-name", "-iname", "-path", "-wholename", "-ipath", "-iwholename", "-lname", "-ilname",
    "-regex", "-iregex"].contains name

def tokens : Nat → List String → Reading (List Token)
  | 0, _ => return []
  | _ + 1, [] => return []
  | fuel + 1, a :: rest => match operator? a with
    | some token => do
      let others ← tokens fuel rest
      return token :: others
    | none => do
      if !Text.startsWith a "-" || a = "-" then
        let last := (← getThe Setup).last
        throw ("paths must precede expression: " ++ raw a ++
          if takesPattern last then
            "\nfind: possible unquoted pattern after predicate " ++ raw last ++ "?" else "")
      let (e, rest) ← leaf a rest
      modifyThe Setup ({ · with last := a })
      let others ← tokens fuel rest
      return .leaf e :: others

def Token.name : Token → String
  | opening => "("
  | closing => ")"
  | not => "!"
  | and name | or name => name
  | comma => ","
  | leaf _ => ""

/-- What stands before an operator. -/
def nothingBefore (name : String) : String :=
  "invalid expression; you have used a binary operator '" ++ name ++ "' with nothing before it."

mutual

/-- One operand and the tokens behind it; `after` names the operator it belongs to. -/
def operand (after : String) : Nat → List Token → Except String (Expression × List Token)
  | 0, _ => .error ("expected an expression after '" ++ after ++ "'")
  | _ + 1, [] => .error ("expected an expression after '" ++ after ++ "'")
  | fuel + 1, .leaf e :: rest => let _ := fuel; .ok (e, rest)
  | fuel + 1, .not :: rest => do
    let (e, rest) ← operand "!" fuel rest
    return (.not e, rest)
  | fuel + 1, .opening :: rest => match rest with
    | .closing :: _ => .error "invalid expression; empty parentheses are not allowed."
    | rest => do
      let (e, rest) ← sequence "(" fuel rest
      match rest with
      | .closing :: rest => return (e, rest)
      | _ => .error ("invalid expression; I was expecting to find a ')' somewhere but did not " ++
          "see one.")
  | _ + 1, .closing :: _ =>
    .error (if after = "" then "you have too many ')'"
      else "invalid expression; expected to find a ')' but didn't see one. Perhaps you need an " ++
        "extra predicate after '" ++ after ++ "'")
  | _ + 1, token :: _ => .error (nothingBefore token.name)

def conjunction (after : String) : Nat → List Token → Except String (Expression × List Token)
  | 0, _ => .error ""
  | fuel + 1, ts => do
    let (e, rest) ← operand after fuel ts
    match rest with
    | [] | .closing :: _ | .or _ :: _ | .comma :: _ => return (e, rest)
    | .and name :: rest =>
      let (f, rest) ← conjunction name fuel rest
      return (.both e f, rest)
    | rest =>
      let (f, rest) ← conjunction "" fuel rest
      return (.both e f, rest)

def disjunction (after : String) : Nat → List Token → Except String (Expression × List Token)
  | 0, _ => .error ""
  | fuel + 1, ts => do
    let (e, rest) ← conjunction after fuel ts
    match rest with
    | .or name :: rest =>
      let (f, rest) ← disjunction name fuel rest
      return (.either e f, rest)
    | rest => return (e, rest)

def sequence (after : String) : Nat → List Token → Except String (Expression × List Token)
  | 0, _ => .error ""
  | fuel + 1, ts => do
    let (e, rest) ← disjunction after fuel ts
    match rest with
    | .comma :: rest =>
      let (f, rest) ← sequence "," fuel rest
      return (.sequence e f, rest)
    | rest => return (e, rest)

end

/-- The whole expression. If nothing in it tells what was found, paths are printed. -/
def expression (ts : List Token) : Except String Expression := do
  if ts.isEmpty then return .action (.print none '\n')
  let (e, rest) ← sequence "" (4 * ts.length + 4) ts
  if !rest.isEmpty then throw "you have too many ')'"
  return if e.tells then e else .both e (.action (.print none '\n'))

/-- Options in front of the paths. -/
def takeOptions (s : Setup) : List String → Setup × List String
  | "-H" :: rest => takeOptions { s with follows := .atStart } rest
  | "-L" :: rest => takeOptions { s with follows := .always } rest
  | "-P" :: rest => takeOptions { s with follows := .never } rest
  | "--" :: rest => (s, rest)
  | a :: rest =>
    if Text.startsWith a "-O" && 2 < a.length && (a.toList.drop 2).all Char.isDigit then
      takeOptions s rest
    else (s, a :: rest)
  | [] => (s, [])

/-- Whether an argument begins the expression. -/
def beginsExpression (a : String) : Bool :=
  (Text.startsWith a "-" && a != "-") || a = "(" || a = "!"

end LayerCache.Finding
