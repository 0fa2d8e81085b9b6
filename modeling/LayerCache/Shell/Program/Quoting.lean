/-! Names as messages show them: in quotes where a shell would take them apart. -/
namespace LayerCache.Program.Quoting

def isPrintable (c : Char) : Bool := ' ' ≤ c && c ≤ '~'

/-- Whether a character must not stand bare, by its place in a text of some length. -/
def isSpecial (place length : Nat) (c : Char) : Bool :=
  !isPrintable c || " !\"$&()*;<=>[^\x60|?'\\".toList.contains c ||
    ((c = '#' || c = '~') && place = 0) || ((c = '\x7b' || c = '\x7d') && length = 1)

/-- Characters that mean the same in either kind of quotes. -/
def isNeutral (c : Char) : Bool :=
  c.isAlphanum || "%+,-./:]_ #~\x7b\x7d'".toList.contains c

def letterOf (c : Char) : Option Char :=
  [(7, 'a'), (8, 'b'), (9, 't'), (10, 'n'), (11, 'v'), (12, 'f'), (13, 'r')].lookup c.toNat

def octal (n : Nat) : List Char := [Nat.digitChar (n / 64), Nat.digitChar (n / 8 % 8),
  Nat.digitChar (n % 8)]

/-- A character that cannot be shown, as an escape. -/
def escape (c : Char) : List Char := '\\' :: (letterOf c).elim (octal c.toNat) ([·])

/-- A text within single quotes; what cannot be shown stands in quotes of its own. `inside` tells
which of the two quotes are open. -/
def shellBody : Bool → List Char → List Char
  | _, [] => ['\'']
  | inside, c :: rest =>
    if isPrintable c then
      let reopened := if inside then [] else ['\'', '\'']
      let now := if c = '\'' then ['\'', '\\', '\'', '\''] else [c]
      reopened ++ now ++ shellBody true rest
    else (if inside then ['\'', '$', '\''] else []) ++ escape c ++ shellBody false rest

/-- A text that a shell reads as itself; `always` in quotes, else only if it must be. -/
def shell (always colons : Bool) (text : String) : String :=
  let cs := text.toList
  let isBare := !cs.isEmpty && !always &&
    (cs.zipIdx.all fun (c, i) => !isSpecial i cs.length c) && !(colons && cs.contains ':')
  if isBare then text
  else if cs.contains '\'' && cs.all isNeutral then "\"" ++ text ++ "\""
  else String.ofList ('\'' :: shellBody true cs)

/-- A text in single quotes, with backslashes before what would be mistaken. -/
def plain (text : String) : String :=
  let shown (c : Char) : List Char :=
    if c = '\'' || c = '\\' then ['\\', c] else if isPrintable c then [c] else escape c
  String.ofList ('\'' :: text.toList.flatMap shown ++ ['\''])

/-- A text within single quotes that hides nothing. -/
def bareShell (always colons : Bool) (text : String) : String :=
  let cs := text.toList
  let isBare := !cs.isEmpty && !always &&
    (cs.zipIdx.all fun (c, i) => (!isPrintable c && c != '\n' && c != '\t') ||
      !isSpecial i cs.length c) && !(colons && cs.contains ':')
  let shown (c : Char) : List Char := if c = '\'' then ['\'', '\\', '\'', '\''] else [c]
  if isBare then text
  else if cs.contains '\'' && cs.all isNeutral then "\"" ++ text ++ "\""
  else String.ofList ('\'' :: cs.flatMap shown ++ ['\''])

/-- A text with backslashes before what cannot be shown and before some characters more. -/
def escaped (others : List Char) (text : String) : String :=
  String.ofList (text.toList.flatMap fun c =>
    if c = '\\' || others.contains c then ['\\', c] else if isPrintable c then [c] else escape c)

/-- A text in double quotes. -/
def doubled (others : List Char) (text : String) : String :=
  "\"" ++ escaped ('"' :: others) text ++ "\""

end Quoting

/-- The name of a file in front of a reason. -/
def fileName (name : String) : String := Quoting.shell false true name

/-- The name of a file within a message. -/
def quotedFile (name : String) : String := Quoting.shell true false name

def quoted (text : String) : String := Quoting.plain text

end LayerCache.Program
