import LayerCache.Shell.Regex.Reader

/-! Patterns for names: a star for any text, a question mark for any character, and sets. -/
namespace LayerCache.Glob

/-- The inside of a set up to its bracket; a bracket in front stands for itself. -/
def takeRanges : Nat → Bool → List Char → Option (List (Char × Char) × List Char)
  | 0, _, _ => none
  | _ + 1, _, [] => none
  | fuel + 1, first, c :: rest =>
    if c == ']' && !first then some ([], rest)
    else match c, rest with
      | '[', ':' :: rest => do
        let (ranges, rest) ← Regex.takeClass rest
        let (others, rest) ← takeRanges fuel false rest
        return (ranges ++ others, rest)
      | a, '-' :: b :: rest =>
        if b == ']' then do
          let (others, rest) ← takeRanges fuel false ('-' :: b :: rest)
          return ((a, a) :: others, rest)
        else do
          let (others, rest) ← takeRanges fuel false rest
          return ((a, b) :: others, rest)
      | a, rest => do
        let (others, rest) ← takeRanges fuel false rest
        return ((a, a) :: others, rest)

/-- A set, read behind its opening bracket. -/
def takeSet (cs : List Char) : Option (CharSet × List Char) :=
  let (negated, cs) := match cs with
    | c :: rest => if c = '!' || c = '^' then (true, rest) else (false, cs)
    | [] => (false, [])
  (takeRanges (cs.length + 1) true cs).map fun (ranges, rest) => (⟨ranges, negated⟩, rest)

/-- A pattern of characters, some of which stand for themselves because they are quoted. -/
def toRegex : Nat → List (Char × Bool) → Regex
  | 0, _ => .empty
  | _ + 1, [] => .empty
  | fuel + 1, (c, isQuoted) :: rest =>
    let one (s : CharSet) := Regex.both (.one s) (toRegex fuel rest)
    if isQuoted then one (.single c)
    else if c = '*' then .both (.many (.one .all) 0 none) (toRegex fuel rest)
    else if c = '?' then one .all
    else if c = '[' then match takeSet (rest.map Prod.fst) with
      | some (s, after) => .both (.one s) (toRegex fuel (rest.drop (rest.length - after.length)))
      | none => one (.single c)
    else if c = '\\' then match rest with
      | (next, _) :: rest => .both (.one (.single next)) (toRegex fuel rest)
      | [] => one (.single c)
    else one (.single c)

def regex (pattern : List (Char × Bool)) : Regex := toRegex (pattern.length + 1) pattern

/-- Whether a whole text matches. -/
def fits (r : Regex) (fold : Bool) (text : List Char) : Bool :=
  (Regex.reach ⟨text.toArray, fold⟩ r [0]).contains text.length

def ofText (text : String) : Regex := regex (text.toList.map (·, false))

end LayerCache.Glob
