import LayerCache.Shell.Program.Decimals
import LayerCache.Shell.Program.Options
import LayerCache.Shell.Program.Sizes

/-! Bytes shown as numbers and letters, in rows behind their addresses. -/
namespace LayerCache.Program

def digitsIn (base width n : Nat) : List Char := Chars.padLeft width (Nat.toDigits base n) '0'

/-- Groups of so many; the last one may be shorter. -/
def chunks {α : Type} (size : Nat) : Nat → List α → List (List α)
  | 0, _ => []
  | fuel + 1, xs => if xs.isEmpty then [] else xs.take size :: chunks size fuel (xs.drop size)

namespace Dump

/-- How a group of bytes is shown: how many there are, and its text in a column of some width. -/
structure Shape where
  size : Nat
  width : Nat
  text : Nat → List Char
  /-- The bytes of a row are shown as letters at its end. -/
  trails : Bool := false

def namedByte (n : Nat) : List Char :=
  match [(0, '0'), (7, 'a'), (8, 'b'), (9, 't'), (10, 'n'), (11, 'v'), (12, 'f'),
      (13, 'r')].lookup n with
  | some c => ['\\', c]
  | none => if 32 ≤ n && n < 127 then [Char.ofNat n] else digitsIn 8 3 n

def controlNames : List String :=
  ["nul", "soh", "stx", "etx", "eot", "enq", "ack", "bel", "bs", "ht", "nl", "vt", "ff", "cr",
    "so", "si", "dle", "dc1", "dc2", "dc3", "dc4", "nak", "syn", "etb", "can", "em", "sub", "esc",
    "fs", "gs", "rs", "us", "sp"]

/-- A byte by its name; its highest bit does not count. -/
def calledByte (n : Nat) : List Char :=
  let n := n % 128
  if n = 127 then "del".toList
  else match controlNames[n]? with
    | some name => name.toList
    | none => [Char.ofNat n]

/-- A number of some bits with a sign. -/
def signed (size n : Nat) : List Char :=
  let bound := Nat.pow 256 size
  if n < bound / 2 then (toString n).toList else '-' :: (toString (bound - n)).toList

/-- A number with a fraction whose bits are split into sign, exponent and mantissa, written with
the fewest digits within bounds that read back as it. -/
def fractional (exponentBits mantissaBits least most : Nat) (n : Nat) : List Char :=
  let unit := Nat.pow 2 mantissaBits
  let mantissa := n % unit
  let exponent := n / unit % Nat.pow 2 exponentBits
  let sign := if 1 ≤ n / unit / Nat.pow 2 exponentBits then ['-'] else []
  let bias : Int := Nat.pow 2 (exponentBits - 1) - 1 + mantissaBits
  if exponent + 1 = Nat.pow 2 exponentBits then
    sign ++ (if mantissa = 0 then "inf" else "nan").toList
  else
    let (m, e) : Nat × Int := if exponent = 0 then (mantissa, 1 - bias)
      else (unit + mantissa, exponent - bias)
    let (den, num) := Binary64.overPower 1 m e
    let readsBack (digits : Nat) : Bool :=
      let (n, power) := Decimals.scaled (digits - 1) num den
      m = 0 || Binary64.nearestTo m e ⟨n, power - ((digits : Int) - 1)⟩
    let least := if exponent = 0 then 1 else least
    let digits := (((List.range (most - least)).map (· + least)).find? readsBack).getD most
    sign ++ Decimals.general digits false num den

/-- The shape that a letter and a size stand for. -/
def shape? (letter : Char) (size : Nat) : Option Shape :=
  let column (widths : List (Nat × Nat)) (text : Nat → List Char) : Option Shape :=
    (widths.lookup size).map fun width => ⟨size, width, text, false⟩
  match letter with
  | 'a' => some ⟨1, 3, calledByte, false⟩
  | 'c' => some ⟨1, 3, namedByte, false⟩
  | 'd' => column [(1, 4), (2, 6), (4, 11), (8, 20)] (signed size)
  | 'u' => column [(1, 3), (2, 5), (4, 10), (8, 20)] fun n => (toString n).toList
  | 'o' => (([(1, 3), (2, 6), (4, 11), (8, 22)].lookup size)).bind fun w =>
      column [(size, w)] (digitsIn 8 w)
  | 'x' => (([(1, 2), (2, 4), (4, 8), (8, 16)].lookup size)).bind fun w =>
      column [(size, w)] (digitsIn 16 w)
  | 'f' =>
    if size = 4 then column [(4, 15)] (fractional 8 23 6 9)
    else column [(8, 24)] (fractional 11 52 15 17)
  | _ => none

/-- A size behind the letter of a type: a letter of its own, a number, or the usual one. -/
def takeSize (isFractional : Bool) (cs : List Char) : Nat × List Char :=
  let named := if isFractional then [('F', 4), ('D', 8), ('L', 16)]
    else [('C', 1), ('S', 2), ('I', 4), ('L', 8)]
  match cs with
  | c :: rest => match named.lookup c with
    | some size => (size, rest)
    | none =>
      let digits := cs.takeWhile Char.isDigit
      ((Chars.number? digits).getD (if isFractional then 8 else 4), cs.drop digits.length)
  | [] => (if isFractional then 8 else 4, [])

/-- The shapes that a text of types stands for. -/
def shapes (whole : String) : Nat → List Char → Except String (List Shape)
  | 0, _ => .ok []
  | _ + 1, [] => .ok []
  | fuel + 1, c :: rest =>
    if !"acdfoux".toList.contains c then
      .error ("invalid character '" ++ String.singleton c ++ "' in type string " ++ quoted whole)
    else
      let (size, rest) := if c = 'a' || c = 'c' then (1, rest) else takeSize (c = 'f') rest
      match shape? c size with
      | none =>
        let kind := if c = 'f' then "floating point" else "integral"
        .error ("invalid type string " ++ quoted whole ++ ";\nthis system doesn't provide a " ++
          toString size ++ "-byte " ++ kind ++ " type")
      | some s =>
        let (s, rest) := match rest with
          | 'z' :: rest => ({ s with trails := true }, rest)
          | rest => (s, rest)
        (shapes whole fuel rest).map (s :: ·)

/-- The types that letters stand for by themselves. -/
def typeOf (letter : Char) : Option String :=
  [('a', "a"), ('b', "o1"), ('B', "o2"), ('c', "c"), ('d', "u2"), ('D', "u4"), ('e', "f8"),
    ('f', "f4"), ('F', "f8"), ('h', "x2"), ('H', "x4"), ('i', "d4"), ('I', "d8"), ('l', "d8"),
    ('L', "d8"), ('o', "o2"), ('O', "o4"), ('s', "d2"), ('x', "x2"), ('X', "x4")].lookup letter

/-- The number that bytes spell; missing ones are zero. -/
def spell (bigFirst : Bool) (size : Nat) (bytes : List Char) : Nat :=
  let whole := bytes ++ List.replicate (size - bytes.length) (Char.ofNat 0)
  (if bigFirst then whole.reverse else whole).foldr (fun c n => 256 * n + c.toNat) 0

/-- Columns are spread over the width of the widest row. -/
def Shape.row (s : Shape) (bigFirst : Bool) (rowSize rowWidth : Nat) (bytes : List Char) :
    List Char :=
  let fields := rowSize / s.size
  let padding := rowWidth - (s.width + 1) * fields
  let texts := (chunks s.size bytes.length bytes).zipIdx.map fun (group, i) =>
    let before := padding * (fields - i) / fields - padding * (fields - i - 1) / fields
    Chars.padLeft (s.width + 1 + before) (s.text (spell bigFirst s.size group))
  let rest := fields - texts.length
  let blank := if s.trails then
      List.replicate (rest * (s.width + 1) + padding * rest / fields) ' ' ++ "  >".toList ++
        bytes.map (fun c => if ' ' ≤ c && c ≤ '~' then c else '.') ++ ['<']
    else []
  texts.flatten ++ blank

/-- Rows behind their addresses; repeated full rows are left out but for a star. -/
def rows (address : Nat → List Char) (write : List Char → List (List Char)) (all : Bool)
    (size : Nat) : Nat → Option (List Char) → Bool → List (List Char) → List (List Char)
  | _, _, _, [] => []
  | place, last, starred, row :: rest =>
    if !all && last = some row && row.length = size then
      (if starred then [] else [['*', '\n']]) ++
        rows address write all size (place + row.length) last true rest
    else
      (write row).zipIdx.flatMap (fun (line, i) =>
        [(if i = 0 then address place else (address place).map fun _ => ' ') ++ line ++ ['\n']]) ++
        rows address write all size (place + row.length) (some row) false rest

/-- Runs of characters that can be shown, each ended by a zero, with their places. -/
def strings (least : Nat) : Nat → List Char → List Char → List (Nat × List Char)
  | _, _, [] => []
  | place, run, c :: rest =>
    if Quoting.isPrintable c || (7 ≤ c.toNat && c.toNat ≤ 13) then
      strings least (place + 1) (c :: run) rest
    else
      (if c.toNat = 0 && least ≤ run.length then [(place - run.length, run.reverse)] else []) ++
        strings least (place + 1) [] rest

/-- A number of bytes, which may be octal or hexadecimal and have a unit behind it. -/
def amount? (text : String) : Option Nat :=
  match text.toList with
  | '0' :: x :: rest =>
    if x = 'x' || x = 'X' then
      if rest.isEmpty then none
      else rest.foldlM (fun n c =>
        if c.isDigit then some (n * 16 + (c.toNat - 48))
        else if 'a' ≤ c.toLower && c.toLower ≤ 'f' then some (n * 16 + (c.toLower.toNat - 87))
        else none) 0
    else
      let digits := (x :: rest).takeWhile fun c => '0' ≤ c && c ≤ '7'
      let unit := (x :: rest).drop digits.length
      (Sizes.unit? "bBkKmMGTPEZYRQ".toList unit).map fun k =>
        digits.foldl (fun n c => n * 8 + (c.toNat - 48)) 0 * k
  | _ => (Sizes.ofText "bBkKmMGTPEZYRQ" text).toOption

/-- Where a dump starts, as an operand says: octal, or with a point decimal. -/
def offset? (text : String) : Option Nat :=
  let cs := text.toList
  let cs := if cs.head? = some '+' then cs.drop 1 else cs
  let (cs, factor) := if cs.getLast? = some 'b' then (cs.dropLast, 512) else (cs, 1)
  if cs.getLast? = some '.' then (Chars.number? cs.dropLast).map (· * factor)
  else if cs.isEmpty || !cs.all fun c => '0' ≤ c && c ≤ '7' then none
  else some (cs.foldl (fun n c => n * 8 + (c.toNat - 48)) 0 * factor)

/-- The operand that says where to start, if one does, and the files. -/
def splitOperands (o : Options) : List String × Option Nat :=
  let modern := o.hasAny "AjNtvwS"
  match o.operands with
  | [one] =>
    if !modern && Text.startsWith one "+" then match offset? one with
      | some n => ([], some n)
      | none => ([one], none)
    else ([one], none)
  | [file, place] =>
    let isPlace := Text.startsWith place "+" || place.toList.head?.any Char.isDigit
    if !modern && isPlace then match offset? place with
      | some n => ([file], some n)
      | none => ([file, place], none)
    else ([file, place], none)
  | files => (files, none)

def addresses (radix : String) : Option (Nat → List Char) :=
  match radix.toList.head? with
  | some 'd' => some (digitsIn 10 7)
  | some 'o' => some (digitsIn 8 7)
  | some 'x' => some (digitsIn 16 6)
  | some 'n' => some fun _ => []
  | _ => none

def usage : Usage where
  bare := "abBcdDeFfhHiIlLosvxXO"
  valued := "AjNtS"
  long := [("address-radix=", 'A'), ("endian=", 'E'), ("format=", 't'), ("output-duplicates", 'v'),
    ("read-bytes=", 'N'), ("skip-bytes=", 'j'), ("strings?", 'S'), ("traditional", 'T'),
    ("width?", 'w')]
  loose := "w"

/-- The width of rows that fits all shapes. -/
def rowSize (shapes : List Shape) (asked : Option Nat) : Nat × Bool :=
  let common := shapes.foldl (fun n s => Nat.lcm n s.size) 1
  let usual := if common < 16 then common * (16 / common) else common
  match asked with
  | none => (usual, true)
  | some n => if n = 0 || n % common != 0 then (common, false) else (n, true)

/-- Which number an option cannot take. -/
def badNumber? (o : Options) : Option (Char × String) :=
  (['A', 'j', 'N', 'S', 'w'].filterMap fun c => (o.value? c).map (c, ·)).find? fun (c, text) =>
    c != 'A' && !(text = "" && (c = 'w' || c = 'S')) && (amount? text).isNone

end Dump

def dump (p : Process) : Work Unit :=
  withOptions p Dump.usage fun o => do
    let (files, start) := Dump.splitOperands o
    let types := o.given.filterMap fun (c, value) =>
      if c = 't' then some value else Dump.typeOf c
    let types := if types.isEmpty then ["o2"] else types
    let go (bigFirst : Bool) : Work Unit := do
      match Dump.addresses ((o.value? 'A').getD "o"), Dump.badNumber? o,
          types.mapM fun t => Dump.shapes t (t.length + 1) t.toList with
      | none, _, _ => complain p ("invalid output address radix '" ++ ((o.value? 'A').getD "") ++
          "'; it must be one character from [doxn]")
      | _, some (c, text), _ =>
        complain p ("invalid -" ++ String.singleton c ++ " argument " ++ quoted text)
      | _, _, .error text => complain p text
      | some address, none, .ok shapes =>
        let shapes := if shapes.flatten.isEmpty then (Dump.shape? 'o' 2).toList else shapes.flatten
        let number (c : Char) := (o.value? c).bind Dump.amount?
        let skipped := start.getD ((number 'j').getD 0)
        let text ← gather p files fun file reason =>
          because (if file = "-" then "standard input" else file) reason
        noteClosed p files "standard input"
        if text.length < skipped then complain p "cannot skip past end of combined input"
        else
          let text := text.drop skipped
          let text := (number 'N').elim text text.take
          if o.has 'S' then
            (Dump.strings ((number 'S').getD 3) skipped [] text).forM fun (place, run) =>
              let shown := address place
              printLine ((if shown.isEmpty then [] else shown ++ [' ']) ++ run)
          else
            let asked := (o.value? 'w').map fun w => if w = "" then 32 else (Dump.amount? w).getD 0
            let (size, fits) := Dump.rowSize shapes asked
            if !fits then
              write errors (p.name ++ ": warning: invalid width " ++ toString (asked.getD 0) ++
                "; using " ++ toString size ++ " instead\n").toList
            let width := shapes.foldl (fun n s => max n ((s.width + 1) * (size / s.size))) 0
            let line (row : List Char) := shapes.map fun s => s.row bigFirst size width row
            (Dump.rows address line (o.has 'v') size skipped none false
              (chunks size text.length text)).forM print
            let last := address (skipped + text.length)
            if !last.isEmpty then printLine last
    match o.value? 'E' with
    | some word => withChoice p "endian" word [(["little"], false), (["big"], true)] go
    | none => go false

end LayerCache.Program
