import LayerCache.Shell.Program.Decimals
import LayerCache.Shell.Program.Translate

/-! Backslash escapes in texts, as programs that print their arguments take them. -/
namespace LayerCache.Program

/-- Scripts know fewer escapes than the programs of their own, and one of these accepts no escape
that is not complete. -/
inductive Dialect where
  | script
  | echoing
  | printing
  deriving DecidableEq, Repr

/-- What is found behind a backslash. -/
inductive Escaped where
  | text (cs rest : List Char)
  | nothing
  /-- All output ends here. -/
  | stop
  | wrong (flaw : String)

namespace Dialect

def hexValue (cs : List Char) : Nat := cs.foldl (fun n c => 16 * n + (Decimals.hexDigit? c).getD 0) 0

def isHex (c : Char) : Bool := (Decimals.hexDigit? c).isSome

def missingDigits : Escaped := .wrong "missing hexadecimal number in escape"

/-- A character by its number in so many hexadecimal digits. Only those of one byte can be shown;
others are written as they stand. -/
def wide (letter : Char) (count : Nat) (rest : List Char) : Escaped :=
  let digits := (rest.take count).takeWhile isHex
  let n := hexValue digits
  let shown (width : Nat) : List Char :=
    Chars.padLeft width ((Nat.toDigits 16 n).map Char.toUpper) '0'
  if digits.length < count then missingDigits
  else if 0xd800 ≤ n && n ≤ 0xdfff then
    .wrong ("invalid universal character name \\" ++ String.ofList (letter :: digits))
  else .text (if n < 128 then [Char.ofNat n]
    else if n < 65536 then '\\' :: 'u' :: shown 4 else '\\' :: 'U' :: shown 8) (rest.drop count)

/-- What stands behind a backslash. With `zero` a zero stands before octal digits. -/
def takeEscape (d : Dialect) (zero : Bool) : List Char → Escaped
  | [] => .nothing
  | c :: rest =>
    let digits := ((if zero && c = '0' then rest else c :: rest).take 3).takeWhile isOctal
    if zero && c = '0' then .text [octal digits] (rest.drop digits.length)
    else if !digits.isEmpty then .text [octal digits] ((c :: rest).drop digits.length)
    else if c = 'e' then .text [Char.ofNat 27] rest
    else if d = .script then simple c rest
    else if c = 'x' then
      let hex := (rest.take 2).takeWhile isHex
      if !hex.isEmpty then .text [Char.ofNat (hexValue hex)] (rest.drop hex.length)
      else if d = .printing then missingDigits else .nothing
    else if c = '"' then .text ['"'] rest
    else if d = .echoing then simple c rest
    else if c = 'c' then .stop
    else if c = 'u' then wide c 4 rest
    else if c = 'U' then wide c 8 rest
    else simple c rest
where
  simple (c : Char) (rest : List Char) : Escaped := match letterEscapes.lookup c with
    | some n => .text [Char.ofNat n] rest
    | none => .nothing

/-- How a text ends in which escapes were resolved. -/
inductive Stop where
  | atEnd
  | early
  | flawed (text : String)
  deriving DecidableEq, Repr

/-- A text with its escapes resolved. -/
def unescape (d : Dialect) : Nat → List Char → List Char × Stop
  | 0, _ => ([], .atEnd)
  | _ + 1, [] => ([], .atEnd)
  | _ + 1, '\\' :: 'c' :: _ => ([], .early)
  | fuel + 1, c :: rest =>
    let next := if c = '\\' then d.takeEscape true rest else .nothing
    match next with
    | .wrong flaw => ([], .flawed flaw)
    | .stop => ([], .early)
    | .text cs rest =>
      let (others, stop) := unescape d fuel rest
      (cs ++ others, stop)
    | .nothing =>
      let (others, stop) := unescape d fuel rest
      (c :: others, stop)

end Dialect
end LayerCache.Program
