import LayerCache.Shell.Calendar.Basic
import LayerCache.Text.Ascii

/-! Moments written by a format, in which letters behind a percent sign stand for parts. -/
namespace LayerCache.Calendar

/-- How a part is padded and spelt. -/
structure Style where
  pad : Option Char := none
  upper : Bool := false
  swapped : Bool := false
  width : Option Nat := none
  colons : Nat := 0

namespace Style

def flag (s : Style) (c : Char) : Option Style :=
  if c = '-' || c = '_' || c = '0' || c = '+' then some { s with pad := some c }
  else if c = '^' then some { s with upper := true }
  else if c = '#' then some { s with swapped := true }
  else none

def fill (s : Style) (usual : Char) (width : Nat) (text : List Char) : List Char :=
  match s.pad with
  | some '-' => text
  | pad =>
    let c := match pad with
      | some '_' => ' '
      | some _ => '0'
      | none => usual
    List.replicate (s.width.getD width - text.length) c ++ text

/-- A number with at least so many digits; zeros stand behind a sign. -/
def number (s : Style) (usual : Char) (width : Nat) (n : Int) : List Char :=
  let digits := (toString n.natAbs).toList
  if n < 0 then
    let c := match s.pad with
      | some '_' => ' '
      | _ => usual
    if s.pad = some '-' then '-' :: digits
    else if c = ' ' then s.fill ' ' width ('-' :: digits)
    else '-' :: s.fill '0' (s.width.getD width - 1) digits
  else s.fill usual width digits

/-- A year or century, whose sign is shown if it has more digits than usual. -/
def years (s : Style) (width : Nat) (n : Int) : List Char :=
  let digits := (toString n.natAbs).length
  if s.pad = some '+' && 0 ≤ n && (width < digits || width < s.width.getD 0) then
    '+' :: { s with pad := some '0', width := some (s.width.getD 0 - 1) }.number '0' width n
  else s.number '0' width n

def word (s : Style) (text : String) (swap : Char → Char := Char.toUpper) : List Char :=
  let cs := text.toList
  let cs := if s.upper then cs.map Char.toUpper else if s.swapped then cs.map swap else cs
  let c := if s.pad = some '0' || s.pad = some '+' then '0' else ' '
  if s.pad = some '-' then cs else List.replicate (s.width.getD 0 - cs.length) c ++ cs

end Style

def padded (n : Int) : String :=
  let text := toString n.natAbs
  if text.length < 2 then "0" ++ text else text

def clock (s : Shown) : String := padded s.hour ++ ":" ++ padded s.minute

def hourOfTwelve (s : Shown) : Int := (s.hour + 11) % 12 + 1

def half (s : Shown) : String := if s.hour < 12 then "AM" else "PM"

/-- A date that sorts as text as long as its year has four digits; more get a sign. -/
def yearMonthDay (style : Style) (s : Shown) : List Char :=
  let year : Style := match style.pad, style.width with
    | none, none => { pad := some '+', width := some 4 }
    | pad, width => { pad, width := width.map (· - 6) }
  year.years 4 s.year ++ ("-" ++ padded s.month ++ "-" ++ padded s.day).toList

def slashed (s : Shown) : String :=
  padded s.month ++ "/" ++ padded s.day ++ "/" ++ padded (s.year.fmod 100)

/-- The offset of universal time, with so many colons. -/
def offset (style : Style) : List Char :=
  let parts := match style.colons with
    | 0 => "0000"
    | 1 => "00:00"
    | 2 => "00:00:00"
    | _ => "00"
  let digits := parts.toList
  let width := style.width.getD 0
  let least := if style.colons = 0 || style.colons = 3 then ['0'] else digits.drop 1
  match style.pad with
  | some '-' => '+' :: least
  | some '_' => List.replicate (max width (digits.length + 1) - least.length - 1) ' ' ++ '+' :: least
  | _ => '+' :: List.replicate (width - digits.length - 1) '0' ++ digits

/-- Digits of a fraction of a second, padded on their right. Where nothing is said of their number,
all of them are written. -/
def fraction (style : Style) (nanos : Nat) : List Char :=
  let digits := (toString nanos).toList
  let width := style.width.getD 9
  let kept := ((List.replicate (9 - digits.length) '0' ++ digits).take width).reverse
  let bare := (kept.dropWhile (· = '0')).reverse
  let bare := if bare.isEmpty then ['0'] else bare
  let fill (c : Char) := bare ++ List.replicate (width - bare.length) c
  match style.pad with
  | some '-' => if style.width.isNone then fill '0' else bare
  | some '_' => fill ' '
  | _ => fill '0'

/-- What a letter stands for. -/
def part? (m : Moment) (style : Style) (letter : Char) : Option (List Char) :=
  let s := Shown.ofSeconds m.seconds
  let dayName := (dayNames[s.weekday.toNat]?).getD ""
  let monthName := (monthNames[(s.month - 1).toNat]?).getD ""
  let two := style.number '0' 2
  match letter with
  | 'a' => some (style.word (short dayName))
  | 'A' => some (style.word dayName)
  | 'b' | 'h' => some (style.word (short monthName))
  | 'B' => some (style.word monthName)
  | 'c' =>
    let day := toString s.day
    some (style.word (short dayName ++ " " ++ short monthName ++ " " ++
      (if day.length < 2 then " " ++ day else day) ++ " " ++ clock s ++ ":" ++ padded s.second ++
      " " ++ toString s.year))
  | 'C' => some (style.years 2 (s.year.fdiv 100))
  | 'd' => some (two s.day)
  | 'D' | 'x' => some (style.word (slashed s))
  | 'e' => some (style.number ' ' 2 s.day)
  | 'F' => some (yearMonthDay style s)
  | 'g' => some (two ((isoWeek s).1.fmod 100))
  | 'G' => some (style.years 4 (isoWeek s).1)
  | 'H' => some (two s.hour)
  | 'I' => some (two (hourOfTwelve s))
  | 'j' => some (style.number '0' 3 (s.dayOfYear + 1))
  | 'k' => some (style.number ' ' 2 s.hour)
  | 'l' => some (style.number ' ' 2 (hourOfTwelve s))
  | 'm' => some (two s.month)
  | 'M' => some (two s.minute)
  | 'n' => some (style.word "\n")
  | 'N' => some (fraction style m.nanos)
  | 'p' => some (style.word (half s) Char.toLower)
  | 'P' => some (style.word (half s).toLower)
  | 'q' => some (style.number '0' 1 ((s.month + 2) / 3))
  | 'r' => some (style.word (padded (hourOfTwelve s) ++ ":" ++ padded s.minute ++ ":" ++
      padded s.second ++ " " ++ half s))
  | 'R' => some (style.word (clock s))
  | 's' => some (style.number '0' 1 m.seconds)
  | 'S' => some (two s.second)
  | 't' => some (style.word "\t")
  | 'T' | 'X' => some (style.word (clock s ++ ":" ++ padded s.second))
  | 'u' => some (style.number '0' 1 ((s.weekday + 6) % 7 + 1))
  | 'U' => some (two (weekOfYear 0 s))
  | 'V' => some (two (isoWeek s).2)
  | 'w' => some (style.number '0' 1 s.weekday)
  | 'W' => some (two (weekOfYear 1 s))
  | 'y' => some (two (s.year.fmod 100))
  | 'Y' => some (style.years 4 s.year)
  | 'z' => some (offset style)
  | 'Z' => some (style.word "UTC" Char.toLower)
  | '%' => some (style.word "%")
  | _ => none

/-- Flags, a width, colons and marks of other spellings before a letter; the rest. -/
def style (style : Style) : Nat → List Char → Style × List Char
  | 0, cs => (style, cs)
  | fuel + 1, cs => match cs with
    | [] => (style, [])
    | c :: rest => match style.flag c with
      | some style => Calendar.style style fuel rest
      | none =>
        let digits := cs.takeWhile Char.isDigit
        let style := { style with width := Chars.number? digits }
        let cs := cs.drop digits.length
        let colons := (cs.takeWhile (· = ':')).length
        let cs := cs.drop colons
        let cs := match cs with
          | 'E' :: letter :: more => if "cCxXyY".toList.contains letter then letter :: more else cs
          | 'O' :: letter :: more =>
            if "deHImMSuUVwWy".toList.contains letter then letter :: more else cs
          | _ => cs
        ({ style with colons }, cs)

/-- Writes a moment; what stands for nothing stays as it is. -/
def format (m : Moment) : Nat → List Char → List Char
  | 0, _ => []
  | _ + 1, [] => []
  | fuel + 1, '%' :: rest =>
    let (how, more) := style {} rest.length rest
    match more with
    | letter :: after =>
      let isPlain := how.colons = 0 && (letter != '%' || more.length = rest.length)
      if isPlain || (letter = 'z' && how.colons < 4) then match part? m how letter with
        | some text => text ++ format m fuel after
        | none => how.word (String.ofList ('%' :: rest.take (rest.length - after.length))) id ++
            format m fuel after
      else
        let kept := if letter = '%' then more else after
        how.word (String.ofList ('%' :: rest.take (rest.length - kept.length))) id ++
          format m fuel kept
    | [] => how.word (String.ofList ('%' :: rest)) id
  | fuel + 1, c :: rest => c :: format m fuel rest

def write (m : Moment) (form : String) : List Char := format m (form.length + 1) form.toList

end LayerCache.Calendar
