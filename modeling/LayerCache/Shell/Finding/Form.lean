import LayerCache.Shell.Finding.Expression
import LayerCache.Shell.Program.Decimals

/-! What is written of an entry that was found. -/
namespace LayerCache.Finding

open Program

/-- A moment by a letter. Seconds are told with ten digits behind the point. -/
def momentText (m : Moment) (letter : Char) : List Char :=
  let nanos := Chars.padLeft 9 (naturals m.nanos) '0' ++ ['0']
  let write (form : String) : List Char := Calendar.write m form
  match letter with
  | '@' => (toString m.seconds).toList ++ '.' :: nanos
  | 'S' => write "%S" ++ '.' :: nanos
  | 'T' | 'X' => write "%H:%M:%S" ++ '.' :: nanos
  | '+' => write "%Y-%m-%d+%H:%M:%S" ++ '.' :: nanos
  | c => write (String.ofList ['%', c])

def fullMoment (m : Moment) : List Char :=
  Calendar.write m "%a %b %e %H:%M:%S." ++ Chars.padLeft 9 (naturals m.nanos) '0' ++
    Calendar.write m "0 %Y"

/-- What a letter stands for. -/
def fact? (d : Disk) (v : Visit) (c : Char) : Option Facts.Fact :=
  let s := v.facts d
  let text (t : String) : Option Facts.Fact := some (.text t.toList)
  let number (n : Nat) : Option Facts.Fact := some (.text (naturals n))
  match c with
  | 'p' => text v.path
  | 'f' => text (if v.path.toList.all (· = '/') then v.path else endOf v.path)
  | 'h' => text v.folder
  | 'H' => text v.start
  | 'P' => text v.inner
  | 's' => number v.entry.size
  | 'm' => some (.inBase 8 (d.modeOf v.place v.entry))
  | 'M' => some (.text (Facts.letters s))
  | 'y' => some (.text [v.kind d])
  | 'Y' => some (.text [match v.entry with
      | .link _ => match d.look true (path v.path) with
        | .ok (place, entry) => Visit.kindLetter d place entry
        | .error .tooManyLinks => 'L'
        | .error .notFound | .error .notFolder => 'N'
        | .error _ => '?'
      | _ => v.kind d])
  | 'd' => some (.natural v.depth)
  | 'u' | 'g' => text "root"
  | 'U' | 'G' => number 0
  | 'n' => number (d.namesOf v.place v.entry)
  | 'i' => number (Facts.serial s)
  | 'b' => number v.entry.blocks
  | 'k' => number ((v.entry.blocks + 1) / 2)
  | 'l' => text ((v.target).getD "")
  | 'F' => text "overlay"
  | 'D' => number 64769
  | 'S' => text (if v.entry.size = 0 then "1" else
      String.ofList (Decimals.general 6 false (v.entry.blocks * 512) v.entry.size))
  | 'Z' => text ""
  | 'a' | 'c' | 't' => some (.text (fullMoment (momentOf d v.place)))
  | _ => none

/-- A directive behind its sign, and the rest; what is unknown stays as it is. -/
def directive (d : Disk) (v : Visit) (rest : List Char) : List Char × List Char :=
  let flags := rest.takeWhile ("-+ #0".toList.contains ·)
  let more := rest.drop flags.length
  let width := more.takeWhile Char.isDigit
  let more := more.drop width.length
  let dotted := more.head? == some '.'
  let digits := if dotted then (more.drop 1).takeWhile Char.isDigit else []
  let more := if dotted then more.drop (digits.length + 1) else more
  let l : Facts.Layout := ⟨flags, (Chars.number? width).getD 0, Chars.number? digits, dotted⟩
  match more with
  | '%' :: after => (['%'], after)
  | c :: k :: after =>
    if "ACT".toList.contains c then
      (l.write (.text (momentText (momentOf d v.place) k)), after)
    else match fact? d v c with
      | some f => (l.write f, k :: after)
      | none => ('%' :: flags ++ width ++ [c], k :: after)
  | [c] => match fact? d v c with
    | some f => (l.write f, [])
    | none => ('%' :: flags ++ width ++ [c], [])
  | [] => (['%'], [])

/-- An escape behind a backslash, and the rest; `none` ends the text. -/
def unescape : List Char → Option (List Char × List Char)
  | 'c' :: _ => none
  | 'x' :: rest => some (['\\', 'x'], rest)
  | 'e' :: rest => some (['\\', 'e'], rest)
  | '"' :: rest => some (['\\', '"'], rest)
  | rest => some (Facts.unescape rest)

/-- An entry by a form. -/
def written (d : Disk) (v : Visit) : Nat → List Char → List Char
  | 0, _ => []
  | _ + 1, [] => []
  | fuel + 1, '%' :: rest =>
    let (text, more) := directive d v rest
    text ++ written d v fuel more
  | fuel + 1, '\\' :: rest => match unescape rest with
    | some (text, more) => text ++ written d v fuel more
    | none => []
  | fuel + 1, c :: rest => c :: written d v fuel rest

/-- All about an entry in one line. -/
def longLine (d : Disk) (v : Visit) : List Char :=
  let s := v.facts d
  let column (width : Nat) (text : List Char) : List Char := Chars.padLeft width text ++ [' ']
  let m := momentOf d v.place
  let recent := d.clock - 15778476 ≤ m.seconds && m.seconds ≤ d.clock
  column 9 (naturals (Facts.serial s)) ++ column 6 (naturals ((v.entry.blocks + 1) / 2)) ++
    Facts.letters s ++ [' '] ++ column 3 (naturals (d.namesOf v.place v.entry)) ++
    Chars.padRight 8 "root".toList ++ [' '] ++ Chars.padRight 8 "root".toList ++ [' '] ++
    column 8 (naturals v.entry.size) ++
    Calendar.write m (if recent then "%b %e %H:%M " else "%b %e  %Y ") ++
    (Quoting.escaped [' ', '"'] v.path).toList ++
    (v.target.elim [] fun t => (" -> " ++ Quoting.escaped [' ', '"'] t).toList) ++ ['\n']

end LayerCache.Finding
