import LayerCache.Shell.Calendar.Basic
import LayerCache.Text.Ascii
import LayerCache.Text.Lines

/-! Dates and times as people write them: items in any order, each of which gives a date, a time of
day, a zone, a day of the week or a step from there. -/
namespace LayerCache.Calendar

inductive Unit where
  | year
  | month
  | day
  | second
  deriving DecidableEq, Repr

inductive Token where
  /-- A number, its digits, and behind a point a part of a billion. -/
  | number (signed : Bool) (value : Int) (digits : Nat) (fraction : Option Nat)
  | half (later : Bool)
  | month (n : Int)
  | weekday (n : Int)
  | zone (minutes : Int)
  /-- A step of so many of a unit. -/
  | unit (u : Unit) (count : Int)
  | ordinal (n : Int)
  /-- Days from today. -/
  | shift (n : Int)
  | backwards
  | separator
  | mark (c : Char)
  deriving DecidableEq, Repr

def zones : List (String × Int) :=
  [("gmt", 0), ("ut", 0), ("utc", 0), ("wet", 0), ("west", 60), ("bst", 60), ("art", -180),
    ("brt", -180), ("ast", -240), ("adt", -180), ("est", -300), ("edt", -240), ("cst", -360),
    ("cdt", -300), ("mst", -420), ("mdt", -360), ("pst", -480), ("pdt", -420), ("akst", -540),
    ("hst", -600), ("cet", 60), ("cest", 120), ("met", 60), ("mest", 120), ("eet", 120),
    ("eest", 180), ("msk", 180), ("ist", 330), ("sgt", 480), ("jst", 540), ("nzst", 720)]

def units : List (String × Unit × Int) :=
  [("year", .year, 1), ("month", .month, 1), ("fortnight", .day, 14), ("week", .day, 7),
    ("day", .day, 1), ("hour", .second, 3600), ("minute", .second, 60), ("min", .second, 60),
    ("second", .second, 1), ("sec", .second, 1)]

def ordinals : List (String × Int) :=
  [("last", -1), ("this", 0), ("next", 1), ("first", 1), ("third", 3), ("fourth", 4),
    ("fifth", 5), ("sixth", 6), ("seventh", 7), ("eighth", 8), ("ninth", 9), ("tenth", 10),
    ("eleventh", 11), ("twelfth", 12)]

/-- Other spellings of days and months. -/
def shortened : List (String × Token) :=
  [("sept", .month 9), ("tues", .weekday 2), ("wednes", .weekday 3), ("thur", .weekday 4),
    ("thurs", .weekday 4)]

/-- The place in a list of names of one that a word is, or that it is short for. -/
def named? (names : List String) (word : String) : Option Int :=
  let isShort := word.length = 3 || (word.length = 4 && Text.endsWith word ".")
  let names := names.map String.toLower
  let i := names.findIdx fun name =>
    if isShort then short name = short word else name = word
  if i < names.length then some i else none

/-- A zone by one letter. -/
def letterZone? (c : Char) : Option Token :=
  if c = 't' then some .separator
  else if c = 'z' then some (.zone 0)
  else if 'a' ≤ c && c ≤ 'i' then some (.zone ((c.toNat - 96 : Nat) * 60))
  else if 'k' ≤ c && c ≤ 'm' then some (.zone ((c.toNat - 97 : Nat) * 60))
  else if 'n' ≤ c && c ≤ 'y' then some (.zone (-((c.toNat - 109 : Nat) * 60 : Int)))
  else none

def word? (text : String) : Option Token :=
  let word := text.toLower
  let bare := if Text.endsWith word "s" then String.ofList word.toList.dropLast else word
  let dotless := String.ofList (word.toList.filter (· != '.'))
  let unit? (w : String) := (units.lookup w).map fun (u, n) => Token.unit u n
  (if dotless = "am" || dotless = "pm" then some (.half (dotless = "pm")) else none)
  |>.or ((named? monthNames word).map fun n => .month (n + 1))
  |>.or ((named? dayNames word).map .weekday)
  |>.or (shortened.lookup word)
  |>.or ((zones.lookup word).map .zone)
  |>.or (unit? word)
  |>.or (unit? bare)
  |>.or ([("tomorrow", 1), ("yesterday", -1), ("today", 0), ("now", 0)].lookup word |>.map .shift)
  |>.or ((ordinals.lookup word).map .ordinal)
  |>.or (if word = "ago" then some .backwards else none)
  |>.or (match word.toList with
    | [c] => letterZone? c
    | _ => none)
  |>.or ((zones.lookup dotless).map .zone)

/-- A fraction behind a point or comma, in billionths, and the rest. -/
def fraction? : List Char → Option (Nat × List Char)
  | c :: rest =>
    let digits := rest.takeWhile Char.isDigit
    if (c = '.' || c = ',') && !digits.isEmpty then
      let nine := (digits ++ List.replicate 9 '0').take 9
      some ((Chars.number? nine).getD 0, rest.drop digits.length)
    else none
  | [] => none

def isBlank (c : Char) : Bool := c = ' ' || ('\t' ≤ c && c ≤ '\r')

/-- What stands in brackets is no part of a date. -/
def skipNote : Nat → List Char → List Char
  | _, [] => []
  | depth, c :: rest =>
    if c = ')' then if depth ≤ 1 then rest else skipNote (depth - 1) rest
    else skipNote (if c = '(' then depth + 1 else depth) rest

def tokens : Nat → List Char → Option (List Token)
  | 0, _ => some []
  | _ + 1, [] => some []
  | fuel + 1, c :: rest =>
    if isBlank c then tokens fuel rest
    else if c = '(' then tokens fuel (skipNote 1 rest)
    else if c.isDigit || c = '-' || c = '+' then
      let signed := !c.isDigit
      let cs := if signed then rest.dropWhile isBlank else c :: rest
      let digits := cs.takeWhile Char.isDigit
      match Chars.number? digits with
      | none => tokens fuel cs
      | some n =>
        let after := cs.drop digits.length
        let value : Int := if c = '-' then -(n : Int) else n
        match fraction? after with
        | some (f, after) =>
          (tokens fuel after).map (.number signed value digits.length (some f) :: ·)
        | none => (tokens fuel after).map (.number signed value digits.length none :: ·)
    else if c.isAlpha then
      let word := (c :: rest).takeWhile fun c => c.isAlpha || c = '.'
      match word? (String.ofList word) with
      | some t => (tokens fuel (rest.drop (word.length - 1))).map (t :: ·)
      | none => none
    else (tokens fuel rest).map (.mark c :: ·)

/-- What the items of a text have given so far; each of the first four may be given once. -/
structure Items where
  /-- A year, how many digits it has, a month and a day. -/
  date : Option (Option (Int × Nat) × Int × Int) := none
  /-- Hours, minutes, seconds and a part of a second. -/
  time : Option (Int × Int × Int × Nat) := none
  weekday : Option (Int × Int) := none
  zone : Option Int := none
  steps : List (Unit × Int) := []
  deriving Repr

namespace Items

def setDate (s : Items) (year : Option (Int × Nat)) (month day : Int) : Option Items :=
  if s.date.isSome then none else some { s with date := some (year, month, day) }

def setTime (s : Items) (hour minute second : Int) (nanos : Nat) : Option Items :=
  if s.time.isSome || hour < 0 then none
  else some { s with time := some (hour, minute, second, nanos) }

def setWeekday (s : Items) (ordinal day : Int) : Option Items :=
  if s.weekday.isSome then none else some { s with weekday := some (ordinal, day) }

def setZone (s : Items) (minutes : Int) : Option Items :=
  if s.zone.isSome || 1440 < minutes.natAbs then none else some { s with zone := some minutes }

def step (s : Items) (u : Unit) (n : Int) : Items := { s with steps := s.steps ++ [(u, n)] }

end Items

/-- Hours of a half of a day; one that is none is below zero. -/
def hourOf (later : Option Bool) (hour : Int) : Int :=
  match later with
  | none => if 0 ≤ hour && hour < 24 then hour else -1
  | some later =>
    if hour < 1 || 12 < hour then -1 else hour % 12 + if later then 12 else 0

/-- An offset as hours, as hours and minutes in one number, or with a colon between. -/
def offsetOf (value : Int) (digits : Nat) : List Token → Int × List Token
  | .mark ':' :: .number false minutes _ none :: rest =>
    (value * 60 + (if value < 0 then -minutes else minutes), rest)
  | rest =>
    let n := if digits ≤ 2 then value * 100 else value
    (n.tdiv 100 * 60 + n.tmod 100, rest)

/-- What may follow a time: a half of the day or an offset. -/
def finishTime (s : Items) (hour minute second : Int) (nanos : Nat) :
    List Token → Option (Items × List Token)
  | .half later :: rest =>
    (s.setTime (hourOf (some later) hour) minute second nanos).map (·, rest)
  | .number true value digits none :: rest => do
    let (minutes, rest) := offsetOf value digits rest
    let s ← s.setTime (hourOf none hour) minute second nanos
    return (← s.setZone minutes, rest)
  | rest => (s.setTime (hourOf none hour) minute second nanos).map (·, rest)

/-- A number by itself: a year behind a date, a date in one piece, or a time. -/
def loneNumber (s : Items) (n : Int) (digits : Nat) : Option Items :=
  match s.date with
  | some (none, month, day) =>
    if s.steps.isEmpty && (s.time.isSome || 2 < digits) then
      some { s with date := some (some (n, digits), month, day) }
    else asTime
  | _ =>
    if 4 < digits then s.setDate (some (n / 10000, digits - 4)) (n / 100 % 100) (n % 100)
    else asTime
where
  asTime : Option Items :=
    if digits ≤ 2 then s.setTime (hourOf none n) 0 0 0
    else s.setTime (hourOf none (n / 100)) (n % 100) 0 0

/-- A step, which may be turned back by the word behind it. -/
def takeStep (s : Items) (u : Unit) (n : Int) : List Token → Items × List Token
  | .backwards :: rest => (s.step u (-n), rest)
  | rest => (s.step u n, rest)

def item? (s : Items) : List Token → Option (Items × List Token)
  | .number false hour _ none :: .mark ':' :: .number false minute _ none :: .mark ':' ::
      .number false second _ part :: rest =>
    finishTime s hour minute second (part.getD 0) rest
  | .number false hour _ none :: .mark ':' :: .number false minute _ none :: rest =>
    finishTime s hour minute 0 0 rest
  | .number false hour _ none :: .half later :: rest =>
    finishTime s hour 0 0 0 (.half later :: rest)
  | .number false a d none :: .mark '/' :: .number false b _ none :: .mark '/' ::
      .number false c e none :: rest =>
    if 4 ≤ d then (s.setDate (some (a, d)) b c).map (·, rest)
    else (s.setDate (some (c, e)) a b).map (·, rest)
  | .number false a _ none :: .mark '/' :: .number false b _ none :: rest =>
    (s.setDate none a b).map (·, rest)
  | .number false year d none :: .number true month _ none :: .number true day _ none :: rest =>
    (s.setDate (some (year, d)) (-month) (-day)).bind fun s => match rest with
      | .separator :: .number false hour e none :: .mark ':' :: rest =>
        some (s, .number false hour e none :: .mark ':' :: rest)
      | .separator :: .number _ _ _ _ :: _ => none
      | rest => some (s, rest)
  | .number false day _ none :: .month month :: .number signed year d none :: rest =>
    match signed, rest with
    | false, .mark ':' :: _ =>
      (s.setDate none month day).map (·, .number signed year d none :: rest)
    | _, _ => (s.setDate (some (if signed then -year else year, d)) month day).map (·, rest)
  | .number false day _ none :: .month month :: rest => (s.setDate none month day).map (·, rest)
  | .number false n _ none :: .weekday day :: rest => (s.setWeekday n day).map (·, rest)
  | .number _ n _ none :: .unit u count :: rest => some (takeStep s u (n * count) rest)
  | .number false n d none :: rest => (loneNumber s n d).map (·, rest)
  | .month month :: .number false day _ none :: .mark ',' :: .number false year d none :: rest =>
    (s.setDate (some (year, d)) month day).map (·, rest)
  | .month month :: .number false day _ none :: rest => (s.setDate none month day).map (·, rest)
  | .month month :: .number true day _ none :: .number true year d none :: rest =>
    (s.setDate (some (-year, d)) month (-day)).map (·, rest)
  | .weekday day :: .mark ',' :: rest => (s.setWeekday 0 day).map (·, rest)
  | .weekday day :: rest => (s.setWeekday 0 day).map (·, rest)
  | .ordinal n :: .weekday day :: rest => (s.setWeekday n day).map (·, rest)
  | .ordinal n :: .unit u count :: rest => some (takeStep s u (n * count) rest)
  | .unit u count :: rest => some (takeStep s u count rest)
  | .shift n :: rest => some (s.step .day n, rest)
  | .zone minutes :: .number true value digits none :: rest =>
    match rest with
    | .unit _ _ :: _ => (s.setZone minutes).map (·, .number true value digits none :: rest)
    | _ =>
      let (more, rest) := offsetOf value digits rest
      (s.setZone (minutes + more)).map (·, rest)
  | .zone minutes :: rest => (s.setZone minutes).map (·, rest)
  | .separator :: rest => (s.setZone (-420)).map (·, rest)
  | _ => none

def items : Nat → Items → List Token → Option Items
  | _, s, [] => some s
  | 0, _, _ => none
  | fuel + 1, s, ts => do
    let (s, rest) ← item? s ts
    items fuel s rest

/-- Two digits mean a year near now. -/
def wholeYear (year : Int) (digits : Nat) : Int :=
  if digits = 2 then year + if year < 69 then 2000 else 1900 else year.natAbs

/-- The moment that items mean, seen from now. -/
def Items.moment? (s : Items) (now : Moment) : Option Moment := do
  let today := Shown.ofSeconds now.seconds
  let (year, month, day) := match s.date with
    | some (some (year, digits), month, day) => (wholeYear year digits, month, day)
    | some (none, month, day) => (today.year, month, day)
    | none => (today.year, today.month, today.day)
  let stays := s.date.isNone && s.weekday.isNone && s.time.isNone && !s.steps.isEmpty
  let (hour, minute, second, nanos) := match s.time with
    | some time => time
    | none => if stays then (today.hour, today.minute, today.second, now.nanos) else (0, 0, 0, 0)
  let start : Shown := { year, month, day, hour, minute, second }
  if Shown.ofSeconds start.seconds != start then none
  let sum (u : Unit) : Int := s.steps.foldl (fun n (v, k) => if v = u then n + k else n) 0
  let toDay : Int := match s.date, s.weekday with
    | none, some (ordinal, day) =>
      (day - start.weekday + 7) % 7 +
        7 * (ordinal - if 0 < ordinal && start.weekday != day then 1 else 0)
    | _, _ => 0
  let there : Shown :=
    { start with
      year := start.year + sum .year
      month := start.month + sum .month
      day := start.day + toDay + sum .day }
  return ⟨there.seconds - s.zone.getD 0 * 60 + sum .second, nanos⟩

/-- A moment given by its seconds. -/
def absolute? (text : List Char) : Option Moment :=
  match tokens text.length text with
  | some [.number _ value _ part] =>
    let isNegative := (text.dropWhile isBlank).head? == some '-'
    match part with
    | none | some 0 => some ⟨value, 0⟩
    | some f => if isNegative then some ⟨value - 1, 1000000000 - f⟩ else some ⟨value, f⟩
  | _ => none

/-- Reads a text as a moment seen from now. -/
def read? (now : Moment) (text : String) : Option Moment :=
  match text.toList.dropWhile isBlank with
  | '@' :: rest => absolute? rest
  | cs => do
    let ts ← tokens (cs.length + 1) cs
    (← items (ts.length + 1) {} ts).moment? now

/-- A text of digits: month, day, hour and minute, with a year in front and seconds behind a dot
if they are given. -/
def readStamp? (now : Moment) (text : String) : Option Moment := do
  let cs := text.toList
  let digits := cs.takeWhile (· != '.')
  let second ← match cs.drop digits.length with
    | [] => some 0
    | _ :: rest => if rest.length = 2 then Chars.number? rest else none
  discard (Chars.number? digits)
  let at? (i : Nat) : Option Nat := Chars.number? ((digits.drop i).take 2)
  let skipped := digits.length - 8
  let year : Int ← match digits.length with
    | 8 => some (Shown.ofSeconds now.seconds).year
    | 10 => (at? 0).map fun n => wholeYear n 2
    | 12 => (Chars.number? (digits.take 4)).map Int.ofNat
    | _ => none
  let s : Shown :=
    { year, month := ← at? skipped, day := ← at? (skipped + 2), hour := ← at? (skipped + 4)
      minute := ← at? (skipped + 6), second }
  if Shown.ofSeconds s.seconds != s then none
  return ⟨s.seconds, 0⟩

end LayerCache.Calendar
