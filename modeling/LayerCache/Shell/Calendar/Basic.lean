/-! Moments as seconds since 1970, and as a calendar and a clock show them. All of it is universal
time; no day has a leap second. -/
namespace LayerCache

/-- A moment, in whole seconds and the rest of a second. -/
structure Moment where
  seconds : Int
  nanos : Nat := 0
  deriving DecidableEq, Repr

namespace Calendar

/-- A moment as a calendar and a clock show it. -/
structure Shown where
  year : Int
  /-- From 1. -/
  month : Int
  day : Int
  hour : Int := 0
  minute : Int := 0
  second : Int := 0
  deriving DecidableEq, Repr

def daySeconds : Int := 86400

/-- Years counted from March, so that a leap day is the last of its year. -/
def eraDays : Int := 146097

/-- Days since 1970 of a day of a month; days may be out of the month. -/
def dayNumber (year month day : Int) : Int :=
  let y := if month ≤ 2 then year - 1 else year
  let era := y.fdiv 400
  let yearOfEra := y - era * 400
  let fromMarch := (month + 9).fmod 12
  let dayOfYear := (153 * fromMarch + 2).fdiv 5 + day - 1
  era * eraDays + yearOfEra * 365 + yearOfEra.fdiv 4 - yearOfEra.fdiv 100 + dayOfYear - 719468

/-- The day of a month that is so many days after the first of 1970. -/
def ofDayNumber (days : Int) : Int × Int × Int :=
  let z := days + 719468
  let era := z.fdiv eraDays
  let dayOfEra := z - era * eraDays
  let yearOfEra := (dayOfEra - dayOfEra / 1460 + dayOfEra / 36524 - dayOfEra / 146096) / 365
  let dayOfYear := dayOfEra - (365 * yearOfEra + yearOfEra / 4 - yearOfEra / 100)
  let fromMarch := (5 * dayOfYear + 2) / 153
  let month := if fromMarch < 10 then fromMarch + 3 else fromMarch - 9
  let year := yearOfEra + era * 400 + if month ≤ 2 then 1 else 0
  (year, month, dayOfYear - (153 * fromMarch + 2) / 5 + 1)

def Shown.ofSeconds (seconds : Int) : Shown :=
  let days := seconds.fdiv daySeconds
  let (year, month, day) := ofDayNumber days
  let rest := seconds - days * daySeconds
  ⟨year, month, day, rest / 3600, rest / 60 % 60, rest % 60⟩

namespace Shown

/-- The moment that is shown; a month, day or hour too many leads on to the next. -/
def seconds (s : Shown) : Int :=
  let months := s.month - 1
  let year := s.year + months.fdiv 12
  let days := dayNumber year (months.fmod 12 + 1) 1 + s.day - 1
  days * daySeconds + s.hour * 3600 + s.minute * 60 + s.second

/-- From 0, which is Sunday. -/
def weekday (s : Shown) : Int := (dayNumber s.year s.month s.day + 4).fmod 7

/-- From 0. -/
def dayOfYear (s : Shown) : Int := dayNumber s.year s.month s.day - dayNumber s.year 1 1

end Shown

def monthNames : List String :=
  ["January", "February", "March", "April", "May", "June", "July", "August", "September",
    "October", "November", "December"]

def dayNames : List String :=
  ["Sunday", "Monday", "Tuesday", "Wednesday", "Thursday", "Friday", "Saturday"]

def short (name : String) : String := String.ofList (name.toList.take 3)

/-- Weeks begun by a weekday that lie before a day in its year. -/
def weekOfYear (first : Int) (s : Shown) : Int :=
  (s.dayOfYear + 7 - (s.weekday - first).fmod 7) / 7

/-- The year and week that a day's Thursday lies in. -/
def isoWeek (s : Shown) : Int × Int :=
  let thursday := dayNumber s.year s.month s.day - (s.weekday + 6) % 7 + 3
  let (year, _, _) := ofDayNumber thursday
  (year, (thursday - dayNumber year 1 1) / 7 + 1)

end Calendar
end LayerCache
