/-!
Days and moments of the proleptic Gregorian calendar. A date is held as the number of its day and
a moment as seconds since 1970-01-01 00:00:00, so that both are compared by number; the civil
fields are worked out from there.
-/

set_option autoImplicit false

namespace JoinIndex

/-- A day by its number, 0001-01-01 being day 1. Years run from -262143 to 262142. -/
structure Date where
  day : Int
  in_range : -95746129 ≤ day ∧ day ≤ 95745399
  deriving DecidableEq

/-- A moment without a time zone. The nanoseconds pass a whole second only in the last second of
a minute, where they count a leap second. -/
structure Moment where
  seconds : Int
  nanos : Nat
  in_range : -8334601228800 ≤ seconds ∧ seconds < 8210266876800
  nanos_lt : nanos < 1000000000 ∨ (seconds % 60 = 59 ∧ nanos < 2000000000)
  deriving DecidableEq

/-- A day by year, month and day of the month. -/
structure CivilDay where
  year : Int
  month : Nat
  day : Nat
  deriving DecidableEq, Repr

namespace CivilDay

def isLeapYear (year : Int) : Bool :=
  year % 4 = 0 && (year % 100 ≠ 0 || year % 400 = 0)

def daysInMonth (year : Int) (month : Nat) : Nat :=
  if month = 2 then if isLeapYear year then 29 else 28
  else if month = 4 || month = 6 || month = 9 || month = 11 then 30
  else 31

def isValid (c : CivilDay) : Bool :=
  1 ≤ c.month && c.month ≤ 12 && 1 ≤ c.day && c.day ≤ daysInMonth c.year c.month

/-- The number of a day. Years are counted from March here, so that a leap day ends its year, and
in cycles of 400 years, which have 146097 days each. -/
def number (c : CivilDay) : Int :=
  let year := if c.month ≤ 2 then c.year - 1 else c.year
  let cycle := year / 400
  let yearOfCycle := year % 400
  let dayOfYear : Int := ((153 * ((c.month + 9) % 12) + 2) / 5 : Nat) + (c.day : Int) - 1
  cycle * 146097 + yearOfCycle * 365 + yearOfCycle / 4 - yearOfCycle / 100 + dayOfYear - 305

def ofNumber (number : Int) : CivilDay :=
  let shifted := number + 305
  let cycle := shifted / 146097
  let dayOfCycle := shifted % 146097
  let yearOfCycle :=
    (dayOfCycle - dayOfCycle / 1460 + dayOfCycle / 36524 - dayOfCycle / 146096) / 365
  let dayOfYear :=
    (dayOfCycle - (365 * yearOfCycle + yearOfCycle / 4 - yearOfCycle / 100)).toNat
  let monthFromMarch := (5 * dayOfYear + 2) / 153
  let day := dayOfYear - (153 * monthFromMarch + 2) / 5 + 1
  let month := if monthFromMarch < 10 then monthFromMarch + 3 else monthFromMarch - 9
  let year := yearOfCycle + cycle * 400
  ⟨if month ≤ 2 then year + 1 else year, month, day⟩

def padded (width n : Nat) : String :=
  let digits := Nat.toDigits 10 n
  String.ofList (List.replicate (width - digits.length) '0' ++ digits)

/-- Years outside 0 to 9999 carry a sign; every year has at least four digits. -/
def text (c : CivilDay) : String :=
  let year := padded 4 c.year.natAbs
  let signed :=
    if c.year < 0 then "-" ++ year else if 9999 < c.year then "+" ++ year else year
  signed ++ "-" ++ padded 2 c.month ++ "-" ++ padded 2 c.day

end CivilDay

namespace Date

def civil (d : Date) : CivilDay :=
  CivilDay.ofNumber d.day

def ofNumber? (day : Int) : Option Date :=
  if h : -95746129 ≤ day ∧ day ≤ 95745399 then some ⟨day, h⟩ else none

def ofCivil? (c : CivilDay) : Option Date :=
  if c.isValid then ofNumber? c.number else none

def text (d : Date) : String :=
  d.civil.text

end Date

namespace Moment

def secondsPerDay : Int := 86400

/-- The number of 1970-01-01. -/
def epochDay : Int := 719163

def ofSeconds? (seconds : Int) (nanos : Nat) : Option Moment :=
  if hr : -8334601228800 ≤ seconds ∧ seconds < 8210266876800 then
    if hn : nanos < 1000000000 ∨ (seconds % 60 = 59 ∧ nanos < 2000000000) then
      some ⟨seconds, nanos, hr, hn⟩
    else none
  else none

def ofCivil? (c : CivilDay) (hour minute second nanos : Nat) : Option Moment :=
  if c.isValid && hour < 24 && minute < 60 && second < 60 then
    ofSeconds? ((c.number - epochDay) * secondsPerDay + (hour * 3600 + minute * 60 + second : Nat))
      nanos
  else none

def civil (m : Moment) : CivilDay :=
  CivilDay.ofNumber (m.seconds / secondsPerDay + epochDay)

def secondOfDay (m : Moment) : Nat :=
  (m.seconds % secondsPerDay).toNat

def hour (m : Moment) : Nat := m.secondOfDay / 3600

def minute (m : Moment) : Nat := m.secondOfDay / 60 % 60

def second (m : Moment) : Nat := m.secondOfDay % 60

/-- Microseconds since 1970-01-01 00:00:00, rounded down. A leap second counts on into the next
minute. -/
def micros (m : Moment) : Int :=
  m.seconds * 1000000 + (m.nanos / 1000 : Nat)

/-- Nanoseconds as a fraction in the fewest of no, three, six or nine digits that are exact. -/
def fractionText (nanos : Nat) : String :=
  if nanos = 0 then ""
  else if nanos % 1000000 = 0 then "." ++ CivilDay.padded 3 (nanos / 1000000)
  else if nanos % 1000 = 0 then "." ++ CivilDay.padded 6 (nanos / 1000)
  else "." ++ CivilDay.padded 9 nanos

/-- The time of the day, a leap second being second 60. -/
def timeText (m : Moment) : String :=
  let second := m.second + m.nanos / 1000000000
  CivilDay.padded 2 m.hour ++ ":" ++ CivilDay.padded 2 m.minute ++ ":" ++
    CivilDay.padded 2 second ++ fractionText (m.nanos % 1000000000)

def text (m : Moment) : String :=
  m.civil.text ++ " " ++ m.timeText

end Moment

end JoinIndex
