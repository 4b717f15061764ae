/-!
The proleptic Gregorian calendar in UTC, by day numbers counted from 1 January 1970, and the
instants that lie on it. Instants are milliseconds and cover the years -262143 to 262142.
-/

namespace Telemetry

/-- A day of the calendar, as year, month and day of the month. -/
structure Date where
  year : Int
  month : Int
  day : Int
  deriving DecidableEq

namespace Date

def firstYear : Int := -262143

def lastYear : Int := 262142

/-- Every fourth year is a leap year, except the centuries that 400 does not divide. -/
def isLeapYear (year : Int) : Bool :=
  year % 4 == 0 && (year % 100 != 0 || year % 400 == 0)

/-- The day number of 1 January of a year. -/
def yearStart (year : Int) : Int :=
  365 * (year - 1970) + ((year - 1) / 4 - (year - 1) / 100 + (year - 1) / 400) - 477

/-- What February lacks of thirty days, counted from the months after it. -/
def februaryGap (year : Int) : Int :=
  if isLeapYear year then 1 else 2

/-- The days of a year that precede the first day of a month. -/
def monthStart (year month : Int) : Int :=
  (367 * month - 362) / 12 - if month ≤ 2 then 0 else februaryGap year

def daysInMonth (year month : Int) : Int :=
  monthStart year (month + 1) - monthStart year month

/-- Whether the three parts name a day of the calendar. -/
def isValid (date : Date) : Bool :=
  firstYear ≤ date.year && date.year ≤ lastYear
    && 1 ≤ date.month && date.month ≤ 12
    && 1 ≤ date.day && date.day ≤ daysInMonth date.year date.month

/-- The number of days from 1 January 1970 to a date. -/
def dayNumber (date : Date) : Int :=
  yearStart date.year + monthStart date.year date.month + date.day - 1

/-- The year that holds a day number. The mean length of a year gives it up to one. -/
def yearOf (number : Int) : Int :=
  let guess := 400 * number / 146097 + 1970
  if number < yearStart guess then guess - 1
  else if number < yearStart (guess + 1) then guess
  else guess + 1

/-- The month that holds the day of a year, days of a year being counted from zero. -/
def monthOf (year dayOfYear : Int) : Int :=
  (12 * (dayOfYear + if dayOfYear < monthStart year 3 then 0 else februaryGap year) + 373) / 367

def ofDayNumber (number : Int) : Date :=
  let year := yearOf number
  let dayOfYear := number - yearStart year
  let month := monthOf year dayOfYear
  ⟨year, month, dayOfYear - monthStart year month + 1⟩

end Date

def millisPerDay : Int := 86400000

/-- A point in time within the calendar, in milliseconds since 1970-01-01T00:00 UTC. -/
structure Instant where
  millis : Int
  onCalendar : -8334601228800000 ≤ millis ∧ millis ≤ 8210266876799999
  deriving DecidableEq

namespace Instant

/-- The instant of a count of milliseconds, if the calendar reaches it. -/
def ofMillis? (millis : Int) : Option Instant :=
  if h : -8334601228800000 ≤ millis ∧ millis ≤ 8210266876799999 then some ⟨millis, h⟩ else none

/-- The start of the calendar. -/
def first : Instant := ⟨-8334601228800000, by decide⟩

/-- The day number of the day that holds an instant. -/
def dayNumber (instant : Instant) : Int :=
  instant.millis / millisPerDay

def date (instant : Instant) : Date :=
  Date.ofDayNumber instant.dayNumber

/-- The whole seconds passed since midnight. -/
def secondOfDay (instant : Instant) : Int :=
  instant.millis % millisPerDay / 1000

def hour (instant : Instant) : Int :=
  instant.secondOfDay / 3600

def minute (instant : Instant) : Int :=
  instant.secondOfDay / 60 % 60

def second (instant : Instant) : Int :=
  instant.secondOfDay % 60

/-- The instant at which a clock shows a time of day, if date and time exist. -/
def ofClock? (date : Date) (hour minute second : Int) : Option Instant :=
  if date.isValid && 0 ≤ hour && hour < 24 && 0 ≤ minute && minute < 60
      && 0 ≤ second && second < 60 then
    ofMillis? (date.dayNumber * millisPerDay + (hour * 3600 + minute * 60 + second) * 1000)
  else none

end Instant

end Telemetry
