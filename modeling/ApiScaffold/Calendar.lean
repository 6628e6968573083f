import ApiScaffold.Text.Hex

/-!
Calendar dates and moments, their range checks and their ISO text.
-/

namespace ApiScaffold

/-- A number with zeros in front up to a width. -/
def zeroPadded (width n : Nat) : String :=
  String.ofList (List.replicate (width - n.repr.length) '0') ++ n.repr

/-- Why fields form no date or time. -/
inductive CalendarFault where
  | year (value : Nat)
  | month
  | day
  | hour
  | minute
  | second
  | offset (span : Int)
  deriving DecidableEq, Repr

def minuteSpan : Int := 60000000

/-- A span of microseconds as whole days, and the seconds and microseconds left over. -/
def spanParts (span : Int) : List (String × Int) :=
  let seconds := Int.fdiv span 1000000
  [("days", Int.fdiv seconds 86400), ("seconds", Int.fmod seconds 86400),
    ("microseconds", Int.fmod span 1000000)]

/-- The display of a span of microseconds: its parts but for those that are zero. -/
def spanDisplay (span : Int) : String :=
  let parts := ((spanParts span).filter fun part => part.2 ≠ 0).map fun (name, n) => s!"{name}={n}"
  let shown := if parts.isEmpty then "0" else String.intercalate ", " parts
  s!"datetime.timedelta({shown})"

namespace CalendarFault

def message : CalendarFault → String
  | .year y => s!"year {y} is out of range"
  | .month => "month must be in 1..12"
  | .day => "day is out of range for month"
  | .hour => "hour must be in 0..23"
  | .minute => "minute must be in 0..59"
  | .second => "second must be in 0..59"
  | .offset span =>
    "offset must be a timedelta strictly between -timedelta(hours=24) and timedelta(hours=24), not "
      ++ spanDisplay span ++ "."

end CalendarFault

/-- A day of the Gregorian calendar. -/
structure Date where
  year : Nat
  month : Nat
  day : Nat
  deriving DecidableEq, Repr

namespace Date

def isLeapYear (year : Nat) : Bool := year % 4 == 0 && (year % 100 != 0 || year % 400 == 0)

def daysInMonth (year month : Nat) : Nat :=
  if month = 2 then (if isLeapYear year then 29 else 28)
  else if month = 4 || month = 6 || month = 9 || month = 11 then 30
  else 31

/-- Forms a date if the fields are in range. -/
def make (year month day : Nat) : Except CalendarFault Date :=
  if year = 0 || 9999 < year then .error (.year year)
  else if month = 0 || 12 < month then .error .month
  else if day = 0 || daysInMonth year month < day then .error .day
  else .ok ⟨year, month, day⟩

def iso (d : Date) : String :=
  s!"{zeroPadded 4 d.year}-{zeroPadded 2 d.month}-{zeroPadded 2 d.day}"

/-- Days since the first day of year one. -/
def ordinal (d : Date) : Nat :=
  let y := d.year - 1
  let leap := if 2 < d.month && isLeapYear d.year then 1 else 0
  let before := [0, 31, 59, 90, 120, 151, 181, 212, 243, 273, 304, 334].getD (d.month - 1) 0
  y * 365 + y / 4 - y / 100 + y / 400 + before + leap + (d.day - 1)

end Date

/-- A date with a time of day and, if known, the offset from universal time in microseconds. -/
structure Moment where
  date : Date
  hour : Nat
  minute : Nat
  second : Nat
  microsecond : Nat
  offset : Option Int
  deriving DecidableEq, Repr

namespace Moment

/-- Whether an offset is less than a day. -/
def offsetFits (span : Int) : Bool := span.natAbs < 1440 * minuteSpan.natAbs

/-- Forms a moment if the fields are in range; the offset is looked at first. -/
def make (year month day hour minute second microsecond : Nat) (offset : Option Int) :
    Except CalendarFault Moment := do
  match offset with
  | some span => unless offsetFits span do throw (.offset span)
  | none => pure ()
  let date ← Date.make year month day
  if 23 < hour then throw .hour
  if 59 < minute then throw .minute
  if 59 < second then throw .second
  return ⟨date, hour, minute, second, microsecond, offset⟩

/-- The text of a fraction of a second; there is none for zero. -/
def fractionText (microsecond : Nat) : String :=
  if microsecond = 0 then "" else "." ++ zeroPadded 6 microsecond

/-- The text of an offset, down to the minute or as far as it is not zero. -/
def offsetText (span : Int) : String :=
  let sign := if span < 0 then "-" else "+"
  let micro := span.natAbs % 1000000
  let seconds := span.natAbs / 1000000
  let rest := if seconds % 60 = 0 && micro = 0 then ""
    else ":" ++ zeroPadded 2 (seconds % 60) ++ fractionText micro
  s!"{sign}{zeroPadded 2 (seconds / 3600)}:{zeroPadded 2 (seconds / 60 % 60)}{rest}"

/-- ISO text with the given separator between date and time. -/
def isoWith (separator : String) (m : Moment) : String :=
  let fraction := fractionText m.microsecond
  let zone := (m.offset.map offsetText).getD ""
  s!"{m.date.iso}{separator}{zeroPadded 2 m.hour}:{zeroPadded 2 m.minute}:{zeroPadded 2 m.second}{fraction}{zone}"

def iso (m : Moment) : String := isoWith "T" m

/-- Microseconds of universal time since year one; the offset counts as zero if unknown. -/
def instant (m : Moment) : Int :=
  (m.date.ordinal * 1440 + m.hour * 60 + m.minute : Int) * minuteSpan
    + m.second * 1000000 + m.microsecond - m.offset.getD 0

/-- Two moments are the same if both are universal and name one instant, or neither is and all
fields agree. -/
def same (x y : Moment) : Bool :=
  x.offset.isSome == y.offset.isSome && x.instant == y.instant

end Moment

end ApiScaffold
