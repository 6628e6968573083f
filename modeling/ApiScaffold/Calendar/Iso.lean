import ApiScaffold.Calendar
import ApiScaffold.Number.Reading
import ApiScaffold.Text.Quoted

/-!
Reading of dates and moments from ISO text. A day is given by month or by week, with hyphens between
its parts or without; a time may be cut short, and an offset may follow it.
-/

namespace ApiScaffold

/-- Why an ISO text is not read. -/
inductive IsoFault where
  | malformed (text : String)
  | outOfRange (fault : CalendarFault)
  deriving DecidableEq, Repr

def IsoFault.message : IsoFault → String
  | malformed text => s!"Invalid isoformat string: {Text.quoted text}"
  | outOfRange fault => fault.message

namespace Iso

/-- Reads a number of digits; gives what follows them. -/
def digits? (count : Nat) (s : List Char) : Option (Nat × List Char) :=
  let run := s.take count
  if run.length = count && run.all Char.isDigit then some (Number.natOfDigits run, s.drop count)
  else none

/-- Reads a hyphen, where parts are separated by one. -/
def hyphen? (separated : Bool) (s : List Char) : Option (List Char) :=
  if !separated then some s
  else
    match s with
    | '-' :: rest => some rest
    | _ => none

/-! ### Days -/

/-- A day as it is given. -/
inductive DayFields where
  | ofMonth (year month day : Nat)
  | ofWeek (year week day : Nat)
  deriving DecidableEq, Repr

/-- Reads a day. One given by week may lack its last part where the text is not long enough for it. -/
def dayFields? (length : Nat) (s : List Char) : Option DayFields := do
  let (year, rest) ← digits? 4 s
  let separated := rest.head? == some '-'
  match ← hyphen? separated rest with
  | 'W' :: rest =>
    let (week, rest) ← digits? 2 rest
    if s.length - rest.length < length then
      let (day, _) ← (hyphen? separated rest).bind (digits? 1)
      return .ofWeek year week day
    else return .ofWeek year week 1
  | rest =>
    let (month, rest) ← digits? 2 rest
    let (day, _) ← (hyphen? separated rest).bind (digits? 2)
    return .ofMonth year month day

/-- Goes from month to month until a day is in it; days count from zero. -/
def monthAndDay (year month day : Nat) : Nat → Nat × Nat
  | 0 => (month, day)
  | fuel + 1 =>
    let length := Date.daysInMonth year month
    if day < length then (month, day) else monthAndDay year (month + 1) (day - length) fuel

/-- The date so many days after the start of a year. A few days before it and after its end are in the
years next to it. -/
def dateInYear (year : Nat) (day : Int) : Except CalendarFault Date :=
  let length : Int := if Date.isLeapYear year then 366 else 365
  if day < 0 then Date.make (year - 1) 12 (32 + day).toNat
  else if length ≤ day then Date.make (year + 1) 1 (day - length + 1).toNat
  else
    let (month, day) := monthAndDay year 1 day.toNat 11
    Date.make year month (day + 1)

/-- The weekday on which a year starts; Monday is zero. -/
def firstWeekday (year : Nat) : Nat := Date.ordinal ⟨year, 1, 1⟩ % 7

/-- Whether a year has a week of a number. It has 53 weeks if it starts on a Thursday, or on a
Wednesday and has a leap day. -/
def hasWeek (year week : Nat) : Bool :=
  (1 ≤ week && week ≤ 52)
    || (week == 53 && (firstWeekday year == 3 || (firstWeekday year == 2 && Date.isLeapYear year)))

/-- The date of a day of a week. The first week of a year is the one with its first Thursday. -/
def weekDate? (year week day : Nat) : Option (Except CalendarFault Date) :=
  if !hasWeek year week || day = 0 || 7 < day then none
  else if year = 0 then some (.error .month)
  else
    let first : Int := firstWeekday year
    let monday := if 3 < first then 7 - first else -first
    some (dateInYear year (monday + ((week - 1) * 7 + day - 1 : Nat)))

/-- Reads a date in the first characters of a text. -/
def readDate? (length : Nat) (s : List Char) : Option (Except CalendarFault Date) := do
  match ← dayFields? length s with
  | .ofMonth year month day => some (Date.make year month day)
  | .ofWeek year week day => weekDate? year week day

/-- The number of characters that a date at the start of a text takes. Where a week is followed by
digits, their number tells whether a day of the week is among them. -/
def dateLength (s : List Char) : Nat :=
  let c := s.getD 5 ' '
  if s.length = 7 then 7
  else if s.getD 4 ' ' == '-' then
    if c == 'W' then
      if s.getD 8 ' ' == '-' && s.length ≠ 9 && !(s.getD 10 ' ').isDigit then 10 else 8
    else 10
  else if s.getD 4 ' ' == 'W' then
    let last := 7 + ((s.drop 7).takeWhile Char.isDigit).length
    if last < 9 then last else if last % 2 = 0 then 7 else 8
  else 8

/-! ### Times -/

/-- A time of day or an offset as it is given: hours, minutes and seconds as far as they are there,
microseconds, and whether something was left. -/
structure ClockFields where
  parts : List Nat
  microsecond : Nat
  hasRest : Bool
  deriving DecidableEq, Repr

/-- Reads a fraction of a second after the parts before it. Digits from the seventh on are cut off. -/
def fraction? (parts : List Nat) (s : List Char) : Option ClockFields := do
  let count := min 6 s.length
  let (n, rest) ← digits? count s
  return ⟨parts, n * tenTo (6 - count), !(rest.dropWhile Char.isDigit).isEmpty⟩

/-- Reads parts of two digits each, as many as may still come, and a fraction after them. One
character after a part is left where it is. -/
def clockParts? (parts : List Nat) (separated : Bool) (s : List Char) : Nat → Option ClockFields
  | 0 => fraction? parts s
  | fuel + 1 => do
    let (n, rest) ← digits? 2 s
    let parts := parts ++ [n]
    let separated := if parts.length = 1 then rest.head? == some ':' else separated
    match rest with
    | [] => return ⟨parts, 0, false⟩
    | [_] => return ⟨parts, 0, true⟩
    | c :: more =>
      if separated && c == ':' then clockParts? parts separated more fuel
      else if c == '.' || c == ',' then fraction? parts more
      else if separated then none
      else clockParts? parts separated rest fuel

/-- Reads hours, minutes, seconds and a fraction. -/
def clock? (s : List Char) : Option ClockFields := clockParts? [] false s 3

/-- The microseconds from the hours, minutes and seconds on. -/
def ClockFields.span (clock : ClockFields) : Int :=
  let part (i : Nat) : Int := clock.parts.getD i 0
  ((part 0 * 60 + part 1) * 60 + part 2) * 1000000

/-- Reads the offset after a time. One of no whole seconds is none at all. -/
def offset? : List Char → Option Int
  | 'Z' :: rest => if rest.isEmpty then some 0 else none
  | c :: rest => do
    let clock ← clock? rest
    if clock.hasRest then none
    else if clock.span = 0 then some 0
    else
      let span := clock.span + (clock.microsecond : Int)
      some (if c == '-' then -span else span)
  | [] => none

def beginsOffset (c : Char) : Bool := c == '+' || c == '-' || c == 'Z'

/-- Reads a time with an offset, if one follows. -/
def time? (s : List Char) : Option (ClockFields × Option Int) := do
  let zone := s.dropWhile fun c => !beginsOffset c
  let clock ← clock? (s.takeWhile fun c => !beginsOffset c)
  if zone.isEmpty then if clock.hasRest then none else some (clock, none)
  else some (clock, some (← offset? zone))

end Iso

def Date.ofIso (text : String) : Except IsoFault Date :=
  let length := text.utf8ByteSize
  if length ≠ 7 && length ≠ 8 && length ≠ 10 then .error (.malformed text)
  else
    match Iso.readDate? length text.toList with
    | none => .error (.malformed text)
    | some date => date.mapError .outOfRange

/-- Reads a moment from ISO text; any character may stand between date and time. -/
def Moment.ofIso (text : String) : Except IsoFault Moment :=
  let s := text.toList
  let length := Iso.dateLength s
  let time : Option (Iso.ClockFields × Option Int) :=
    match s.drop length with
    | [] => some (⟨[], 0, false⟩, none)
    | _ :: rest => Iso.time? rest
  match Iso.readDate? length s, time with
  | some date, some (clock, offset) =>
    let made : Except CalendarFault Moment := do
      match offset with
      | some span => unless Moment.offsetFits span do throw (.offset span)
      | none => pure ()
      let date ← date
      let part (i : Nat) : Nat := clock.parts.getD i 0
      Moment.make date.year date.month date.day (part 0) (part 1) (part 2) clock.microsecond offset
    made.mapError .outOfRange
  | _, _ => .error (.malformed text)

end ApiScaffold
