import ApiScaffold.Calendar
import ApiScaffold.Number.Reading

/-!
The written form of timestamps: a date, or a date, a time of day and an optional zone.
-/

namespace ApiScaffold.Yaml

/-- The time of day of a timestamp, with the digits of its fraction and its offset. -/
structure TimeFields where
  hour : Nat
  minute : Nat
  second : Nat
  fraction : List Char
  offset : Option Int
  deriving DecidableEq, Repr

/-- The fields of a timestamp as written. -/
structure TimestampFields where
  year : Nat
  month : Nat
  day : Nat
  fullWidth : Bool
  time : Option TimeFields
  deriving DecidableEq, Repr

def twoDigits? : List Char → Option (Nat × List Char)
  | a :: b :: rest =>
    if a.isDigit && b.isDigit then some (Number.natOfDigits [a, b], rest) else none
  | _ => none

def upToTwoDigits? (s : List Char) : Option (Nat × List Char) :=
  match twoDigits? s, s with
  | some read, _ => some read
  | none, a :: rest => if a.isDigit then some (Number.natOfDigits [a], rest) else none
  | none, [] => none

/-- Reads one given character. -/
def sign? (c : Char) : List Char → Option (List Char)
  | d :: rest => if d = c then some rest else none
  | [] => none

/-- Reads the zone after a time, up to the end: nothing, universal time, or an offset. -/
def readZone? (s : List Char) : Option (Option Int) :=
  if s.isEmpty then some none
  else
    match s.dropWhile fun c => c = ' ' || c = '\t' with
    | ['Z'] => some (some 0)
    | c :: rest =>
      if c = '+' || c = '-' then do
        let (hours, rest) ← upToTwoDigits? rest
        let minutes ←
          match rest with
          | [] => some 0
          | ':' :: rest => (twoDigits? rest).bind fun (m, rest) => if rest.isEmpty then some m else none
          | _ => none
        let total : Int := (hours * 60 + minutes : Int) * minuteSpan
        some (some (if c = '-' then -total else total))
      else none
    | [] => none

/-- Reads the time of day and the zone, up to the end. -/
def readTime? (s : List Char) : Option TimeFields := do
  let (hour, rest) ← upToTwoDigits? s
  let (minute, rest) ← (sign? ':' rest).bind twoDigits?
  let (second, rest) ← (sign? ':' rest).bind twoDigits?
  let (fraction, rest) :=
    match rest with
    | '.' :: rest => (rest.takeWhile Char.isDigit, rest.dropWhile Char.isDigit)
    | rest => ([], rest)
  let offset ← readZone? rest
  some ⟨hour, minute, second, fraction, offset⟩

/-- Drops the letter or the blanks between date and time. -/
def dropTimeMark? : List Char → Option (List Char)
  | c :: rest =>
    if c = 'T' || c = 't' then some rest
    else if c = ' ' || c = '\t' then some (rest.dropWhile fun c => c = ' ' || c = '\t')
    else none
  | [] => none

/-- Reads a timestamp up to the end of the text. -/
def readTimestamp? (s : List Char) : Option TimestampFields := do
  let (century, rest) ← twoDigits? s
  let (years, rest) ← twoDigits? rest
  let (month, afterMonth) ← (sign? '-' rest).bind upToTwoDigits?
  let (day, rest) ← (sign? '-' afterMonth).bind upToTwoDigits?
  let fullWidth := s.length - rest.length = 10
  let year := century * 100 + years
  if rest.isEmpty then some ⟨year, month, day, fullWidth, none⟩
  else do
    let time ← (dropTimeMark? rest).bind readTime?
    some ⟨year, month, day, fullWidth, some time⟩

/-- The microseconds a fraction stands for; digits beyond the sixth are cut off. -/
def microseconds (fraction : List Char) : Nat :=
  let digits := fraction.take 6
  Number.natOfDigits (digits ++ List.replicate (6 - digits.length) '0')

end ApiScaffold.Yaml
