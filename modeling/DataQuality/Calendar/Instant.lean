import DataQuality.Decimal.Integer

/-!
# Dates and instants

Dates of the Gregorian calendar, extended to all years, and the number of days from the first of
January 1970. A written date is a year, a month and a day with hyphens between them. Blank characters
may stand before each number; a year without a sign has at most four digits, a month or day at most
two.

An instant is a second of universal time, counted from the beginning of 1970, and a fraction of it. A
leap second has no number of its own: it is a fraction of two seconds within the second before it. A
written instant is a date, a time of day, and the difference of the clock from universal time.
-/
namespace DataQuality

/-- A year, month and day. -/
structure Date where
  year : Int
  month : Nat
  day : Nat
  deriving DecidableEq, Repr

namespace Date

/-- Whether February of a year has 29 days. -/
def isLeapYear (year : Int) : Bool := year % 4 == 0 && (year % 100 != 0 || year % 400 == 0)

def daysInMonth (year : Int) (month : Nat) : Nat :=
  if month = 2 then if isLeapYear year then 29 else 28
  else if month = 4 || month = 6 || month = 9 || month = 11 then 30
  else 31

/-- The first year that is counted. -/
def minYear : Int := -262143

/-- The last year that is counted. -/
def maxYear : Int := 262142

def isValid (d : Date) : Bool :=
  minYear ≤ d.year && d.year ≤ maxYear && 1 ≤ d.month && d.month ≤ 12 &&
    1 ≤ d.day && d.day ≤ daysInMonth d.year d.month

/-- Days from the first of January 1970. Years are counted from March, so that the leap day is the
last of its year. -/
def toDays (d : Date) : Int :=
  let y : Int := if d.month ≤ 2 then d.year - 1 else d.year
  let era := y / 400
  let yearOfEra := y - era * 400
  let monthFromMarch : Int := if d.month ≤ 2 then (d.month : Int) + 9 else (d.month : Int) - 3
  let dayOfYear := (153 * monthFromMarch + 2) / 5 + (d.day : Int) - 1
  let dayOfEra := yearOfEra * 365 + yearOfEra / 4 - yearOfEra / 100 + dayOfYear
  era * 146097 + dayOfEra - 719468

/-- The date that lies a number of days after the first of January 1970. -/
def ofDays (days : Int) : Date :=
  let z := days + 719468
  let era := z / 146097
  let dayOfEra := z - era * 146097
  let yearOfEra := (dayOfEra - dayOfEra / 1460 + dayOfEra / 36524 - dayOfEra / 146096) / 365
  let dayOfYear := dayOfEra - (365 * yearOfEra + yearOfEra / 4 - yearOfEra / 100)
  let monthFromMarch := (5 * dayOfYear + 2) / 153
  let day := dayOfYear - (153 * monthFromMarch + 2) / 5 + 1
  let month := if monthFromMarch < 10 then monthFromMarch + 3 else monthFromMarch - 9
  let year := yearOfEra + era * 400 + if month ≤ 2 then 1 else 0
  ⟨year, month.toNat, day.toNat⟩

/-- Reads one to `width` digits after blank characters. -/
def readField? (width : Nat) (cs : List Char) : Option (Nat × List Char) :=
  let cs := cs.dropWhile Text.isBlank
  let ds := (cs.take width).takeWhile Decimal.isDigit
  if ds.isEmpty then none else some (Decimal.natOfDigits ds, cs.drop ds.length)

/-- Reads a year after blank characters: any number of digits after a sign, else up to four. -/
def readYear? (cs : List Char) : Option (Int × List Char) :=
  match cs.dropWhile Text.isBlank with
  | '-' :: rest =>
    let (ds, after) := rest.span Decimal.isDigit
    if ds.isEmpty then none else some (-(Decimal.natOfDigits ds : Int), after)
  | '+' :: rest =>
    let (ds, after) := rest.span Decimal.isDigit
    if ds.isEmpty then none else some (Decimal.natOfDigits ds, after)
  | rest => (readField? 4 rest).map fun (n, after) => ((n : Int), after)

/-- Reads a date at the front. Blank characters may stand before the hyphens where `loose` says so. -/
def readFrom? (loose : Bool) (cs : List Char) : Option (Date × List Char) := do
  let skip (cs : List Char) : List Char := if loose then cs.dropWhile Text.isBlank else cs
  let (year, rest) ← readYear? cs
  let '-' :: rest := skip rest | none
  let (month, rest) ← readField? 2 rest
  let '-' :: rest := skip rest | none
  let (day, rest) ← readField? 2 rest
  let d : Date := ⟨year, month, day⟩
  if d.isValid then pure (d, rest) else none

def read? (s : String) : Option Date :=
  match readFrom? false s.toList with
  | some (d, []) => some d
  | _ => none

/-- The year with at least four digits, a sign where it needs one, then month and day. -/
def text (d : Date) : List Char :=
  let year := Decimal.padded 4 d.year.natAbs
  let year := if d.year < 0 then '-' :: year else if 9999 < d.year then '+' :: year else year
  year ++ '-' :: (Decimal.padded 2 d.month ++ '-' :: Decimal.padded 2 d.day)

end Date

/-- A point in time. -/
structure Instant where
  /-- The second, counted from the beginning of 1970. -/
  seconds : Int
  /-- The nanoseconds since the beginning of the second; a whole second or more in a leap second. -/
  nanos : Nat
  deriving DecidableEq

namespace Instant

/-- The nanoseconds of a second. -/
def second : Nat := 1000000000

/-- The seconds of a day. -/
def day : Int := 86400

def ofNanoseconds (n : Int) : Instant := ⟨n / second, (n % second).toNat⟩

def ofDate (d : Date) : Instant := ⟨d.toDays * day, 0⟩

def isLeap (t : Instant) : Bool := second ≤ t.nanos

/-- The instant some days later. Away from its own day a leap second does not exist: on the way forward
it gives way to the second before it, on the way back to the one after it. -/
def addDays (t : Instant) (days : Int) : Instant :=
  let seconds := t.seconds + days * day
  if t.isLeap && days != 0 then ⟨if 0 < days then seconds else seconds + 1, t.nanos - second⟩
  else ⟨seconds, t.nanos⟩

def before (a b : Instant) : Bool :=
  a.seconds < b.seconds || (a.seconds == b.seconds && a.nanos < b.nanos)

/-- Reads a fraction of a second, if there is one. Digits beyond the ninth do not count. -/
def readFraction? : List Char → Option (Nat × List Char)
  | '.' :: rest =>
    let (ds, after) := rest.span Decimal.isDigit
    if ds.isEmpty then none
    else
      let nine := ds.take 9
      some (Decimal.natOfDigits nine * Nat.pow 10 (9 - nine.length), after)
  | cs => some (0, cs)

/-- Two digits at the front. -/
def readTwo? : List Char → Option (Nat × List Char)
  | a :: b :: rest =>
    if Decimal.isDigit a && Decimal.isDigit b then some (Decimal.natOfDigits [a, b], rest) else none
  | _ => none

/-- Reads the hours and minutes of a difference from universal time, in seconds. -/
def readHoursMinutes? (cs : List Char) : Option (Int × List Char) := do
  let (hours, rest) ← readTwo? cs
  let (minutes, rest) ← readTwo? (rest.dropWhile fun c => c == ':' || Text.isBlank c)
  if hours < 24 ∧ minutes < 60 then pure ((hours * 3600 + minutes * 60 : Nat), rest) else none

/-- Reads a difference from universal time, in seconds. -/
def readOffset? : List Char → Option (Int × List Char)
  | 'Z' :: rest => some (0, rest)
  | 'z' :: rest => some (0, rest)
  | '+' :: rest => readHoursMinutes? rest
  | '-' :: rest => (readHoursMinutes? rest).map fun (n, after) => (-n, after)
  | '−' :: rest => (readHoursMinutes? rest).map fun (n, after) => (-n, after)
  | a :: b :: c :: rest =>
    if [a.toLower, b.toLower, c.toLower] = ['u', 't', 'c'] then some (0, rest) else none
  | _ => none

/-- Reads a colon and a field of up to two digits, with blank characters allowed before both. -/
def readPart? (cs : List Char) : Option (Nat × List Char) :=
  match cs.dropWhile Text.isBlank with
  | ':' :: rest => Date.readField? 2 rest
  | _ => none

/-- The time of day that a clock shows as hour, minute and second. The clock shows a leap second as
second 60 of any minute. -/
def ofClock (date : Date) (hour minute sec fraction : Nat) : Instant :=
  let begin := (ofDate date).seconds + ((hour * 60 + minute) * 60 : Nat)
  if sec = 60 then ⟨begin + 59, fraction + second⟩ else ⟨begin + (sec : Nat), fraction⟩

def date (t : Instant) : Date := Date.ofDays (t.seconds / day)

/-- Reads an instant. Its date in universal time has to exist, too. -/
def read? (s : String) : Option Instant := do
  let (date, rest) ← Date.readFrom? true s.toList
  let separator :: rest := rest | none
  if separator ≠ 'T' ∧ separator ≠ 't' ∧ separator ≠ ' ' then none
  let (hour, rest) ← Date.readField? 2 rest
  let (minute, rest) ← readPart? rest
  let (sec, rest) ← readPart? rest
  let (fraction, rest) ← readFraction? rest
  let (offset, rest) ← readOffset? (rest.dropWhile Text.isBlank)
  if hour < 24 ∧ minute < 60 ∧ sec ≤ 60 ∧ rest.all Text.isBlank then
    let shown := ofClock date hour minute sec fraction
    let universal : Instant := ⟨shown.seconds - offset, shown.nanos⟩
    if universal.date.isValid then some universal else none
  else none

/-- The seconds since the beginning of the day, but for a leap second. -/
def secondOfDay (t : Instant) : Nat := (t.seconds % day).toNat

/-- Date and time of day with `places` digits of the second's fraction. A leap second is the sixtieth
of its minute. -/
def chars (places : Nat) (t : Instant) : List Char :=
  let s := t.secondOfDay
  let fraction := t.nanos % second / Nat.pow 10 (9 - places)
  t.date.text ++ 'T' :: (Decimal.padded 2 (s / 3600) ++ ':' ::
    (Decimal.padded 2 (s / 60 % 60) ++ ':' :: Decimal.padded 2 (s % 60 + t.nanos / second))) ++
    (if places = 0 then [] else '.' :: Decimal.padded places fraction)

/-- Date and time of day without separators, to the nanosecond. -/
def compactChars (t : Instant) : List Char :=
  (t.chars 9).filter fun c => c != '-' && c != ':'

/-- Date and time of day to the millisecond. -/
def milliText (t : Instant) : String := String.ofList (t.chars 3)

/-- Date and time of day in universal time, to the second or with three, six or nine places, whichever
loses nothing. -/
def text (t : Instant) : String :=
  let nanos := t.nanos % second
  let places :=
    if nanos = 0 then 0 else if nanos % 1000000 = 0 then 3 else if nanos % 1000 = 0 then 6 else 9
  String.ofList (t.chars places ++ ['Z'])

/-- Outside of leap seconds, days have a fixed length. -/
theorem addDays_of_not_isLeap {t : Instant} (h : t.isLeap = false) (n : Int) :
    t.addDays n = ⟨t.seconds + n * day, t.nanos⟩ := by
  simp [addDays, h]

end Instant

end DataQuality
