import DataQuality.Calendar.Instant
import DataQuality.Shell.Pattern
import DataQuality.Shell.Tool.Input

/-!
# Moments described and shown

A moment may be described by words: a date, a time of the day, a day of the week, and how long before or
after. What is not said is taken from the current moment; with a date, the day begins at midnight. All
times are universal.

The tool shows a moment, now or another one, in a form that a format says.
-/
namespace DataQuality.Shell.Tool.Moment

def dayNames : List String :=
  ["Sunday", "Monday", "Tuesday", "Wednesday", "Thursday", "Friday", "Saturday"]

def monthNames : List String :=
  ["January", "February", "March", "April", "May", "June", "July", "August", "September", "October",
    "November", "December"]

/-- What a description says. -/
structure Description where
  date : Option Date := none
  /-- The second of the day. -/
  clock : Option Int := none
  months : Int := 0
  seconds : Int := 0
  /-- A day of the week, Sunday being zero, and how many of its kind further on it lies. It does not count
  beside a date. -/
  weekday : Option (Nat × Int) := none

/-- The moment that is described, seen from another one. -/
def Description.second (d : Description) (now : Int) : Int :=
  let date := d.date.getD (Date.ofDays (now / 86400))
  let isDay := d.date.isSome || d.weekday.isSome
  let clock := d.clock.getD (if isDay then 0 else now % 86400)
  let month : Int := date.year * 12 + (date.month : Int) - 1 + d.months
  let first : Date := ⟨month / 12, (month % 12).toNat + 1, 1⟩
  let days := first.toDays + (date.day : Int) - 1
  let further : Int :=
    match d.date, d.weekday with
    | none, some (day, count) =>
      let ahead : Int := ((day : Int) - (days + 4)) % 7
      ahead + 7 * (if 0 < count && ahead ≠ 0 then count - 1 else count)
    | _, _ => 0
  (days + further) * 86400 + clock + d.seconds

/-- A part of a written description. -/
inductive DescriptionToken
  | word (s : String)
  /-- A number, with its sign if it has one. -/
  | number (sign : Option Char) (digits : List Char)
  | clock (second : Int)
  | date (d : Date)

/-- Reads a time of the day: hours and minutes, perhaps seconds. -/
def readClock? (cs : List Char) : Option Int := do
  let parts ← (cs.splitOn ':').mapM fun part => Decimal.readNat? (part.takeWhile (· != '.'))
  match parts with
  | [h, m] => if h < 24 && m < 60 then pure ((h * 3600 + m * 60 : Nat) : Int) else none
  | [h, m, s] =>
    if h < 24 && m < 60 && s < 61 then pure ((h * 3600 + m * 60 + s : Nat) : Int) else none
  | _ => none

def existing? (year : Int) (month day : Nat) : Option Date :=
  let d : Date := ⟨year, month, day⟩
  if d.isValid then some d else none

/-- Reads a date of numbers: year, month and day with hyphens or slashes between them, or month, day and
year with slashes. -/
def readDate? (cs : List Char) : Option Date := do
  let byHyphens ← (cs.splitOn '-').mapM Decimal.readNat? <|> some []
  let bySlashes ← (cs.splitOn '/').mapM Decimal.readNat? <|> some []
  let full (n : Nat) : Nat := if n < 69 then n + 2000 else if n < 100 then n + 1900 else n
  match byHyphens, bySlashes with
  | [y, m, d], _ => existing? (full y) m d
  | _, [a, b, c] => if 31 < a then existing? a b c else existing? (full c) a b
  | _, _ => none

/-- The parts of a written description, all letters being small ones. -/
def descriptionTokens? : Nat → List Char → Option (List DescriptionToken)
  | 0, _ => none
  | _ + 1, [] => some []
  | fuel + 1, c :: rest => do
    let isNumeric (c : Char) : Bool := c.isDigit || c == ':' || c == '-' || c == '/' || c == '.'
    if isSpace c || c = ',' then descriptionTokens? fuel rest
    else if c.isAlpha then
      let (word, after) := (c :: rest).span fun c => c.isAlpha || c == '.'
      let word := word.filter (· != '.')
      pure (.word (String.ofList word) :: (← descriptionTokens? fuel after))
    else if c = '+' || c = '-' then
      let (digits, after) := (rest.dropWhile isSpace).span Char.isDigit
      if digits.isEmpty then none
      else pure (.number (some c) digits :: (← descriptionTokens? fuel after))
    else if c.isDigit then
      let (text, after) := (c :: rest).span isNumeric
      let token ←
        if text.contains ':' then (readClock? text).map DescriptionToken.clock
        else if text.all Char.isDigit then some (.number none text)
        else (readDate? text).map DescriptionToken.date
      pure (token :: (← descriptionTokens? fuel after))
    else none

/-- The months or seconds of a unit of time. -/
def unit? (s : String) : Option (Int × Int) :=
  match (if s.endsWith "s" then (s.dropEnd 1).toString else s) with
  | "sec" => some (0, 1)
  | "second" => some (0, 1)
  | "min" => some (0, 60)
  | "minute" => some (0, 60)
  | "hour" => some (0, 3600)
  | "day" => some (0, 86400)
  | "week" => some (0, 7 * 86400)
  | "fortnight" => some (0, 14 * 86400)
  | "month" => some (1, 0)
  | "year" => some (12, 0)
  | _ => none

/-- The place of a name among others of which three letters or more are written. -/
def placeOf? (names : List String) (s : String) : Option Nat :=
  names.findIdx? fun name =>
    3 ≤ s.length && s.length ≤ name.length && (name.toLower.startsWith s)

/-- How many units further on a word leads. -/
def count? : String → Option Int
  | "next" => some 1
  | "last" => some (-1)
  | "this" => some 0
  | _ => none

namespace Description

def further (d : Description) (count : Int) (unit : Int × Int) : Description :=
  { d with months := d.months + count * unit.1, seconds := d.seconds + count * unit.2 }

/-- Takes over a number that stands for itself: a year behind a date, a date or a time of the day. -/
def withNumber? (d : Description) (digits : List Char) : Option Description := do
  let n ← Decimal.readNat? digits
  match d.date with
  | some date =>
    if d.clock.isSome || 2 < digits.length then
      pure { d with date := some (← existing? n date.month date.day) }
    else pure { d with clock := some ((n * 3600 : Nat) : Int) }
  | none =>
    if 4 < digits.length then
      pure { d with date := some (← existing? (n / 10000) (n / 100 % 100) (n % 100)) }
    else
      let (hour, minute) := if digits.length ≤ 2 then (n, 0) else (n / 100, n % 100)
      if hour < 24 && minute < 60 then
        pure { d with clock := some ((hour * 3600 + minute * 60 : Nat) : Int) }
      else none

/-- The description that parts make; `year` is the current one. -/
def ofTokens? (year : Int) : Nat → Description → List DescriptionToken → Option Description
  | 0, _, _ => none
  | _ + 1, d, [] => some d
  | fuel + 1, d, token :: rest =>
    let next (d : Description) (rest : List DescriptionToken) : Option Description :=
      ofTokens? year fuel d rest
    let withDate (y : Int) (m : Nat) (day : List Char) (rest : List DescriptionToken) :
        Option Description := do
      next { d with date := some (← existing? y (m + 1) (← Decimal.readNat? day)) } rest
    match token, rest with
    | .clock n, .word "pm" :: rest =>
      next { d with clock := some (if n < 43200 then n + 43200 else n) } rest
    | .clock n, .word "am" :: rest =>
      next { d with clock := some (if 43200 ≤ n then n - 43200 else n) } rest
    | .clock n, .number (some sign) zone :: rest => do
      let k ← Decimal.readNat? zone
      let ahead : Int := ((if zone.length ≤ 2 then k * 3600 else (k / 100) * 3600 + k % 100 * 60 : Nat) : Int)
      let d := { d with clock := some n }
      next (d.further 1 (0, if sign = '-' then ahead else -ahead)) rest
    | .clock n, rest => next { d with clock := some n } rest
    | .date t, rest => next { d with date := some t } rest
    | .number none n, .word "am" :: rest =>
      (Decimal.readNat? n).bind fun n => next { d with clock := some ((n % 12 * 3600 : Nat) : Int) } rest
    | .number none n, .word "pm" :: rest =>
      (Decimal.readNat? n).bind fun n =>
        next { d with clock := some ((n % 12 * 3600 + 43200 : Nat) : Int) } rest
    | .number sign n, .word w :: after => do
      let k ← Decimal.readNat? n
      let k : Int := if sign = some '-' then -(k : Int) else k
      match unit? w, placeOf? monthNames w, sign, after with
      | some u, _, _, .word "ago" :: after => next (d.further (-k) u) after
      | some u, _, _, after => next (d.further k u) after
      | none, some m, none, .number none y :: after =>
        if 2 < y.length then (Decimal.readNat? y).bind fun y => withDate y m n after
        else withDate year m n (.number none y :: after)
      | none, some m, none, after => withDate year m n after
      | none, none, none, _ => (d.withNumber? n).bind (next · rest)
      | _, _, _, _ => none
    | .number none n, rest => (d.withNumber? n).bind (next · rest)
    | .number (some _) _, _ => none
    | .word w, rest =>
      match placeOf? monthNames w, rest with
      | some m, .number none n :: .number none y :: rest =>
        if 2 < y.length then (Decimal.readNat? y).bind fun y => withDate y m n rest
        else withDate year m n (.number none y :: rest)
      | some m, .number none n :: rest => withDate year m n rest
      | _, _ =>
        match w, rest with
        | "yesterday", rest => next (d.further (-1) (0, 86400)) rest
        | "tomorrow", rest => next (d.further 1 (0, 86400)) rest
        | "noon", rest => next { d with clock := some 43200 } rest
        | "midnight", rest => next { d with clock := some 0 } rest
        | w, rest =>
          if ["now", "today", "utc", "gmt", "z", "t", "at", "of", "on"].contains w then next d rest
          else
            match count? w, unit? w, placeOf? dayNames w, rest with
            | some k, _, _, .word u :: rest =>
              match unit? u, placeOf? dayNames u with
              | some u, _ => next (d.further k u) rest
              | none, some day => next { d with weekday := some (day, k) } rest
              | none, none => none
            | _, some u, _, .word "ago" :: rest => next (d.further (-1) u) rest
            | _, some u, _, rest => next (d.further 1 u) rest
            | _, _, some day, rest => next { d with weekday := some (day, 0) } rest
            | _, _, _, _ => none

end Description

/-- The moment that a text describes. No text stands for the beginning of the day. -/
def read? (now : Instant) (s : String) : Option Instant :=
  match s.toList with
  | '@' :: cs =>
    let (whole, fraction) := cs.span (· != '.')
    (Decimal.readInt? whole).map fun n =>
      ⟨n, Decimal.natOfDigits ((fraction.tail ++ List.replicate 9 '0').take 9)⟩
  | cs =>
    match Instant.read? (String.ofList (cs.map Char.toUpper)) with
    | some t => some t
    | none => do
      let tokens ← descriptionTokens? (cs.length + 1) (cs.map Char.toLower)
      if tokens.isEmpty then pure ⟨now.seconds / 86400 * 86400, 0⟩
      else
        let d ← Description.ofTokens? now.date.year (tokens.length + 1) {} tokens
        let nanos := if d.clock.isSome || d.date.isSome || d.weekday.isSome then 0 else now.nanos
        pure ⟨d.second now.seconds, nanos⟩

/-- The day of the week of a moment, Sunday being zero. -/
def weekday (t : Instant) : Nat := ((t.seconds / 86400 + 4) % 7).toNat

/-- The day of the year of a moment, the first one being one. -/
def dayOfYear (t : Instant) : Nat :=
  let d := t.date
  (d.toDays - (Date.toDays ⟨d.year, 1, 1⟩)).toNat + 1

/-- The week of the year whose Thursday lies in the year, and that year. -/
def weekOfYear (t : Instant) : Int × Nat :=
  let days := t.seconds / 86400
  let thursday := days - (((weekday t + 6) % 7 : Nat) : Int) + 3
  let d := Date.ofDays thursday
  (d.year, ((thursday - Date.toDays ⟨d.year, 1, 1⟩) / 7).toNat + 1)

/-- A number with two digits at least. -/
def two (n : Nat) : List Char := Decimal.padded 2 n

/-- What a letter in a format stands for. -/
def field (t : Instant) (c : Char) : Option (List Char) :=
  let d := t.date
  let s := t.secondOfDay
  let (hour, minute, second) := (s / 3600, s / 60 % 60, s % 60)
  let hour12 := if hour % 12 = 0 then 12 else hour % 12
  let year := Decimal.intChars d.year
  let named (names : List String) (i : Nat) : List Char := ((names[i]?).getD "").toList
  let clock := two hour ++ ':' :: two minute ++ ':' :: two second
  match c with
  | 'Y' => some year
  | 'y' => some (two ((d.year % 100).toNat))
  | 'C' => some (two ((d.year / 100).toNat))
  | 'm' => some (two d.month)
  | 'd' => some (two d.day)
  | 'e' => some (padded 2 (Decimal.natDigits d.day))
  | 'H' => some (two hour)
  | 'I' => some (two hour12)
  | 'k' => some (padded 2 (Decimal.natDigits hour))
  | 'l' => some (padded 2 (Decimal.natDigits hour12))
  | 'M' => some (two minute)
  | 'S' => some (two second)
  | 's' => some (Decimal.intChars t.seconds)
  | 'N' => some (Decimal.padded 9 t.nanos)
  | 'p' => some (if hour < 12 then "AM" else "PM").toList
  | 'P' => some (if hour < 12 then "am" else "pm").toList
  | 'F' => some (year ++ '-' :: two d.month ++ '-' :: two d.day)
  | 'D' => some (two d.month ++ '/' :: two d.day ++ '/' :: two ((d.year % 100).toNat))
  | 'x' => some (two d.month ++ '/' :: two d.day ++ '/' :: two ((d.year % 100).toNat))
  | 'T' => some clock
  | 'X' => some clock
  | 'R' => some (two hour ++ ':' :: two minute)
  | 'r' => some (two hour12 ++ ':' :: two minute ++ ':' :: two second ++
      (if hour < 12 then " AM" else " PM").toList)
  | 'j' => some (Decimal.padded 3 (dayOfYear t))
  | 'u' => some (Decimal.natDigits (if weekday t = 0 then 7 else weekday t))
  | 'w' => some (Decimal.natDigits (weekday t))
  | 'a' => some ((named dayNames (weekday t)).take 3)
  | 'A' => some (named dayNames (weekday t))
  | 'b' => some ((named monthNames (d.month - 1)).take 3)
  | 'h' => some ((named monthNames (d.month - 1)).take 3)
  | 'B' => some (named monthNames (d.month - 1))
  | 'c' => some ((named dayNames (weekday t)).take 3 ++ ' ' ::
      (named monthNames (d.month - 1)).take 3 ++ ' ' :: padded 2 (Decimal.natDigits d.day) ++
      ' ' :: clock ++ ' ' :: year)
  | 'V' => some (two (weekOfYear t).2)
  | 'G' => some (Decimal.intChars (weekOfYear t).1)
  | 'g' => some (two (((weekOfYear t).1 % 100).toNat))
  | 'U' => some (two ((dayOfYear t + 6 - weekday t) / 7))
  | 'W' => some (two ((dayOfYear t + 6 - (weekday t + 6) % 7) / 7))
  | 'z' => some "+0000".toList
  | 'Z' => some "UTC".toList
  | 'n' => some ['\n']
  | 't' => some ['\t']
  | '%' => some ['%']
  | _ => none

/-- A moment in the form that a format says. -/
def shown (t : Instant) : Nat → List Char → List Char
  | 0, cs => cs
  | fuel + 1, cs =>
    match cs with
    | '%' :: '-' :: c :: rest =>
      let text := (field t c).getD ['%', '-', c]
      let short := text.dropWhile fun c => c == '0' || c == ' '
      (if short.isEmpty then text.drop (text.length - 1) else short) ++ shown t fuel rest
    | '%' :: ':' :: 'z' :: rest => "+00:00".toList ++ shown t fuel rest
    | '%' :: n :: 'N' :: rest =>
      if n.isDigit then (Decimal.padded 9 t.nanos).take (n.toNat - 48) ++ shown t fuel rest
      else '%' :: n :: 'N' :: shown t fuel rest
    | '%' :: c :: rest => (field t c).getD ['%', c] ++ shown t fuel rest
    | c :: rest => c :: shown t fuel rest
    | [] => []

/-- Shows a moment. -/
def date : Action := fun g => do
  let m ← get
  let now := Instant.ofNanoseconds (World.beginning * 1000000000 + m.world.clock)
  let chosen : Option Instant :=
    match g.value? 'd', g.value? 'r' with
    | some s, _ => read? now s
    | none, some name => do
      let p ← m.path? name
      if m.tree.has p then pure ⟨m.world.changedAt p, 0⟩ else none
    | none, none => some now
  match chosen, g.operands with
  | none, _ => refuse "date" "invalid date" 1
  | some t, operands =>
    let form : Option String :=
      match operands with
      | [] =>
        if g.has 'I' then some (match (g.value? 'I').getD "" with
          | "seconds" => "%FT%T%:z"
          | "minutes" => "%FT%R%:z"
          | "hours" => "%FT%H%:z"
          | _ => "%F")
        else if g.has 'R' then some "%a, %d %b %Y %T %z"
        else some "%a %b %e %T %Z %Y"
      | [f] => if f.startsWith "+" then some (f.drop 1).toString else none
      | _ => none
    match form with
    | some f =>
      print (shown t (f.length + 1) f.toList ++ ['\n'])
      return 0
    | none => refuse "date" "invalid date" 1

def momentTools : List (String × Utility) := [
  ("date", ⟨⟨"uR", "dfrs", "I", [("date", 'd'), ("file", 'f'), ("iso-8601", 'I'), ("reference", 'r'),
    ("rfc-email", 'R'), ("utc", 'u'), ("universal", 'u')], true⟩, 1, id, date⟩)]

end DataQuality.Shell.Tool.Moment
