import ContractAnalysis.Text.Basic

/-!
# Points in time

A point in time is a calendar day and a time of day in UTC, down to nanoseconds. A leap second is
the sixty-first second of its minute.

* `Timestamp`: points in time
* `Timestamp.render`: as in `2024-05-01T09:30:00.250Z`, with 0, 3, 6 or 9 digits after the point
* `Timestamp.ofText?`: reads such a text with any offset from UTC; a space may stand for the `T`,
  numbers may be written without leading zeros, and white space may stand between the parts
-/

namespace ContractAnalysis

/-- A point in time, in UTC. -/
structure Timestamp where
  year : Int
  month : Nat
  day : Nat
  hour : Nat
  minute : Nat
  second : Nat
  nanosecond : Nat
  deriving DecidableEq

namespace Timestamp

def epoch : Timestamp := ⟨1970, 1, 1, 0, 0, 0, 0⟩

/-! ## Calendar -/

def isLeapYear (year : Int) : Bool := year % 4 = 0 && (year % 100 != 0 || year % 400 = 0)

def daysInMonth (year : Int) (month : Nat) : Nat :=
  match month with
  | 2 => if isLeapYear year then 29 else 28
  | 4 | 6 | 9 | 11 => 30
  | _ => 31

/-- The day after a day. -/
def nextDay (t : Timestamp) : Timestamp :=
  if t.day < daysInMonth t.year t.month then { t with day := t.day + 1 }
  else if t.month < 12 then { t with month := t.month + 1, day := 1 }
  else { t with year := t.year + 1, month := 1, day := 1 }

/-- The day before a day. -/
def previousDay (t : Timestamp) : Timestamp :=
  if 1 < t.day then { t with day := t.day - 1 }
  else if 1 < t.month then
    { t with month := t.month - 1, day := daysInMonth t.year (t.month - 1) }
  else { t with year := t.year - 1, month := 12, day := 31 }

/-- The time in UTC of a local time whose clock is ahead by so many minutes, less than a day. -/
def ofLocal (t : Timestamp) (ahead : Int) : Timestamp :=
  let minutes : Int := 60 * t.hour + t.minute - ahead
  let ofDay := (minutes % 1440).toNat
  let t := if minutes < 0 then t.previousDay else if 1440 ≤ minutes then t.nextDay else t
  { t with hour := ofDay / 60, minute := ofDay % 60 }

/-- The calendar day that is so many days after the first day of 1970. A year is counted from March
on, so that a leap day is its last day; 400 years have 146097 days. -/
def ofDays (days : Nat) : Timestamp :=
  let sinceMarch := days + 719468
  let era := sinceMarch / 146097
  let dayOfEra := sinceMarch % 146097
  let yearOfEra := (dayOfEra - dayOfEra / 1460 + dayOfEra / 36524 - dayOfEra / 146096) / 365
  let dayOfYear := dayOfEra - (365 * yearOfEra + yearOfEra / 4 - yearOfEra / 100)
  let monthFromMarch := (5 * dayOfYear + 2) / 153
  let month := if monthFromMarch < 10 then monthFromMarch + 3 else monthFromMarch - 9
  { epoch with
    year := ((yearOfEra + 400 * era + (if month ≤ 2 then 1 else 0) : Nat) : Int)
    month
    day := dayOfYear - (153 * monthFromMarch + 2) / 5 + 1 }

/-- The point in time that is so many seconds and nanoseconds after the start of 1970. -/
def ofUnix (seconds nanosecond : Nat) : Timestamp :=
  { ofDays (seconds / 86400) with
    hour := seconds / 3600 % 24
    minute := seconds / 60 % 60
    second := seconds % 60
    nanosecond }

def yearRange : Int × Int := (-262143, 262142)

def isValid (t : Timestamp) : Bool :=
  yearRange.1 ≤ t.year && t.year ≤ yearRange.2 && 1 ≤ t.month && t.month ≤ 12 &&
    1 ≤ t.day && t.day ≤ daysInMonth t.year t.month && t.hour < 24 && t.minute < 60 &&
    t.second ≤ 60

/-! ## Writing -/

def padded (width n : Nat) : String :=
  let digits := toString n
  String.ofList (List.replicate (width - digits.length) '0') ++ digits

/-- A year: four digits, and a sign where they do not do. -/
def renderYear (year : Int) : String :=
  if 0 ≤ year ∧ year ≤ 9999 then padded 4 year.toNat
  else (if year < 0 then "-" else "+") ++ padded 4 year.natAbs

/-- Nothing, or a point and the fewest digits of 3, 6 and 9 that are exact. -/
def renderFraction (nanosecond : Nat) : String :=
  if nanosecond = 0 then ""
  else if nanosecond % 1000000 = 0 then "." ++ padded 3 (nanosecond / 1000000)
  else if nanosecond % 1000 = 0 then "." ++ padded 6 (nanosecond / 1000)
  else "." ++ padded 9 nanosecond

def render (t : Timestamp) : String :=
  renderYear t.year ++ "-" ++ padded 2 t.month ++ "-" ++ padded 2 t.day ++ "T" ++
    padded 2 t.hour ++ ":" ++ padded 2 t.minute ++ ":" ++ padded 2 t.second ++
    renderFraction t.nanosecond ++ "Z"

/-! ## Reading -/

/-- A part of a text that was read, and the text after it. -/
abbrev Part (α : Type) := Option (α × List Char)

def isDigit (c : Char) : Bool := '0' ≤ c && c ≤ '9'

def number (ds : List Char) : Nat := ds.foldl (fun n d => 10 * n + (d.toNat - 48)) 0

/-- At least one digit, and at most so many. -/
def readDigits (limit : Nat) (cs : List Char) : Part (List Char) :=
  let ds := (cs.take limit).takeWhile isDigit
  if ds.isEmpty then none else some (ds, cs.drop ds.length)

/-- White space and a number of at most two digits. -/
def readNumber (cs : List Char) : Part Nat :=
  (readDigits 2 (Text.trimStart cs)).map fun (ds, rest) => (number ds, rest)

/-- White space and a year: four digits at most, or a sign and any number of digits. -/
def readYear (cs : List Char) : Part Int :=
  match Text.trimStart cs with
  | '-' :: rest => (readDigits rest.length rest).map fun (ds, rest) => (-(number ds : Int), rest)
  | '+' :: rest => (readDigits rest.length rest).map fun (ds, rest) => ((number ds : Int), rest)
  | cs => (readDigits 4 cs).map fun (ds, rest) => ((number ds : Int), rest)

def readMark (mark : Char) (cs : List Char) : Option (List Char) :=
  match Text.trimStart cs with
  | c :: rest => if c = mark then some rest else none
  | [] => none

/-- The mark between a day and a time. -/
def readSeparator : List Char → Option (List Char)
  | 'T' :: rest | 't' :: rest | ' ' :: rest => some rest
  | _ => none

/-- A point and the nanoseconds after it, if there is a point; digits beyond the ninth are
dropped. -/
def readFraction : List Char → Part Nat
  | '.' :: rest =>
    (readDigits 9 rest).map fun (ds, rest) =>
      (number ds * Nat.pow 10 (9 - ds.length), rest.dropWhile isDigit)
  | cs => some (0, cs)

/-- The minutes of an offset after its sign: two digits for the hours and two for the minutes, with
colons or white space between them. -/
def readOffsetMinutes : List Char → Part Nat
  | a :: b :: rest =>
    if isDigit a ∧ isDigit b then
      match rest.dropWhile fun c => c == ':' || Text.isBlank c with
      | c :: d :: rest =>
        if isDigit c ∧ isDigit d ∧ c ≤ '5' then some (60 * number [a, b] + number [c, d], rest)
        else none
      | _ => none
    else none
  | _ => none

def readOffset (cs : List Char) : Part Int :=
  match cs with
  | 'Z' :: rest | 'z' :: rest => some (0, rest)
  | '+' :: rest => (readOffsetMinutes rest).map fun (n, rest) => ((n : Int), rest)
  | '-' :: rest | '−' :: rest => (readOffsetMinutes rest).map fun (n, rest) => (-(n : Int), rest)
  | _ =>
    if (cs.take 3).map Char.toLower = ['u', 't', 'c'] then some (0, cs.drop 3) else none

def ofText? (text : String) : Option Timestamp := do
  let (year, rest) ← readYear text.toList
  let rest ← readMark '-' rest
  let (month, rest) ← readNumber rest
  let rest ← readMark '-' rest
  let (day, rest) ← readNumber rest
  let rest ← readSeparator rest
  let (hour, rest) ← readNumber rest
  let rest ← readMark ':' rest
  let (minute, rest) ← readNumber rest
  let rest ← readMark ':' rest
  let (second, rest) ← readNumber rest
  let (nanosecond, rest) ← readFraction rest
  let (ahead, rest) ← readOffset (Text.trimStart rest)
  let t : Timestamp := ⟨year, month, day, hour, minute, second, nanosecond⟩
  if (Text.trimStart rest).isEmpty ∧ t.isValid ∧ ahead.natAbs < 1440 then
    let utc := t.ofLocal ahead
    if utc.isValid then some utc else none
  else none

end Timestamp

end ContractAnalysis
