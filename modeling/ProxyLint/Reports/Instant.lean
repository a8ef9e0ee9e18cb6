import ProxyLint.Text.Blank

/-!
# Instants

An instant is a moment of the civil calendar in universal time.  A minute may
have a sixty-first second.  Instants are written in the usual way with the
letters T and Z and with no digits, three, six or nine digits of a fraction.

Reading is more liberal than writing.  Blanks may stand before every number,
around the separators and at the end, numbers need no leading zeros, the year
may have a sign, and the moment may be given with an offset from universal
time.
-/

namespace ProxyLint

structure Instant where
  year : Int
  month : Nat
  day : Nat
  hour : Nat
  minute : Nat
  second : Nat
  nanosecond : Nat
deriving DecidableEq, Repr

namespace Instant

def isLeapYear (year : Int) : Bool :=
  year % 4 == 0 && (year % 100 != 0 || year % 400 == 0)

def daysInMonth (year : Int) (month : Nat) : Nat :=
  if month = 2 then if isLeapYear year then 29 else 28
  else if month = 4 ∨ month = 6 ∨ month = 9 ∨ month = 11 then 30
  else 31

def nextDay (instant : Instant) : Instant :=
  if instant.day < daysInMonth instant.year instant.month then
    { instant with day := instant.day + 1 }
  else if instant.month < 12 then
    { instant with month := instant.month + 1, day := 1 }
  else { instant with year := instant.year + 1, month := 1, day := 1 }

def previousDay (instant : Instant) : Instant :=
  if 1 < instant.day then { instant with day := instant.day - 1 }
  else if 1 < instant.month then
    { instant with
      month := instant.month - 1
      day := daysInMonth instant.year (instant.month - 1) }
  else { instant with year := instant.year - 1, month := 12, day := 31 }

def minutesOfDay : Int := 1440

/-- Set the time of day from the minutes since midnight, which may lie in the
day before or after. -/
def atMinute (instant : Instant) (minutes : Int) : Instant :=
  let moved :=
    if minutes < 0 then instant.previousDay
    else if minutesOfDay ≤ minutes then instant.nextDay
    else instant
  let inDay := (minutes % minutesOfDay).toNat
  { moved with hour := inDay / 60, minute := inDay % 60 }

/-- The moment that a local time with an offset in minutes stands for. -/
def withoutOffset (given : Instant) (offset : Int) : Instant :=
  given.atMinute ((given.hour * 60 + given.minute : Nat) - offset)

def firstYear : Int := -262143

def lastYear : Int := 262142

/-- Whether the year is within the calendar and the month has the day. -/
def isDate (instant : Instant) : Bool :=
  firstYear ≤ instant.year && instant.year ≤ lastYear &&
    1 ≤ instant.month && instant.month ≤ 12 && 1 ≤ instant.day &&
    instant.day ≤ daysInMonth instant.year instant.month

/-- Whether the clock shows the time, be it in a leap second. -/
def isTime (instant : Instant) : Bool :=
  instant.hour ≤ 23 && instant.minute ≤ 59 && instant.second ≤ 60

/-- The first moment of the year 1970, from which clocks count seconds. -/
def epoch : Instant where
  year := 1970
  month := 1
  day := 1
  hour := 0
  minute := 0
  second := 0
  nanosecond := 0

/-- The moment that a clock shows which counts from the epoch. -/
def ofClock (seconds nanosecond : Nat) : Instant :=
  { Nat.repeat nextDay (seconds / 86400) epoch with
    hour := seconds % 86400 / 3600
    minute := seconds % 3600 / 60
    second := seconds % 60
    nanosecond := nanosecond }

/-! ## Writing -/

/-- The digits of a number with zeros in front. -/
def padded (width value : Nat) : List Char :=
  let digits := Nat.toDigits 10 value
  List.replicate (width - digits.length) '0' ++ digits

/-- A year has four digits, and a sign if it needs one or has more digits. -/
def writtenYear (year : Int) : List Char :=
  if 0 ≤ year ∧ year ≤ 9999 then padded 4 year.natAbs
  else (if year < 0 then '-' else '+') :: padded 4 year.natAbs

/-- The fraction of a second in as few groups of three digits as possible. -/
def writtenFraction (nanosecond : Nat) : List Char :=
  if nanosecond = 0 then []
  else if nanosecond % 1000000 = 0 then
    '.' :: padded 3 (nanosecond / 1000000)
  else if nanosecond % 1000 = 0 then '.' :: padded 6 (nanosecond / 1000)
  else '.' :: padded 9 nanosecond

def written (instant : Instant) : List Char :=
  writtenYear instant.year ++ '-' :: padded 2 instant.month ++
    '-' :: padded 2 instant.day ++ 'T' :: padded 2 instant.hour ++
    ':' :: padded 2 instant.minute ++ ':' :: padded 2 instant.second ++
    writtenFraction instant.nanosecond ++ ['Z']

def render (instant : Instant) : String :=
  String.ofList instant.written

/-! ## Reading -/

def valueOf (digits : List Char) : Nat :=
  digits.foldl
    (fun value digit => value * 10 + (digit.toNat - '0'.toNat)) 0

/-- A number of at most the given count of digits, and what follows it. -/
def number? (limit : Nat) (text : List Char) : Option (Nat × List Char) :=
  let digits := (text.takeWhile Char.isDigit).take limit
  if digits.isEmpty then none
  else some (valueOf digits, text.drop digits.length)

/-- A number of one or two digits after blanks. -/
def component? (text : List Char) : Option (Nat × List Char) :=
  number? 2 (Text.dropBlanks text)

/-- A year after blanks.  With a sign it may have any number of digits. -/
def year? (text : List Char) : Option (Int × List Char) :=
  match Text.dropBlanks text with
  | '-' :: rest => do
      let (value, after) ← number? rest.length rest
      return (-(value : Int), after)
  | '+' :: rest => do
      let (value, after) ← number? rest.length rest
      return ((value : Int), after)
  | rest => do
      let (value, after) ← number? 4 rest
      return ((value : Int), after)

/-- A separator after blanks. -/
def skip? (separator : Char) (text : List Char) : Option (List Char) :=
  match Text.dropBlanks text with
  | character :: rest => if character = separator then some rest else none
  | [] => none

/-- The mark between date and time. -/
def skipDateMark? : List Char → Option (List Char)
  | 'T' :: rest | 't' :: rest | ' ' :: rest => some rest
  | _ => none

/-- The fraction of a second in nanoseconds.  Digits beyond the ninth are
dropped. -/
def fraction? : List Char → Option (Nat × List Char)
  | '.' :: rest => do
      let (value, _) ← number? 9 rest
      let count := ((rest.takeWhile Char.isDigit).take 9).length
      return (value * Nat.pow 10 (9 - count), rest.dropWhile Char.isDigit)
  | rest => some (0, rest)

def isOffsetSeparator (character : Char) : Bool :=
  character = ':' || Text.isBlank character

/-- Two digits, the first of them at most the given one. -/
def twoDigits? (highest : Char) : List Char → Option (Nat × List Char)
  | tens :: ones :: rest =>
      if tens.isDigit && tens ≤ highest && ones.isDigit then
        some (valueOf [tens, ones], rest)
      else none
  | _ => none

/-- Hours and minutes of an offset behind its sign, in minutes. -/
def offsetMinutes? (text : List Char) : Option (Nat × List Char) := do
  let (hours, rest) ← twoDigits? '9' text
  let (minutes, after) ← twoDigits? '5' (rest.dropWhile isOffsetSeparator)
  if hours < 24 then return (hours * 60 + minutes, after) else none

/-- An offset from universal time in minutes, and what follows it. -/
def offset? : List Char → Option (Int × List Char)
  | 'Z' :: rest | 'z' :: rest => some (0, rest)
  | '+' :: rest => do
      let (minutes, after) ← offsetMinutes? rest
      return ((minutes : Int), after)
  | '-' :: rest | '\u2212' :: rest => do
      let (minutes, after) ← offsetMinutes? rest
      return (-(minutes : Int), after)
  | first :: second :: third :: rest =>
      if [first, second, third].map Char.toLower = ['u', 't', 'c'] then
        some (0, rest)
      else none
  | _ => none

/-- A local time and its offset, if nothing but blanks follows them. -/
def localTime? (text : List Char) : Option (Instant × Int) := do
  let (year, rest) ← year? text
  let (month, rest) ← component? (← skip? '-' rest)
  let (day, rest) ← component? (← skip? '-' rest)
  let (hour, rest) ← component? (← skipDateMark? rest)
  let (minute, rest) ← component? (← skip? ':' rest)
  let (second, rest) ← component? (← skip? ':' rest)
  let (nanosecond, rest) ← fraction? rest
  let (offset, rest) ← offset? (Text.dropBlanks rest)
  if (Text.dropBlanks rest).isEmpty then
    return (⟨year, month, day, hour, minute, second, nanosecond⟩, offset)
  else none

def ofText? (text : String) : Option Instant := do
  let (given, offset) ← localTime? text.toList
  if given.isDate && given.isTime then
    let instant := given.withoutOffset offset
    if instant.isDate then return instant else none
  else none

end Instant

end ProxyLint
