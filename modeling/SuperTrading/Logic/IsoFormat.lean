import SuperTrading.Logic.IsoCalendar
import SuperTrading.Logic.PyFloat

/-!
# ISO 8601 Texts

`datetime.fromisoformat` of Python 3.11, as its C implementation reads a text: a date or a week,
any character, a time, and how far its clock is ahead of UTC. A position past the end of the text
reads as 0.

- **Digits**
- **Dates**: the day of a date or a week
- **Times**: the time of day, with what stands behind it
- **Stamps**
-/

namespace SuperTrading.Logic

/-! ## Section 1: Digits -/

/-- `parse_digits`: so many digits, read behind a value, and the text behind them. -/
def parseDigits (value : ℕ) : ℕ → Text → Option (ℕ × Text)
  | 0, t => some (value, t)
  | _ + 1, [] => none
  | n + 1, c :: t =>
    if PyFloat.isAsciiDigit c then parseDigits (10 * value + (c - 48)) n t else none

/-- The text behind a hyphen that has to be there. -/
def skipHyphen (expected : Bool) (t : Text) : Option Text :=
  if expected then (if t.headD 0 = 45 then some t.tail else none) else some t

/-! ## Section 2: Dates -/

def isLeap (year : ℕ) : Bool := year % 4 = 0 ∧ (year % 100 ≠ 0 ∨ year % 400 = 0)

def daysInMonth (year month : ℕ) : ℕ :=
  if month = 2 then (if isLeap year then 29 else 28)
  else if month = 4 ∨ month = 6 ∨ month = 9 ∨ month = 11 then 30
  else 31

/-- The number of the last day of year 9999. -/
def maxOrdinal : ℤ := 3652059

/-- A day, by its date. -/
def dateOrdinal (year month day : ℕ) : Option ℤ :=
  if 1 ≤ year ∧ 1 ≤ month ∧ month ≤ 12 ∧ 1 ≤ day ∧ day ≤ daysInMonth year month then
    some (daysBeforeYear year + ((List.range (month - 1)).map fun m => daysInMonth year (m + 1)).sum
      + day)
  else none

/-- `iso_to_ymd`: a day, by its week. -/
def weekOrdinal (year week day : ℕ) : Option ℤ :=
  let firstWeekday := daysBeforeYear year % 7
  let isLong : Bool := firstWeekday = 3 ∨ (firstWeekday = 2 ∧ isLeap year)
  let ordinal := isoWeek1Monday year + (week - 1) * 7 + (day - 1)
  if 1 ≤ week ∧ (week < 53 ∨ (week = 53 ∧ isLong)) ∧ 1 ≤ day ∧ day ≤ 7 ∧
      1 ≤ ordinal ∧ ordinal ≤ maxOrdinal then some ordinal
  else none

/-- `parse_isoformat_date`. -/
def parseIsoDate (t : Text) : Option ℤ := do
  let (year, rest) ← parseDigits 0 4 t
  let usesSeparator : Bool := rest.headD 0 = 45
  let rest := if usesSeparator then rest.tail else rest
  if rest.headD 0 = 87 then do
    let (week, rest) ← parseDigits 0 2 rest.tail
    if rest = [] then weekOrdinal year week 1
    else do
      let rest ← skipHyphen usesSeparator rest
      let (day, _) ← parseDigits 0 1 rest
      weekOrdinal year week day
  else do
    let (month, rest) ← parseDigits 0 2 rest
    let rest ← skipHyphen usesSeparator rest
    let (day, rest) ← parseDigits 0 2 rest
    if rest = [] then dateOrdinal year month day else none

/-- `_find_isoformat_datetime_separator`: how long the date in front of a text is. -/
def separatorLocation (t : Text) : Option ℕ :=
  let point := fun i => t.getD i 0
  if t.length = 7 then some 7
  else if point 4 = 45 then
    if point 5 = 87 ∧ point 8 = 45 then
      if t.length = 9 then none
      -- Behind a week, two digits are taken for an hour.
      else if PyFloat.isAsciiDigit (point 10) then some 8
      else some 10
    else if point 5 = 87 then some 8
    else some 10
  else if point 4 = 87 then
    let digits := 7 + ((t.drop 7).takeWhile PyFloat.isAsciiDigit).length
    if digits < 9 then some digits
    else if digits % 2 = 0 then some 7
    else some 8
  else some 8

/-! ## Section 3: Times -/

/-- The fraction of a second, in microseconds, and whether something stands behind it. -/
def parseFraction (next : ℕ) (t : Text) : Option (ℕ × Bool) := do
  let width := min t.length 6
  let (fraction, rest) ← parseDigits 0 width t
  some (fraction * 10 ^ (6 - width), (rest.dropWhile PyFloat.isAsciiDigit).headD next ≠ 0)

/-- `parse_hh_mm_ss_ff`, from one of the three components on, with the character that ends the
text. The last item is whether something stands behind the time. -/
def parseComponents (next : ℕ) : ℕ → Option Bool → Text → Option (List ℕ × ℕ × Bool)
  | 0, _, t => (parseFraction next t).map ([], ·)
  | n + 1, separated, t => do
    let (value, rest) ← parseDigits 0 2 t
    let c := rest.headD next
    let hasSeparator := separated.getD (c = 58)
    if rest.length ≤ 1 then some ([value], 0, c ≠ 0)
    else if hasSeparator ∧ c = 58 then do
      let (values, others) ← parseComponents next n hasSeparator rest.tail
      some (value :: values, others)
    else if c = 46 ∨ c = 44 then (parseFraction next rest.tail).map ([value], ·)
    else if hasSeparator then none
    else do
      let (values, others) ← parseComponents next n hasSeparator rest
      some (value :: values, others)

/-- The seconds of the components, and the microseconds. -/
def clockMicros (components : List ℕ) (microsecond : ℕ) : ℤ :=
  (components.getD 0 0 * 3600 + components.getD 1 0 * 60 + components.getD 2 0) * 1000000 +
    microsecond

def dayMicros : ℤ := 86400 * 1000000

/-- How far a clock is ahead of UTC, from `Z` or a sign on. -/
def parseOffset (zone : Text) : Option ℤ :=
  if zone.headD 0 = 90 then (if zone.tail.headD 0 = 0 then some 0 else none)
  else do
    let (components, microsecond, behind) ← parseComponents 0 3 none zone.tail
    let size := clockMicros components microsecond
    if behind then none
    -- Less than a second is dropped, and a day is too much.
    else if size < 1000000 then some 0
    else if dayMicros ≤ size then none
    else some (if zone.headD 0 = 45 then -size else size)

/-- `parse_isoformat_time`: the time of day, and how far it is ahead of UTC. -/
def parseIsoTime (t : Text) : Option (ℤ × Option ℤ) := do
  let isZone := fun c => c = 43 ∨ c = 45 ∨ c = 90
  let clock := t.takeWhile fun c => ¬ isZone c
  let zone := t.dropWhile fun c => ¬ isZone c
  let (components, microsecond, behind) ← parseComponents (zone.headD 0) 3 none clock
  let offset ←
    if zone = [] then (if behind then none else some none)
    else (parseOffset zone).map some
  if components.getD 0 0 < 24 ∧ components.getD 1 0 < 60 ∧ components.getD 2 0 < 60 then
    some (clockMicros components microsecond, offset)
  else none

/-! ## Section 4: Stamps -/

/-- A time on a clock, in microseconds since the start of year 1, and how far the clock is ahead
of UTC. -/
structure IsoStamp where
  clock : ℤ
  utcOffset : Option ℤ
  deriving DecidableEq, Repr

def isSurrogate (c : ℕ) : Bool := 0xD800 ≤ c ∧ c ≤ 0xDFFF

/-- The bytes of a code point. -/
def utf8 (c : ℕ) : List ℕ :=
  if c < 0x80 then [c]
  else if c < 0x800 then [0xC0 + c / 64, 0x80 + c % 64]
  else if c < 0x10000 then [0xE0 + c / 4096, 0x80 + c / 64 % 64, 0x80 + c % 64]
  else [0xF0 + c / 262144, 0x80 + c / 4096 % 64, 0x80 + c / 64 % 64, 0x80 + c % 64]

/-- `datetime.fromisoformat(t)`; `none` is its `ValueError`. -/
def fromIsoFormat (t : Text) : Option IsoStamp :=
  if t.length < 7 then none
  else do
    let location ← separatorLocation t
    let ordinal ← parseIsoDate (t.take location)
    let start := (ordinal - 1) * dayMicros
    let time := t.drop (location + 1)
    if t.length ≤ location then some { clock := start, utcOffset := none }
    -- Only the character between date and time may be one that has no encoding.
    else if time.any isSurrogate then none
    else do
      let (sinceMidnight, utcOffset) ← parseIsoTime (time.flatMap utf8)
      some { clock := start + sinceMidnight, utcOffset }

end SuperTrading.Logic
