import ServiceCall.Number.Literal
/-!
# Points in time and spans of time

A point in time is a number of seconds since the start of 1970 and a fraction in
nanoseconds. Its text is a date and a time of day, divided by `T` and followed by an offset
from universal time; what is written has the offset `Z`.
-/

namespace ServiceCall

/-- A day of the calendar. -/
structure Date where
  year : Int
  month : Nat
  day : Nat
  deriving DecidableEq, Repr

namespace Date

def isLeapYear (year : Int) : Bool := year % 4 = 0 && (year % 100 ≠ 0 || year % 400 = 0)

/-- The number of days of a month. -/
def daysInMonth (year : Int) : Nat → Nat
  | 2 => if isLeapYear year then 29 else 28
  | 4 | 6 | 9 | 11 => 30
  | _ => 31

/-- The date is one of the calendar. -/
def isValid (d : Date) : Bool :=
  1 ≤ d.month && d.month ≤ 12 && 1 ≤ d.day && d.day ≤ daysInMonth d.year d.month

/-- The number of days since the first day of 1970. Years are counted from March, so that the
leap day is the last one of its year. -/
def toDays (d : Date) : Int :=
  let year := if d.month ≤ 2 then d.year - 1 else d.year
  let month : Int := if 2 < d.month then d.month - 3 else d.month + 9
  let dayOfYear := (153 * month + 2) / 5 + d.day - 1
  year * 365 + year / 4 - year / 100 + year / 400 + dayOfYear - 719468

/-- The date that is a number of days from the first day of 1970. -/
def ofDays (days : Int) : Date :=
  let z := days + 719468
  let era := z / 146097
  let dayOfEra := z % 146097
  let yearOfEra := (dayOfEra - dayOfEra / 1460 + dayOfEra / 36524 - dayOfEra / 146096) / 365
  let dayOfYear := dayOfEra - (365 * yearOfEra + yearOfEra / 4 - yearOfEra / 100)
  let month := (5 * dayOfYear + 2) / 153
  let day := dayOfYear - (153 * month + 2) / 5 + 1
  let month := if month < 10 then month + 3 else month - 9
  let year := era * 400 + yearOfEra + (if month ≤ 2 then 1 else 0)
  ⟨year, month.toNat, day.toNat⟩

end Date

/-- A number with leading zeros. -/
def padded (width n : Nat) : List Char :=
  let ds := Nat.toDigits 10 n
  List.replicate (width - ds.length) '0' ++ ds

/-- A fraction of a second with three, six or nine places, or none. -/
def fractionText (nanos : Nat) : List Char :=
  if nanos = 0 then []
  else if nanos % 1000000 = 0 then '.' :: padded 3 (nanos / 1000000)
  else if nanos % 1000 = 0 then '.' :: padded 6 (nanos / 1000)
  else '.' :: padded 9 nanos

/-- The nanoseconds of a fraction's digits, those behind the ninth left out. -/
def fractionNanos (digits : List Char) : Nat :=
  digitsValue (digits.take 9) * Nat.pow 10 (9 - digits.length)

/-- A point in time. -/
structure Timestamp where
  seconds : Int
  nanos : Int
  deriving DecidableEq, Repr

namespace Timestamp

/-- Why a text is no timestamp. -/
inductive Fault where
  | date
  | separator (found : Option Char)
  | time
  | fraction
  | offset
  | zone (found : Option Char)
  | trailing (found : Option Char)
  | calendar
  | range
  deriving DecidableEq, Repr

/-- What was found, as a quoted byte. -/
def foundText : Option Char → String
  | none => "end of string"
  | some c =>
    let n := c.toNat
    let escape : List Char :=
      if c = '\t' then ['\\', 't']
      else if c = '\r' then ['\\', 'r']
      else if c = '\n' then ['\\', 'n']
      else if c = '\'' ∨ c = '"' ∨ c = '\\' then ['\\', c]
      else if 0x20 ≤ n ∧ n < 0x7F then [c]
      else ['\\', 'x'] ++ List.replicate (2 - (Nat.toDigits 16 n).length) '0' ++ Nat.toDigits 16 n
    "'" ++ String.ofList escape ++ "'"

def Fault.message : Fault → String
  | date => "invalid rfc3339 timestamp: invalid date"
  | separator c => "invalid rfc3339 timestamp: expected 'T' but found " ++ foundText c
  | time => "invalid rfc3339 timestamp: invalid time"
  | fraction => "invalid rfc3339 timestamp: empty fractional seconds"
  | offset => "invalid rfc3339 timestamp: invalid offset"
  | zone c => "invalid rfc3339 timestamp: expected 'Z', '+' or '-' but found " ++ foundText c
  | trailing c => "invalid rfc3339 timestamp: expected end of string but found " ++ foundText c
  | calendar => "failed to parse RFC-3339 formatted timestamp"
  | range => "timestamp out of range"

/-- The seconds that years 1 to 9999 span. -/
def inRange (t : Timestamp) : Bool := -62135596800 ≤ t.seconds && t.seconds ≤ 253402300799

/-- A timestamp as it is written, before it is known to be one of the calendar. -/
structure Fields where
  date : Date
  hour : Nat
  minute : Nat
  second : Nat
  nanos : Nat
  /-- The offset's sign, hours and minutes, unless it is universal time. -/
  offset : Option (Bool × Nat × Nat)
  deriving DecidableEq, Repr

/-- Two digits as a number. -/
def two? (a b : Char) : Option Nat := do return 10 * (← digit? a) + (← digit? b)

/-- Reads the offset at the end of a text. A byte stands for its character. -/
def readOffset (s : List Char) : Except Fault (Option (Bool × Nat × Nat)) :=
  match s with
  | 'Z' :: [] => .ok none
  | 'Z' :: c :: _ => .error (.trailing c)
  | c :: rest =>
    if c = '+' ∨ c = '-' then
      match rest with
      | a :: b :: ':' :: d :: e :: rest =>
        match two? a b, two? d e with
        | some h, some m =>
          match rest with
          | [] => .ok (some (c == '+', h, m))
          | c :: _ => .error (.trailing c)
        | _, _ => .error .offset
      | _ => .error .offset
    else .error (.zone c)
  | [] => .error (.zone none)

/-- Reads the fields of a text. -/
def readFields (s : List Char) : Except Fault Fields :=
  match s with
  | a :: b :: c :: d :: '-' :: e :: f :: '-' :: g :: h :: rest =>
    match two? a b, two? c d, two? e f, two? g h with
    | some century, some year, some month, some day =>
      let date : Date := ⟨100 * century + year, month, day⟩
      match rest with
      | 'T' :: rest =>
        match rest with
        | a :: b :: ':' :: c :: d :: ':' :: e :: f :: rest =>
          match two? a b, two? c d, two? e f with
          | some hour, some minute, some second =>
            match rest with
            | '.' :: rest => do
              let ds := rest.takeWhile isDigit
              if ds.isEmpty then .error .fraction
              else return ⟨date, hour, minute, second, fractionNanos ds,
                ← readOffset (rest.dropWhile isDigit)⟩
            | rest => do return ⟨date, hour, minute, second, 0, ← readOffset rest⟩
          | _, _, _ => .error .time
        | _ => .error .time
      | rest => .error (.separator rest.head?)
    | _, _, _, _ => .error .date
  | _ => .error .date

/-- The point in time that fields name. A leap second counts as the second before it. -/
def Fields.resolve? (f : Fields) : Option Timestamp :=
  let second := if f.second = 60 then 59 else f.second
  let valid := f.date.isValid && f.hour < 24 && f.minute < 60 && second < 60
  let offset? : Option Int := match f.offset with
    | none => some 0
    | some (positive, h, m) =>
      if h < 24 ∧ m < 60 then
        some ((if positive then 1 else -1) * ((h * 3600 + m * 60 : Nat) : Int))
      else none
  match offset? with
  | some offset =>
    if valid then
      let timeOfDay := f.hour * 3600 + f.minute * 60 + second
      some ⟨f.date.toDays * 86400 + timeOfDay - offset, f.nanos⟩
    else none
  | none => none

/-- The bytes of a text, as characters. -/
def byteChars (s : String) : List Char := s.toUTF8.toList.map fun b => Char.ofNat b.toNat

/-- Reads a timestamp. -/
def read (s : String) : Except Fault Timestamp := do
  let f ← readFields (byteChars s)
  match f.resolve? with
  | none => .error .calendar
  | some t => if t.inRange then .ok t else .error .range

/-- The text of a timestamp, if it is in range. -/
def text? (t : Timestamp) : Option String :=
  if t.inRange then
    let seconds := t.seconds + t.nanos / 1000000000
    let nanos := (t.nanos % 1000000000).toNat
    let date := Date.ofDays (seconds / 86400)
    let time := (seconds % 86400).toNat
    let year :=
      if 9999 < date.year then '+' :: Nat.toDigits 10 date.year.toNat
      else if date.year < 0 then '-' :: padded 4 date.year.natAbs
      else padded 4 date.year.toNat
    some (String.ofList (year ++ '-' :: padded 2 date.month ++ '-' :: padded 2 date.day ++
      'T' :: padded 2 (time / 3600) ++ ':' :: padded 2 (time / 60 % 60) ++
      ':' :: padded 2 (time % 60) ++ fractionText nanos ++ ['Z']))
  else none

end Timestamp

/-! ## Durations

A span of time in seconds and nanoseconds, written as a decimal number of seconds. -/

/-- A span of time. -/
structure Duration where
  seconds : Int
  nanos : Int
  deriving DecidableEq, Repr

namespace Duration

/-- Why a text is no duration. -/
inductive Fault where
  | format
  | range
  deriving DecidableEq, Repr

def Fault.message : Fault → String
  | format => "failed to parse duration"
  | range => "duration out of range"

/-- At most ten thousand years, and less than a second in nanoseconds. -/
def inRange (d : Duration) : Bool :=
  d.seconds.natAbs ≤ 315576000000 && d.nanos.natAbs ≤ 999999999

/-- The seconds and nanoseconds of an unsigned number with its unit. -/
def readUnsigned? (s : List Char) : Option (Nat × Nat) :=
  let whole := s.takeWhile isDigit
  let fraction? : Option (Nat × List Char) := match s.dropWhile isDigit with
    | '.' :: rest =>
      let ds := rest.takeWhile isDigit
      if ds.isEmpty then none else some (fractionNanos ds, rest.dropWhile isDigit)
    | rest => some (0, rest)
  match fraction? with
  | some (nanos, ['s']) =>
    if whole.isEmpty ∨ 0x8000000000000000 ≤ digitsValue whole then none
    else some (digitsValue whole, nanos)
  | _ => none

/-- Reads a duration. -/
def read (s : String) : Except Fault Duration :=
  let signed (negative : Bool) (rest : List Char) : Except Fault Duration :=
    match readUnsigned? rest with
    | none => .error .format
    | some (seconds, nanos) =>
      let d : Duration := if negative then ⟨-seconds, -nanos⟩ else ⟨seconds, nanos⟩
      if d.inRange then .ok d else .error .range
  match s.toList with
  | '-' :: rest => signed true rest
  | rest => signed false rest

/-- The text of a duration, if it is in range. Seconds and nanoseconds of different signs are
brought together; the sign that is written is that of either. -/
def text? (d : Duration) : Option String :=
  if d.inRange then
    let total := (d.seconds * 1000000000 + d.nanos).natAbs
    let sign := if d.seconds < 0 ∨ d.nanos < 0 then ['-'] else []
    some (String.ofList (sign ++ Nat.toDigits 10 (total / 1000000000) ++
      fractionText (total % 1000000000) ++ ['s']))
  else none

end Duration

end ServiceCall
