import ItemClient.Text.Letter

/-!
# Points in time

A calendar date and a time of day in UTC, to the nanosecond; a leap second is a sixtieth second.
`Timestamp.text` writes `2024-05-01T10:00:00Z`, with as many of 0, 3, 6 or 9 fraction digits as
the value needs. `Timestamp.read?` is lenient: numbers may be short, blanks may stand around
them, the date and time are parted by `T` or one blank, and the zone is `Z`, `UTC` or an offset.
The calendar is moved by whole days only, so an offset carries into the day before or after.
-/

namespace ItemClient

open Text

def isLeapYear (year : Int) : Bool := year % 4 = 0 && (year % 100 ≠ 0 || year % 400 = 0)

def daysInMonth (year : Int) (month : Nat) : Nat :=
  if month = 2 then if isLeapYear year then 29 else 28
  else if month = 4 ∨ month = 6 ∨ month = 9 ∨ month = 11 then 30 else 31

/-- A day of the calendar. -/
structure Date where
  /-- The year; there is a year zero. -/
  year : Int
  /-- The month, from 1. -/
  month : Nat
  day : Nat
  year_range : -262143 ≤ year ∧ year ≤ 262142 := by decide
  month_range : 1 ≤ month ∧ month ≤ 12 := by decide
  day_range : 1 ≤ day ∧ day ≤ daysInMonth year month := by decide
  deriving DecidableEq

namespace Date

/-- The date with the given parts, if there is one. -/
def ofParts? (year : Int) (month day : Nat) : Option Date :=
  if h : (-262143 ≤ year ∧ year ≤ 262142) ∧ (1 ≤ month ∧ month ≤ 12) ∧
      (1 ≤ day ∧ day ≤ daysInMonth year month) then
    some ⟨year, month, day, h.1, h.2.1, h.2.2⟩
  else none

def previous? (d : Date) : Option Date :=
  if 1 < d.day then ofParts? d.year d.month (d.day - 1)
  else if 1 < d.month then ofParts? d.year (d.month - 1) (daysInMonth d.year (d.month - 1))
  else ofParts? (d.year - 1) 12 31

def next? (d : Date) : Option Date :=
  (ofParts? d.year d.month (d.day + 1)).or <|
    (ofParts? d.year (d.month + 1) 1).or (ofParts? (d.year + 1) 1 1)

end Date

/-- A point in time. -/
structure Timestamp where
  date : Date
  hour : Nat
  minute : Nat
  /-- The second; the sixtieth is a leap second. -/
  second : Nat
  nano : Nat
  hour_lt : hour < 24 := by decide
  minute_lt : minute < 60 := by decide
  second_le : second ≤ 60 := by decide
  nano_lt : nano < 1000000000 := by decide
  deriving DecidableEq

namespace Timestamp

def epoch : Timestamp :=
  { date := { year := 1970, month := 1, day := 1 }, hour := 0, minute := 0, second := 0, nano := 0 }

/-- A year: four digits, or more of them with a sign when four do not do. -/
def writeYear (year : Int) : List Char :=
  if 0 ≤ year ∧ year ≤ 9999 then padZeros 4 year.toNat
  else (if year < 0 then '-' else '+') :: padZeros 4 year.natAbs

/-- The fraction of a second, in groups of three digits. -/
def writeFraction (nano : Nat) : List Char :=
  if nano = 0 then []
  else if nano % 1000000 = 0 then '.' :: padZeros 3 (nano / 1000000)
  else if nano % 1000 = 0 then '.' :: padZeros 6 (nano / 1000)
  else '.' :: padZeros 9 nano

def write (t : Timestamp) : List Char :=
  writeYear t.date.year ++ ['-'] ++ padZeros 2 t.date.month ++ ['-'] ++ padZeros 2 t.date.day ++
    ['T'] ++ padZeros 2 t.hour ++ [':'] ++ padZeros 2 t.minute ++ [':'] ++ padZeros 2 t.second ++
    writeFraction t.nano ++ ['Z']

def text (t : Timestamp) : String := String.ofList t.write

/-! ## Reading -/

/-- At least one digit and at most `width`, as a number. -/
def number? (width : Nat) (cs : List Char) : Option (Nat × List Char) :=
  let digits := (cs.take width).takeWhile Char.isDigit
  if digits = [] then none else some (decimalValue digits, cs.drop digits.length)

/-- A number with blanks in front. -/
def field? (width : Nat) (cs : List Char) : Option (Nat × List Char) :=
  number? width (dropBlanks cs)

/-- A year with blanks in front: up to four digits, or a sign and any number of them. -/
def year? (cs : List Char) : Option (Int × List Char) :=
  match dropBlanks cs with
  | '-' :: rest => (number? rest.length rest).map fun (n, rest) => (-(n : Int), rest)
  | '+' :: rest => (number? rest.length rest).map fun (n, rest) => ((n : Int), rest)
  | rest => (number? 4 rest).map fun (n, rest) => ((n : Int), rest)

/-- A separator with blanks in front. -/
def separator? (c : Char) (cs : List Char) : Option (List Char) :=
  match dropBlanks cs with
  | d :: rest => if d = c then some rest else none
  | [] => none

/-- The nanoseconds after a point; digits beyond the ninth are skipped. -/
def fraction? : List Char → Option (Nat × List Char)
  | '.' :: rest =>
      let digits := (rest.take 9).takeWhile Char.isDigit
      if digits = [] then none
      else some (decimalValue digits * Nat.pow 10 (9 - digits.length),
        (rest.drop digits.length).dropWhile Char.isDigit)
  | rest => some (0, rest)

/-- Exactly two digits. -/
def twoDigits? : List Char → Option (Nat × List Char)
  | a :: b :: rest =>
      if a.isDigit ∧ b.isDigit then some (10 * digitValue a + digitValue b, rest) else none
  | _ => none

/-- The minutes of an offset: two digits, colons or blanks, two digits below sixty. -/
def offset? (cs : List Char) : Option (Nat × List Char) := do
  let (hours, rest) ← twoDigits? cs
  let (minutes, rest) ← twoDigits? (rest.dropWhile fun c => c == ':' || isBlank c)
  if minutes < 60 ∧ hours < 24 then some (60 * hours + minutes, rest) else none

/-- A zone: how many minutes it is ahead of UTC. -/
def zone? (cs : List Char) : Option (Int × List Char) :=
  match cs with
  | 'Z' :: rest | 'z' :: rest => some (0, rest)
  | '+' :: rest => (offset? rest).map fun (n, rest) => ((n : Int), rest)
  | '-' :: rest | '−' :: rest => (offset? rest).map fun (n, rest) => (-(n : Int), rest)
  | a :: b :: c :: rest =>
      if [a, b, c].map Char.toLower = ['u', 't', 'c'] then some (0, rest) else none
  | _ => none

/-- The point in time that a clock shows in a zone `ahead` minutes ahead of UTC. -/
def ofLocal? (date : Date) (hour minute second nano : Nat) (ahead : Int) : Option Timestamp := do
  let total : Int := 60 * hour + minute - ahead
  let date ←
    if total < 0 then date.previous? else if 1440 ≤ total then date.next? else some date
  let within := (total % 1440).toNat
  let hour := within / 60
  let minute := within % 60
  if h : hour < 24 ∧ minute < 60 ∧ second ≤ 60 ∧ nano < 1000000000 then
    some ⟨date, hour, minute, second, nano, h.1, h.2.1, h.2.2.1, h.2.2.2⟩
  else none

def betweenDateAndTime? : List Char → Option (List Char)
  | 'T' :: rest | 't' :: rest | ' ' :: rest => some rest
  | _ => none

def read? (cs : List Char) : Option Timestamp := do
  let (year, rest) ← year? cs
  let rest ← separator? '-' rest
  let (month, rest) ← field? 2 rest
  let rest ← separator? '-' rest
  let (day, rest) ← field? 2 rest
  let rest ← betweenDateAndTime? rest
  let (hour, rest) ← field? 2 rest
  let rest ← separator? ':' rest
  let (minute, rest) ← field? 2 rest
  let rest ← separator? ':' rest
  let (second, rest) ← field? 2 rest
  let (nano, rest) ← fraction? rest
  let (ahead, rest) ← zone? (dropBlanks rest)
  let date ← Date.ofParts? year month day
  if dropBlanks rest = [] ∧ hour < 24 ∧ minute < 60 then
    ofLocal? date hour minute second nano ahead
  else none

end Timestamp

end ItemClient
