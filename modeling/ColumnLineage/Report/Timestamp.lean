import ColumnLineage.Text.Digits

/-!
# Points in time

A point in time in whole seconds of universal time, written as `2024-01-02T03:04:05Z`. A year that
does not have four digits is written with its sign, as in `+12024-01-02T03:04:05Z`.
-/

namespace ColumnLineage

def isLeapYear (year : Int) : Bool :=
  year % 4 = 0 && (year % 100 ≠ 0 || year % 400 = 0)

def daysInMonth (year : Int) (month : Nat) : Nat :=
  if month = 2 then (if isLeapYear year then 29 else 28)
  else if month = 4 ∨ month = 6 ∨ month = 9 ∨ month = 11 then 30
  else 31

/-- A point in time. A minute may have a leap second. -/
structure Timestamp where
  year : Int
  month : Nat
  day : Nat
  hour : Nat
  minute : Nat
  second : Nat
  /-- The year is one of those that are counted. -/
  year_mem : -262143 ≤ year ∧ year ≤ 262142
  month_mem : 1 ≤ month ∧ month ≤ 12
  day_mem : 1 ≤ day ∧ day ≤ daysInMonth year month
  hour_lt : hour < 24
  minute_lt : minute < 60
  second_le : second ≤ 60
deriving DecidableEq, Repr

namespace Timestamp

def digit (n : Nat) : Char :=
  Char.ofNat (48 + n % 10)

def two (n : Nat) : List Char :=
  [digit (n / 10), digit n]

def four (n : Nat) : List Char :=
  [digit (n / 1000), digit (n / 100), digit (n / 10), digit n]

/-- Four digits, or more if the number does not fit. -/
def fourOrMore (n : Nat) : List Char :=
  if n ≤ 9999 then four n
  else if n ≤ 99999 then digit (n / 10000) :: four n
  else digit (n / 100000) :: digit (n / 10000) :: four n

/-- A year: four digits, or a sign and at least four digits. -/
def yearText (year : Int) : List Char :=
  if 0 ≤ year ∧ year ≤ 9999 then four year.toNat
  else (if year < 0 then '-' else '+') :: fourOrMore year.natAbs

def text (t : Timestamp) : String :=
  String.ofList (yearText t.year ++ '-' :: two t.month ++ '-' :: two t.day ++ 'T' :: two t.hour ++
    ':' :: two t.minute ++ ':' :: two t.second ++ ['Z'])

/-- The point in time with the given parts, if it exists. -/
def ofParts? (year : Int) (month day hour minute second : Nat) : Option Timestamp :=
  if h₁ : -262143 ≤ year ∧ year ≤ 262142 then
    if h₂ : 1 ≤ month ∧ month ≤ 12 then
      if h₃ : 1 ≤ day ∧ day ≤ daysInMonth year month then
        if h₄ : hour < 24 then
          if h₅ : minute < 60 then
            if h₆ : second ≤ 60 then
              some ⟨year, month, day, hour, minute, second, h₁, h₂, h₃, h₄, h₅, h₆⟩
            else none
          else none
        else none
      else none
    else none
  else none

/-- The year at the front of a text and what follows it. Without a sign it has four digits. -/
def year? : List Char → Option (Int × List Char)
  | '+' :: rest =>
    (Text.decimal? (rest.takeWhile Char.isDigit)).map fun n : Nat =>
      ((n : Int), rest.dropWhile Char.isDigit)
  | '-' :: rest =>
    (Text.decimal? (rest.takeWhile Char.isDigit)).map fun n : Nat =>
      (-(n : Int), rest.dropWhile Char.isDigit)
  | y₁ :: y₂ :: y₃ :: y₄ :: rest =>
    (Text.decimal? [y₁, y₂, y₃, y₄]).map fun n : Nat => ((n : Int), rest)
  | _ => none

def ofText? (s : String) : Option Timestamp := do
  let (year, rest) ← year? s.toList
  match rest with
  | ['-', m₁, m₂, '-', d₁, d₂, 'T', h₁, h₂, ':', n₁, n₂, ':', s₁, s₂, 'Z'] =>
    ofParts? year (← Text.decimal? [m₁, m₂]) (← Text.decimal? [d₁, d₂])
      (← Text.decimal? [h₁, h₂]) (← Text.decimal? [n₁, n₂]) (← Text.decimal? [s₁, s₂])
  | _ => none

/-! ## Counting days -/

def daysInYear (year : Int) : Nat :=
  if isLeapYear year then 366 else 365

/-- The year and the day in it, counted from zero, that a number of days behind the start of a
year leads to. -/
def yearOfDays : Nat → Int → Nat → Int × Nat
  | 0, year, days => (year, days)
  | n + 1, year, days =>
    if days < daysInYear year then (year, days)
    else yearOfDays n (year + 1) (days - daysInYear year)

/-- The month and the day in it, counted from zero, likewise. -/
def monthOfDays (year : Int) : Nat → Nat → Nat → Nat × Nat
  | 0, month, days => (month, days)
  | n + 1, month, days =>
    if days < daysInMonth year month then (month, days)
    else monthOfDays year n (month + 1) (days - daysInMonth year month)

/-- The point in time a number of seconds behind the start of 1970, up to the year 9999. -/
def ofUnixSeconds? (seconds : Nat) : Option Timestamp :=
  let days := seconds / 86400
  let rest := seconds % 86400
  let (year, dayOfYear) := yearOfDays 8030 1970 days
  let (month, dayOfMonth) := monthOfDays year 12 1 dayOfYear
  ofParts? year month (dayOfMonth + 1) (rest / 3600) (rest % 3600 / 60) (rest % 60)

end Timestamp

end ColumnLineage
