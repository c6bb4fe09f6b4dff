import ColumnLineage.Settings.Text

/-!
# Numbers and moments in files of settings

Whole numbers, numbers with a fraction or an exponent, dates and times. A low line may stand
between two digits of a number.
-/

namespace ColumnLineage.Settings

/-! ## Digits -/

/-- Digits with low lines between them, without the low lines. -/
def digitRun (isDigit : Char → Bool) : SettingReader (List Char)
  | [] => none
  | c :: '_' :: rest =>
    if isDigit c then (digitRun isDigit rest).map fun (digits, rest) => (c :: digits, rest) else none
  | c :: rest =>
    if isDigit c then
      match digitRun isDigit rest with
      | some (digits, rest) => some (c :: digits, rest)
      | none => some ([c], rest)
    else none

/-- The number that digits spell in a base. -/
def valueOf (base : Nat) (digits : List Char) : Nat :=
  digits.foldl (fun n c => n * base + (Text.hexValue? c).getD 0) 0

/-- Whether a character is a digit in a base. -/
def isDigitOf (base : Nat) (c : Char) : Bool :=
  (Text.hexValue? c).any (· < base)

/-- The digits of a whole number: a zero stands alone. -/
def wholeDigits : SettingReader (List Char) := do
  if ← exactly? "0" then return ['0'] else digitRun (isDigitOf 10)

/-- Whether a minus sign comes next; a sign is read. -/
def negative? : SettingReader Bool := do
  if ← exactly? "-" then return true
  else
    let _ ← exactly? "+"
    return false

/-! ## Whole numbers -/

/-- A whole number behind the mark of its base. -/
def basedInteger (mark : String) (base : Nat) : SettingReader Int := do
  exactly mark
  return Int.ofNat (valueOf base (← digitRun (isDigitOf base)))

def decimalInteger : SettingReader Int := do
  let negative ← negative?
  let n : Int := Int.ofNat (valueOf 10 (← wholeDigits))
  return if negative then -n else n

/-- A whole number, which fits into 64 bits. -/
def integer : SettingReader Int := do
  let n ← basedInteger "0x" 16 <|> basedInteger "0o" 8 <|> basedInteger "0b" 2 <|> decimalInteger
  if -9223372036854775808 ≤ n && n ≤ 9223372036854775807 then return n else failure

/-! ## Other numbers -/

def exponent : SettingReader Int := do
  exactly "e" <|> exactly "E"
  let negative ← negative?
  let n : Int := Int.ofNat (valueOf 10 (← digitRun (isDigitOf 10)))
  return if negative then -n else n

/-- Whether a number is too large for a double: at least half a step above the largest one. -/
def tooLarge (digits : Nat) (exponent : Int) : Bool :=
  let bound := Nat.pow 2 1024 - Nat.pow 2 970
  let size : Int := (Nat.toDigits 10 digits).length + exponent
  if digits = 0 || size < 300 then false
  else if 400 < size then true
  else if 0 ≤ exponent then bound ≤ digits * Nat.pow 10 exponent.toNat
  else bound * Nat.pow 10 (-exponent).toNat ≤ digits

/-- A number with a fraction or an exponent. One that is too large is refused unless it is
negative. -/
def finite : SettingReader Unit := do
  let negative ← negative?
  let whole ← wholeDigits
  let part ← if ← exactly? "." then digitRun (isDigitOf 10) else pure []
  let power ← if part.isEmpty then exponent else exponent <|> return 0
  if !negative && tooLarge (valueOf 10 (whole ++ part)) (power - part.length) then failure

/-- A number with a fraction or an exponent, or one of the words for numbers without digits. -/
def decimal : SettingReader Unit :=
  finite <|> do
    let _ ← negative?
    exactly "inf" <|> exactly "nan"

/-! ## Moments -/

/-- A number of exactly as many digits, within bounds. -/
def digitsWithin (count low high : Nat) : SettingReader Nat := do
  let chars ← get
  let digits := (chars.take count).takeWhile (isDigitOf 10)
  let n := valueOf 10 digits
  if digits.length = count && low ≤ n && n ≤ high then
    set (chars.drop count)
    return n
  else failure

def daysOf (year month : Nat) : Nat :=
  if month = 2 then
    if year % 4 = 0 && (year % 100 ≠ 0 || year % 400 = 0) then 29 else 28
  else if [4, 6, 9, 11].contains month then 30
  else 31

def date : SettingReader Unit := do
  let year ← digitsWithin 4 0 9999
  exactly "-"
  let month ← digitsWithin 2 1 12
  exactly "-"
  let _ ← digitsWithin 2 1 (daysOf year month)

def time : SettingReader Unit := do
  let _ ← digitsWithin 2 0 23
  exactly ":"
  let _ ← digitsWithin 2 0 59
  exactly ":"
  let _ ← digitsWithin 2 0 60
  (do exactly "."; if (← takeAll (isDigitOf 10)).isEmpty then failure) <|> return ()

/-- The distance of a time from the one at the prime meridian. -/
def offset : SettingReader Unit :=
  exactly "Z" <|> exactly "z" <|> do
    exactly "+" <|> exactly "-"
    let _ ← digitsWithin 2 0 23
    exactly ":"
    let _ ← digitsWithin 2 0 59

def moment : SettingReader Unit :=
  (do
    date
    (do
      exactly "T" <|> exactly "t" <|> exactly " "
      time
      offset <|> return ()) <|> return ()) <|> time

end ColumnLineage.Settings
