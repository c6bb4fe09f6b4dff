import ColumnLineage.Parser.Basic
import ColumnLineage.Syntax.Literal

/-!
# Reading constants

Texts, whole numbers, values and fields of dates: what the grammar wants where no expression may
stand.
-/

namespace ColumnLineage.Parser

/-! ## Texts -/

/-- The text that a token stands for where a text must stand: one in quotes, or a word that is no
keyword. -/
def textOf? : Token → Option String
  | .text s => some s
  | .marked .escaped s => some s
  | .marked .unicode s => some s
  | .word w => if w.isName then some w.value else none
  | _ => none

def literalString : Parser String := do
  let found ← next
  match found.bind textOf? with
  | some s => return s
  | none => throw (.expected "literal string" found)

/-! ## Numbers -/

/-- The largest whole number that a size may be. -/
def largestWhole : Nat := 18446744073709551615

/-- The digits of a number without the letter that may stand behind them. -/
def digitsOf (spelling : String) : String :=
  String.ofList (spelling.toList.filter (· ≠ 'L'))

def wholeValue (digits : List Char) : Nat :=
  digits.foldl (fun n c => 10 * n + (c.toNat - '0'.toNat)) 0

/-- A whole number as it is printed: without zeros before it. -/
def normalWhole (type : String) (largest : Nat) (spelling : String) : Except ParseError String :=
  let s := digitsOf spelling
  let refuse (why : String) : ParseError :=
    .remark ("Could not parse '" ++ s ++ "' as " ++ type ++ ": " ++ why)
  if !s.toList.all Char.isDigit then .error (refuse "invalid digit found in string")
  else if largest < wholeValue s.toList then
    .error (refuse "number too large to fit in target type")
  else .ok (Nat.repr (wholeValue s.toList))

/-- A whole number that is at most as large as the type says. -/
def wholeNumberOf (type : String) (largest : Nat) : Parser String := do
  match ← next with
  | some (.number s) =>
    match normalWhole type largest s with
    | .ok n => return n
    | .error e => throw e
  | found => throw (.expected "literal int" found)

def wholeNumber : Parser String :=
  wholeNumberOf "u64" largestWhole

/-- A whole number in parentheses, if a parenthesis opens. -/
def precision? : Parser (Option String) := do
  if ← atSymbol "(" then return some (← parenthesized wholeNumber) else return none

/-- One or two whole numbers in parentheses, if a parenthesis opens. -/
def precisionAndScale? : Parser (Option String × Option String) := do
  if ← symbol? "(" then
    let precision ← wholeNumber
    let scale ← if ← symbol? "," then pure (some (← wholeNumber)) else pure none
    symbol ")"
    return (some precision, scale)
  else return (none, none)

/-! ## Values -/

/-- The name of a placeholder behind its sign. -/
def placeholderName (sign : String) : Parser Literal := do
  match ← next with
  | some (.word w) => return .placeholder (sign ++ w.value)
  | some (.number s) =>
    if digitsOf s = s then return .placeholder (sign ++ s)
    else throw (.expected "placeholder" (some (.number s)))
  | found => throw (.expected "placeholder" found)

def wordConstant (w : Word) : Parser Literal :=
  match w.keyword with
  | "TRUE" => return .boolean true
  | "FALSE" => return .boolean false
  | "NULL" => return .null
  | _ =>
    if w.quoted then return .doubleQuoted w.value
    else throw (.expected "a concrete value" (some (.word w)))

def constant : Parser Literal := do
  match ← next with
  | some (.number s) => return .number s
  | some (.text s) => return .text s
  | some (.marked kind s) => return .marked kind s
  | some (.placeholder name) => return .placeholder name
  | some (.word w) => wordConstant w
  | some (.symbol ":") => placeholderName ":"
  | some (.symbol "@") => placeholderName "@"
  | found => throw (.expected "a value" found)

def numberValue : Parser String := do
  let tokens ← get
  match ← constant with
  | .number s => return s
  | .placeholder name => return name
  | _ =>
    set (tokens.drop (tokens.length - (← get).length - 1))
    expected "literal number"

def signedNumber : Parser String := do
  if ← symbol? "+" then return "+" ++ (← numberValue)
  else if ← symbol? "-" then return "-" ++ (← numberValue)
  else numberValue

/-! ## Dates -/

/-- The fields of a date that are written in capitals. -/
def dateUnits : List String :=
  ["YEAR", "MONTH", "WEEK", "DAY", "DAYOFWEEK", "DAYOFYEAR", "DATE", "DATETIME", "HOUR", "MINUTE",
    "SECOND", "CENTURY", "DECADE", "DOY", "DOW", "EPOCH", "ISODOW", "ISOWEEK", "ISOYEAR", "JULIAN",
    "MICROSECOND", "MICROSECONDS", "MILLENIUM", "MILLENNIUM", "MILLISECOND", "MILLISECONDS",
    "NANOSECOND", "NANOSECONDS", "QUARTER", "TIME", "TIMEZONE", "TIMEZONE_ABBR", "TIMEZONE_HOUR",
    "TIMEZONE_MINUTE", "TIMEZONE_REGION"]

/-- The fields that may stand behind an interval. -/
def intervalUnits : List String :=
  ["YEAR", "MONTH", "WEEK", "DAY", "HOUR", "MINUTE", "SECOND", "CENTURY", "DECADE", "DOW", "DOY",
    "EPOCH", "ISODOW", "ISOYEAR", "JULIAN", "MICROSECOND", "MICROSECONDS", "MILLENIUM",
    "MILLENNIUM", "MILLISECOND", "MILLISECONDS", "NANOSECOND", "NANOSECONDS", "QUARTER",
    "TIMEZONE", "TIMEZONE_HOUR", "TIMEZONE_MINUTE"]

def dateField : Parser DateField := do
  match ← next with
  | some (.word w) =>
    return if dateUnits.contains w.keyword then .unit w.keyword else .custom w.ident
  | some (.text s) => return .custom ⟨s, some .single⟩
  | found => throw (.expected "date/time field" found)

/-- What stands behind the amount of an interval. -/
def unitsBehind : Parser IntervalUnits := do
  let leading ← if ← atKeyword intervalUnits then pure (some (← dateField)) else pure none
  if leading = some (.unit "SECOND") then
    let (precision, fraction) ← precisionAndScale?
    return { leading, precision, fraction }
  else
    let precision ← precision?
    if ← keyword? "TO" then
      let last ← dateField
      let fraction ← if last = .unit "SECOND" then precision? else pure none
      return { leading, precision, last := some last, fraction }
    else return { leading, precision }

end ColumnLineage.Parser
