import ColumnLineage.Text.Digits

/-!
# Texts in files of settings

A text stands in double quotes, with escapes behind backslashes, or in single quotes, in which
nothing is escaped. Three quotes in a row enclose a text of several lines.
-/

namespace ColumnLineage

/-- A reader takes characters from the front of a file of settings, or refuses them. -/
abbrev SettingReader := StateT (List Char) Option

namespace Settings

/-! ## Characters -/

def isBlank (c : Char) : Bool :=
  c = ' ' || c = '\t'

/-- The characters that, quotes and backslashes apart, may stand in texts. -/
def isPrintable (c : Char) : Bool :=
  c = '\t' || ' ' ≤ c && c ≠ Char.ofNat 127

/-- The characters of a key without quotes. -/
def isKeyCharacter (c : Char) : Bool :=
  c.isAlphanum || c = '_' || c = '-'

def peek : SettingReader (Option Char) := do
  return (← get).head?

def exactly (word : String) : SettingReader Unit := do
  let chars ← get
  if word.toList.isPrefixOf chars then set (chars.drop word.length) else failure

/-- Whether the given characters come next; if so they are read. -/
def exactly? (word : String) : SettingReader Bool :=
  (do exactly word; return true) <|> return false

/-- The characters that come next and pass a test. -/
def takeAll (test : Char → Bool) : SettingReader (List Char) := do
  let chars ← get
  let read := chars.takeWhile test
  set (chars.drop read.length)
  return read

def blanks : SettingReader Unit := do
  let _ ← takeAll isBlank

def newline : SettingReader Unit :=
  exactly "\n" <|> exactly "\r\n"

/-! ## Escapes -/

/-- The character that a letter behind a backslash stands for. -/
def escaped? (c : Char) : Option Char :=
  if c = '"' || c = '\\' then some c
  else if c = 'n' then some '\n'
  else if c = 'r' then some '\r'
  else if c = 't' then some '\t'
  else if c = 'b' then some (Char.ofNat 8)
  else if c = 'f' then some (Char.ofNat 12)
  else none

/-- The character whose number is spelled in base sixteen. -/
def numbered? (digits : List Char) : Option Char := do
  let n ← digits.foldlM (fun n c => (Text.hexValue? c).map (n * 16 + ·)) 0
  if n.isValidChar then some (Char.ofNat n) else none

def escape : SettingReader Char
  | 'u' :: a :: b :: c :: d :: rest => (numbered? [a, b, c, d]).map (·, rest)
  | 'U' :: a :: b :: c :: d :: e :: f :: g :: h :: rest =>
    (numbered? [a, b, c, d, e, f, g, h]).map (·, rest)
  | c :: rest => (escaped? c).map (·, rest)
  | [] => none

/-! ## Texts on one line -/

/-- The rest of a text up to its double quote; at most as many characters as the number says. -/
def doubleQuotedFrom : Nat → SettingReader (List Char)
  | 0, _ => none
  | _ + 1, '"' :: rest => some ([], rest)
  | n + 1, '\\' :: rest => do
    let (c, rest) ← escape rest
    let (text, rest) ← doubleQuotedFrom n rest
    return (c :: text, rest)
  | n + 1, c :: rest =>
    if isPrintable c then do
      let (text, rest) ← doubleQuotedFrom n rest
      return (c :: text, rest)
    else none
  | _, [] => none

def doubleQuoted : SettingReader String := do
  exactly "\""
  return String.ofList (← doubleQuotedFrom (← get).length)

def singleQuoted : SettingReader String := do
  exactly "'"
  let text ← takeAll fun c => c ≠ '\'' && isPrintable c
  exactly "'"
  return String.ofList text

/-! ## Texts on several lines -/

/-- The quotes that belong to a text behind the three that end it: at most two. -/
def lastQuotes (quote : Char) : SettingReader (List Char)
  | a :: b :: rest =>
    if a = quote && b = quote then some ([quote, quote], rest)
    else if a = quote then some ([quote], b :: rest)
    else some ([], a :: b :: rest)
  | [a] => if a = quote then some ([quote], []) else some ([], [a])
  | [] => some ([], [])

def behindFold : List Char → List Char
  | '\r' :: '\n' :: rest => behindFold rest
  | c :: rest => if isBlank c || c = '\n' then behindFold rest else c :: rest
  | [] => []

/-- What stands behind a backslash at the end of a line: the blanks and line breaks that follow are
left out. -/
def folded? (rest : List Char) : Option (List Char) :=
  match rest.dropWhile isBlank with
  | '\n' :: more => some (behindFold more)
  | '\r' :: '\n' :: more => some (behindFold more)
  | _ => none

/-- The rest of a text up to three double quotes; at most as many characters as the number says. -/
def longDoubleQuotedFrom : Nat → SettingReader (List Char)
  | 0, _ => none
  | _ + 1, '"' :: '"' :: '"' :: rest => lastQuotes '"' rest
  | n + 1, '\\' :: rest =>
    match folded? rest with
    | some rest => longDoubleQuotedFrom n rest
    | none => do
      let (c, rest) ← escape rest
      let (text, rest) ← longDoubleQuotedFrom n rest
      return (c :: text, rest)
  | n + 1, '\r' :: '\n' :: rest => do
    let (text, rest) ← longDoubleQuotedFrom n rest
    return ('\n' :: text, rest)
  | n + 1, c :: rest =>
    if c = '\n' || isPrintable c then do
      let (text, rest) ← longDoubleQuotedFrom n rest
      return (c :: text, rest)
    else none
  | _, [] => none

/-- The rest of a text up to three single quotes. -/
def longSingleQuotedFrom : SettingReader (List Char)
  | '\'' :: '\'' :: '\'' :: rest => lastQuotes '\'' rest
  | '\r' :: '\n' :: rest => do
    let (text, rest) ← longSingleQuotedFrom rest
    return ('\n' :: text, rest)
  | c :: rest =>
    if c = '\n' || isPrintable c then do
      let (text, rest) ← longSingleQuotedFrom rest
      return (c :: text, rest)
    else none
  | [] => none

/-- A text of several lines. A line break right behind the opening quotes is left out. -/
def longText : SettingReader String := do
  let isDouble ← exactly? "\"\"\""
  unless isDouble do exactly "'''"
  newline <|> return ()
  let text ← if isDouble then longDoubleQuotedFrom (← get).length else longSingleQuotedFrom
  return String.ofList text

def text : SettingReader String :=
  longText <|> doubleQuoted <|> singleQuoted

end Settings

end ColumnLineage
