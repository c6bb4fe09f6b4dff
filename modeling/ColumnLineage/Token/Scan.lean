import ColumnLineage.Text.Alphabetic
import ColumnLineage.Token.Basic

/-!
# Reading tokens

`Token.scan` cuts a text into tokens. Each token is the longest one that can start where it
starts; `Token.scanOne` reads one of them. A text fails to be cut only if a string, a quoted name
or a comment is never closed, or if a character in a string is given by a number that is none;
the message gives the place by line and column.
-/

namespace ColumnLineage

/-! ## Failures -/

/-- What cannot be read. -/
inductive ScanFault
  /-- A string in single quotes is never closed. -/
  | text
  /-- A name in double quotes is never closed. -/
  | quotedName
  /-- A comment between `/*` and `*/` is never closed. -/
  | comment
  /-- A string with escapes is never closed, or an escape in it means no character. -/
  | escapedText
  /-- A string that gives characters by their numbers is never closed. -/
  | unicodeText
  /-- The text ends inside the number of a character. -/
  | unicodeEnd
  | unicodeDigit (c : Char)
  | unicodeNumber (n : Nat)
  /-- A string between two pairs of dollar signs is never closed. -/
  | dollarText
  /-- A string between two tags in dollar signs is never closed. -/
  | taggedText
deriving DecidableEq, Repr

/-- A fault with the place where it shows. -/
structure ScanError where
  fault : ScanFault
  line : Nat
  /-- The character of the line, counted from 1. -/
  column : Nat
deriving DecidableEq, Repr

def ScanFault.message : ScanFault → String
  | .text => "Unterminated string literal"
  | .quotedName => "Expected close delimiter '\"' before EOF."
  | .comment => "Unexpected EOF while in a multi-line comment"
  | .escapedText => "Unterminated encoded string literal"
  | .unicodeText => "Unterminated unicode encoded string literal"
  | .unicodeEnd => "Unexpected EOF while parsing hex digit in escaped unicode string."
  | .unicodeDigit c => "Invalid hex digit in escaped unicode string: " ++ c.toString
  | .unicodeNumber n =>
    "Invalid unicode character: " ++ String.ofList (Nat.toDigits 16 n)
  | .dollarText => "Unterminated dollar-quoted string"
  | .taggedText => "Unterminated dollar-quoted, expected $"

def ScanError.message (e : ScanError) : String :=
  e.fault.message ++ " at Line: " ++ toString e.line ++ ", Column: " ++ toString e.column

namespace Token

/-- A fault with the characters that follow the place where it shows. -/
abbrev FaultBefore := ScanFault × List Char

/-! ## Words -/

def startsName (c : Char) : Bool :=
  Text.isAlphabetic c || c = '_'

/-- Whether a character can stand inside a name. -/
def continuesName (c : Char) : Bool :=
  Text.isAlphabetic c || c.isDigit || c = '$' || c = '_'

/-- The capital letter or letters of a character, as far as they belong to the ASCII range; any
other character stays as it is, since no keyword holds it. -/
def capitals (c : Char) : List Char :=
  if c.toNat < 128 then [c.toUpper]
  else match c.toNat with
    | 0xDF => ['S', 'S']
    | 0x131 => ['I']
    | 0x17F => ['S']
    | 0xFB00 => ['F', 'F']
    | 0xFB01 => ['F', 'I']
    | 0xFB02 => ['F', 'L']
    | 0xFB03 => ['F', 'F', 'I']
    | 0xFB04 => ['F', 'F', 'L']
    | 0xFB05 => ['S', 'T']
    | 0xFB06 => ['S', 'T']
    | _ => [c]

def plainWord (cs : List Char) : Token :=
  .word ⟨String.ofList cs, false, String.ofList (cs.flatMap capitals)⟩

/-! ## Quoted text -/

/-- The text up to the closing quote `q`, where a doubled quote stands for one, and what follows;
`none` if the quote is never closed. -/
def quotedBody (q : Char) : List Char → Option (List Char × List Char)
  | [] => none
  | [c] => if c = q then some ([], []) else none
  | c :: d :: rest =>
    if c = q then
      if d = q then (quotedBody q rest).map fun (body, after) => (q :: body, after)
      else some ([], d :: rest)
    else (quotedBody q (d :: rest)).map fun (body, after) => (c :: body, after)

/-- The character that a letter behind a backslash means in a plain string. -/
def backslashed (c : Char) : Char :=
  match c with
  | '0' => Char.ofNat 0
  | 'a' => Char.ofNat 7
  | 'b' => Char.ofNat 8
  | 'f' => Char.ofNat 12
  | 'n' => '\n'
  | 'r' => '\r'
  | 't' => '\t'
  | 'Z' => Char.ofNat 26
  | _ => c

/-- Likewise up to a single quote, where a backslash changes the character behind it. -/
def backslashedBody : List Char → Option (List Char × List Char)
  | [] => none
  | [c] => if c = '\'' then some ([], []) else none
  | c :: d :: rest =>
    if c = '\'' then
      if d = '\'' then (backslashedBody rest).map fun (body, after) => ('\'' :: body, after)
      else some ([], d :: rest)
    else if c = '\\' then
      (backslashedBody rest).map fun (body, after) => (backslashed d :: body, after)
    else (backslashedBody (d :: rest)).map fun (body, after) => (c :: body, after)

/-! ## Characters by number -/

def hexDigit? (c : Char) : Option Nat :=
  if c.isDigit then some (c.toNat - 48)
  else if 'a' ≤ c && c ≤ 'f' then some (c.toNat - 87)
  else if 'A' ≤ c && c ≤ 'F' then some (c.toNat - 55)
  else none

/-- The character of a number, unless there is none. -/
def charOf? (n : Nat) : Option Char :=
  if n.isValidChar then some (Char.ofNat n) else none

/-- A number of hexadecimal digits in front of a value, none of which may be missing. -/
def hexValue? (value : Nat) : List Char → Option Nat
  | [] => some value
  | c :: cs => (hexDigit? c).bind fun d => hexValue? (value * 16 + d) cs

/-- A character of one byte by its number; only those below 128 are allowed, and never zero. -/
def byteChar? (n : Nat) : Option Char :=
  let byte := n % 256
  if byte = 0 || byte > 127 then none else some (Char.ofNat byte)

/-- The digits of a base at the front of a text, at most the given number of them. -/
def takeDigits (base : Nat) : Nat → List Char → List Char
  | 0, _ => []
  | _, [] => []
  | n + 1, c :: cs =>
    if (hexDigit? c).any (· < base) then c :: takeDigits base n cs else []

/-- The number that digits of a base mean. -/
def digitsValue (base : Nat) (cs : List Char) : Nat :=
  cs.foldl (fun n c => n * base + (hexDigit? c).getD 0) 0

/-- The number that hexadecimal digits mean; a plus sign may stand in front of them. -/
def signedHexValue? : List Char → Option Nat
  | '+' :: digits => hexValue? 0 digits
  | digits => hexValue? 0 digits

/-- The character that stands behind a backslash in a string with escapes, and what follows. -/
def escapeChar? (c : Char) (rest : List Char) : Option (Char × List Char) :=
  let wide (n : Nat) : Option (Char × List Char) :=
    if (rest.take n).length = n then
      ((signedHexValue? (rest.take n)).bind charOf?).bind fun d =>
        if d.toNat = 0 then none else some (d, rest.drop n)
    else none
  match c with
  | 'b' => some (Char.ofNat 8, rest)
  | 'f' => some (Char.ofNat 12, rest)
  | 'n' => some ('\n', rest)
  | 'r' => some ('\r', rest)
  | 't' => some ('\t', rest)
  | 'u' => wide 4
  | 'U' => wide 8
  | 'x' =>
    match takeDigits 16 2 rest with
    | [] => some ('x', rest)
    | ds => (byteChar? (digitsValue 16 ds)).map (·, rest.drop ds.length)
  | _ =>
    if '0' ≤ c && c ≤ '7' then
      let ds := c :: takeDigits 8 2 rest
      (byteChar? (digitsValue 8 ds)).map (·, rest.drop (ds.length - 1))
    else if c.toNat = 0 then none
    else some (c, rest)

/-- A string with escapes up to its closing quote, and what follows. Each step reads a character,
so as many steps as characters are enough. -/
def escapedBody : Nat → List Char → Option (List Char × List Char)
  | 0, _ => none
  | _, [] => none
  | n + 1, c :: rest =>
    if c = '\'' then
      match rest with
      | '\'' :: rest => (escapedBody n rest).map fun (body, after) => ('\'' :: body, after)
      | _ => some ([], rest)
    else if c = '\\' then
      match rest with
      | [] => none
      | d :: rest =>
        (escapeChar? d rest).bind fun (e, rest) =>
          (escapedBody n rest).map fun (body, after) => (e :: body, after)
    else (escapedBody n rest).map fun (body, after) => (c :: body, after)

/-- The character that the next digits give, as many as the number says, and what follows. -/
def numberedChar (value : Nat) : Nat → List Char → Except FaultBefore (Char × List Char)
  | 0, rest =>
    match charOf? value with
    | some c => .ok (c, rest)
    | none => .error (.unicodeNumber value, rest)
  | _, [] => .error (.unicodeEnd, [])
  | n + 1, c :: rest =>
    match hexDigit? c with
    | some d => numberedChar (value * 16 + d) n rest
    | none => .error (.unicodeDigit c, rest)

/-- A string that gives characters by their numbers, up to its closing quote, and what follows. -/
def unicodeBody : Nat → List Char → Except FaultBefore (List Char × List Char)
  | 0, _ => .error (.unicodeText, [])
  | _, [] => .error (.unicodeText, [])
  | n + 1, c :: rest => do
    if c = '\'' then
      match rest with
      | '\'' :: rest =>
        let (body, after) ← unicodeBody n rest
        return ('\'' :: body, after)
      | _ => return ([], rest)
    else if c = '\\' then
      let (d, rest) ←
        match rest with
        | '\\' :: rest => pure ('\\', rest)
        | '+' :: rest => numberedChar 0 6 rest
        | _ => numberedChar 0 4 rest
      let (body, after) ← unicodeBody n rest
      return (d :: body, after)
    else
      let (body, after) ← unicodeBody n rest
      return (c :: body, after)

/-! ## Text between dollar signs -/

/-- Reads along a tag: what is read, what follows, and whether it is the whole tag. The first
character that differs from the tag is read too. -/
def alongTag : List Char → List Char → List Char × List Char × Bool
  | [], rest => ([], rest, true)
  | _ :: _, [] => ([], [], false)
  | t :: tag, c :: rest =>
    if c = t then
      let (read, after, whole) := alongTag tag rest
      (c :: read, after, whole)
    else ([c], rest, false)

/-- The text up to its closing tag, and what follows. A dollar sign may open the closing tag; if the
characters behind it differ from the tag they belong to the text, together with the first that
differs, even if that one is a dollar sign. Each step reads a character, so as many steps as
characters are enough. -/
def taggedBody (tag : List Char) : Nat → List Char → Option (List Char × List Char)
  | 0, _ => none
  | _, [] => none
  | n + 1, c :: rest =>
    if c = '$' then
      match alongTag tag rest with
      | (_, '$' :: after, true) => some ([], after)
      | (read, after, _) =>
        (taggedBody tag n after).map fun (body, last) => (c :: read ++ body, last)
    else (taggedBody tag n rest).map fun (body, after) => (c :: body, after)

/-- What a dollar sign starts: a string between two tags, or a placeholder. -/
def dollarToken (rest : List Char) : Except FaultBefore (Token × List Char) :=
  let inTag (c : Char) : Bool := Text.isAlphabetic c || Text.isNumeric c || c = '_'
  let tag := rest.takeWhile inTag
  match rest.dropWhile inTag with
  | '$' :: body =>
    match taggedBody tag body.length body with
    | some (value, after) => .ok (.marked (.dollar (String.ofList tag)) (String.ofList value), after)
    | none => .error (if tag.isEmpty then .dollarText else .taggedText, [])
  | after => .ok (.placeholder (String.ofList ('$' :: tag)), after)

/-! ## Comments -/

/-- What follows a comment of which `depth + 1` openings are still to be closed; `last` is the
character before. A character may belong to two marks, as in `*/*`. -/
def afterComment (depth : Nat) (last : Char) : List Char → Option (List Char)
  | [] => none
  | c :: rest =>
    if last = '/' && c = '*' then afterComment (depth + 1) c rest
    else if last = '*' && c = '/' then
      match depth with
      | 0 => some rest
      | n + 1 => afterComment n c rest
    else afterComment depth c rest

/-- What follows a comment that ends with its line. -/
def afterLine (cs : List Char) : List Char :=
  (cs.dropWhile fun c => c ≠ '\n').drop 1

/-! ## Numbers -/

/-- The exponent of a number, if digits follow its mark. -/
def takeExponent (cs : List Char) : List Char × List Char :=
  match cs with
  | e :: rest =>
    if e = 'e' || e = 'E' then
      let (sign, digits) :=
        match rest with
        | s :: more => if s = '+' || s = '-' then ([s], more) else ([], rest)
        | [] => ([], [])
      match digits.takeWhile Char.isDigit with
      | [] => ([], cs)
      | ds => (e :: sign ++ ds, digits.dropWhile Char.isDigit)
    else ([], cs)
  | [] => ([], [])

/-- The characters of a number, or of a lone point, and what follows. -/
def takeNumber (cs : List Char) : List Char × List Char :=
  let whole := cs.takeWhile Char.isDigit
  let (point, rest) :=
    match cs.dropWhile Char.isDigit with
    | '.' :: rest => (['.'], rest)
    | rest => ([], rest)
  let body := whole ++ point ++ rest.takeWhile Char.isDigit
  let rest := rest.dropWhile Char.isDigit
  if body = ['.'] then (body, rest)
  else
    let (exponent, rest) := takeExponent rest
    let (long, rest) :=
      match rest with
      | 'L' :: rest => (['L'], rest)
      | rest => ([], rest)
    (body ++ exponent ++ long, rest)

/-- The token that starts with a digit or a point, and what follows. A zero before the letter `x`
starts a hexadecimal number. -/
def numberToken (cs : List Char) : Token × List Char :=
  match cs with
  | '0' :: 'x' :: rest =>
    (.marked .hex (String.ofList (rest.takeWhile fun c => (hexDigit? c).isSome)),
      rest.dropWhile fun c => (hexDigit? c).isSome)
  | _ =>
    match takeNumber cs with
    | (['.'], after) => (.symbol ".", after)
    | (digits, after) => (.number (String.ofList digits), after)

/-! ## Operators -/

/-- The characters that operators are made of. -/
def isOperatorChar (c : Char) : Bool :=
  "+-*/<>=~!@#%^&|`?".toList.contains c

/-- The characters that begin an operator as long as its characters go on. -/
def startsOperator (c : Char) : Bool :=
  "-<>|&%~#".toList.contains c

/-- The longest of the given spellings that the text starts with. -/
def longestOf (spellings : List String) (cs : List Char) : Option (String × List Char) :=
  (spellings.find? fun s => s.toList.isPrefixOf cs).map fun s => (s, cs.drop s.length)

/-- Operators that do not go on beyond their own spelling, the longer ones first. -/
def fixedOperators : List String :=
  ["=>", "==", "::", ":=", "^@", "!~~*", "!~~", "!~*", "!~", "!!", "@>", "@?", "@@", "?|", "?&"]

/-- The symbol that no other rule reads, and what follows. A question mark by itself takes the
character behind it away. -/
def symbolToken (c : Char) (rest : List Char) : Token × List Char :=
  match longestOf fixedOperators (c :: rest) with
  | some (s, after) => (.symbol s, after)
  | none => (.symbol c.toString, if c = '?' then rest.drop 1 else rest)

/-! ## Strings with a letter before them -/

/-- A text that may be missing, or the fault of the given place. -/
def markedToken (kind : TextKind) (fault : FaultBefore) :
    Option (List Char × List Char) → Except FaultBefore (Token × List Char)
  | some (body, after) => .ok (.marked kind (String.ofList body), after)
  | none => .error fault

/-- The string that a letter before a quote starts, if it starts one. -/
def letteredText? (c : Char) (rest : List Char) : Option (Except FaultBefore (Token × List Char)) :=
  match c.toLower, rest with
  | 'b', '\'' :: body => some (markedToken .bits (.text, rest) (quotedBody '\'' body))
  | 'b', '"' :: body => some (markedToken .doubleBits (.text, rest) (quotedBody '"' body))
  | 'n', '\'' :: body => some (markedToken .national (.text, rest) (backslashedBody body))
  | 'x', '\'' :: body => some (markedToken .hex (.text, rest) (backslashedBody body))
  | 'e', '\'' :: body =>
    some (markedToken .escaped (.escapedText, c :: rest) (escapedBody body.length body))
  | 'u', '&' :: '\'' :: body =>
    some ((unicodeBody body.length body).map fun (value, after) =>
      (.marked .unicode (String.ofList value), after))
  | _, _ => none

/-! ## One token -/

/-- The first token of a text that is not empty, and what follows it. -/
def scanOne (c : Char) (rest : List Char) : Except FaultBefore (Token × List Char) :=
  let cs := c :: rest
  if Text.isBlank c then .ok (.blank, rest)
  else if startsName c then
    match letteredText? c rest with
    | some result => result
    | none => .ok (plainWord (c :: rest.takeWhile continuesName), rest.dropWhile continuesName)
  else if c = '\'' then
    match quotedBody c rest with
    | some (body, after) => .ok (.text (String.ofList body), after)
    | none => .error (.text, cs)
  else if c = '"' then
    match quotedBody c rest with
    | some (body, after) => .ok (.word ⟨String.ofList body, true, ""⟩, after)
    | none => .error (.quotedName, cs)
  else if c.isDigit || c = '.' then .ok (numberToken cs)
  else if c = '$' then dollarToken rest
  else if "--".toList.isPrefixOf cs then .ok (.blank, afterLine rest)
  else if "/*".toList.isPrefixOf cs then
    match afterComment 0 ' ' (rest.drop 1) with
    | some after => .ok (.blank, after)
    | none => .error (.comment, [])
  else if "!=".toList.isPrefixOf cs then .ok (.symbol "<>", rest.drop 1)
  else if startsOperator c then
    .ok (.symbol (String.ofList (c :: rest.takeWhile isOperatorChar)), rest.dropWhile isOperatorChar)
  else .ok (symbolToken c rest)

/-! ## The whole text -/

/-- Line and column of the character that follows the given ones. -/
def placeAfter : Nat × Nat → List Char → Nat × Nat
  | place, [] => place
  | (line, column), c :: rest =>
    if c = '\n' then placeAfter (line + 1, 1) rest else placeAfter (line, column + 1) rest

/-- The tokens of a text, at most `fuel` of them; a fault comes with what follows its place. -/
def scanAt : Nat → List Char → Except FaultBefore (List Token)
  | _, [] => .ok []
  | 0, _ => .ok []
  | fuel + 1, c :: rest =>
    match scanOne c rest with
    | .error e => .error e
    | .ok (t, after) =>
      match scanAt fuel after with
      | .error e => .error e
      | .ok ts => .ok (t :: ts)

/-- The failure with its place, given what follows it. -/
def scanError (text : List Char) (fault : ScanFault) (left : List Char) : ScanError :=
  let (line, column) := placeAfter (1, 1) (text.take (text.length - left.length))
  ⟨fault, line, column⟩

/-- The tokens of a text. No token is empty, so there are no more of them than characters. -/
def scan (s : String) : Except ScanError (List Token) :=
  match scanAt s.toList.length s.toList with
  | .ok ts => .ok ts
  | .error (fault, left) => .error (scanError s.toList fault left)

end Token

end ColumnLineage
