import ColumnLineage.OrderedMap
import ColumnLineage.Text.Digits

/-!
# Reading JSON

A reader knows what it expects, and stops at the first problem: a text that ends too early, a
text that is no JSON, or JSON of another shape.
-/

namespace ColumnLineage

/-- Why a document cannot be read. -/
inductive JsonFault
  | malformed
  | incomplete
  | mismatch
deriving DecidableEq, Repr

/-- A reader takes characters from the front of a text. -/
abbrev JsonReader := StateT (List Char) (Except JsonFault)

namespace JsonReader

/-! ## Characters -/

/-- Blanks between the parts of a document. -/
def isBlank (c : Char) : Bool :=
  c = ' ' || c = '\n' || c = '\t' || c = '\r'

/-- Reads over blanks, and gives the next character, which stays. -/
def peek : JsonReader (Option Char) := do
  let rest := (← get).dropWhile isBlank
  set rest
  return rest.head?

def skip : JsonReader Unit :=
  modify List.tail

def word : List Char → JsonReader Unit
  | [] => return
  | c :: more => do
    match ← get with
    | [] => throw .incomplete
    | d :: rest =>
      set rest
      if c = d then word more else throw .malformed

/-! ## Texts -/

/-- The character that a letter behind a backslash stands for. -/
def escaped? (c : Char) : Option Char :=
  if c = '"' || c = '\\' || c = '/' then some c
  else if c = 'n' then some '\n'
  else if c = 'r' then some '\r'
  else if c = 't' then some '\t'
  else if c = 'b' then some (Char.ofNat 8)
  else if c = 'f' then some (Char.ofNat 12)
  else none

/-- Where a reader stands inside a text. -/
inductive TextState
  | plain
  | backslash
  /-- Before the given number of digits of a code; the digits so far; the first half of a pair. -/
  | digits (left value : Nat) (high : Option Nat)
  /-- Behind the first half of a pair, before the backslash of the second. -/
  | pairBackslash (high : Nat)
  /-- Behind that backslash, before its letter. -/
  | pairLetter (high : Nat)
deriving DecidableEq, Repr

def holdsFourBytes (rest : List Char) : Bool :=
  4 ≤ (rest.take 4).foldr (fun c n => c.utf8Size + n) 0

/-- What a complete code makes of a text: a character, or a pair that is half read. -/
def ofCode (value : Nat) : Option Nat → Except JsonFault (Char ⊕ Nat)
  | none =>
    if 0xDC00 ≤ value ∧ value ≤ 0xDFFF then .error .malformed
    else if 0xD800 ≤ value ∧ value ≤ 0xDBFF then .ok (.inr value)
    else .ok (.inl (Char.ofNat value))
  | some high =>
    if 0xDC00 ≤ value ∧ value ≤ 0xDFFF then
      .ok (.inl (Char.ofNat (0x10000 + (high - 0xD800) * 0x400 + (value - 0xDC00))))
    else .error .malformed

/-- The rest of a text up to its closing quote; `read` holds its characters in reverse. -/
def textFrom (state : TextState) (read : List Char) :
    List Char → Except JsonFault (String × List Char)
  | [] => .error .incomplete
  | c :: rest =>
    match state with
    | .plain =>
      if c = '"' then .ok (String.ofList read.reverse, rest)
      else if c = '\\' then textFrom .backslash read rest
      else if c.toNat < 32 then .error .malformed
      else textFrom .plain (c :: read) rest
    | .backslash =>
      if c = 'u' then
        if holdsFourBytes rest then textFrom (.digits 4 0 none) read rest else .error .incomplete
      else match escaped? c with
        | some d => textFrom .plain (d :: read) rest
        | none => .error .malformed
    | .digits left value high =>
      match Text.hexValue? c with
      | none => .error .malformed
      | some d =>
        let value := value * 16 + d
        if 1 < left then textFrom (.digits (left - 1) value high) read rest
        else match ofCode value high with
          | .error e => .error e
          | .ok (.inl c) => textFrom .plain (c :: read) rest
          | .ok (.inr high) => textFrom (.pairBackslash high) read rest
    | .pairBackslash high =>
      if c = '\\' then textFrom (.pairLetter high) read rest else .error .malformed
    | .pairLetter high =>
      if c = 'u' then
        if holdsFourBytes rest then textFrom (.digits 4 0 (some high)) read rest
        else .error .incomplete
      else .error .malformed

def textTail : JsonReader String := fun chars =>
  textFrom .plain [] chars

/-! ## Numbers -/

/-- The digits that come next, as characters; `fault` is thrown if there are none. -/
def digits : JsonReader (List Char) := do
  let chars ← get
  let read := chars.takeWhile Char.isDigit
  set (chars.drop read.length)
  match read with
  | [] => if chars.isEmpty then throw .incomplete else throw .malformed
  | _ => return read

/-- The whole part of a number: a zero stands alone. -/
def wholePart : JsonReader (List Char) := do
  let read ← digits
  match read with
  | '0' :: _ :: _ => throw .malformed
  | _ => return read

/-- The digits behind a point, if there is one. -/
def fraction : JsonReader (List Char) := do
  match ← get with
  | '.' :: rest =>
    set rest
    digits
  | _ => return []

def natOf (read : List Char) : Nat :=
  read.foldl (fun n c => n * 10 + (c.toNat - 48)) 0

/-- The exponent of a number: whether it is negative, and its digits. -/
def exponent : JsonReader (Bool × List Char) := do
  match ← get with
  | c :: rest =>
    if c = 'e' || c = 'E' then
      match rest with
      | '-' :: rest' =>
        set rest'
        return (true, ← digits)
      | '+' :: rest' =>
        set rest'
        return (false, ← digits)
      | _ =>
        set rest
        return (false, ← digits)
    else return (false, [])
  | [] => return (false, [])

/-- A number as it is written, without its sign. -/
structure Decimal where
  whole : List Char
  part : List Char
  downward : Bool
  power : List Char
deriving DecidableEq, Repr

def decimal : JsonReader Decimal := do
  if (← get).head? = some '-' then skip
  let whole ← wholePart
  let part ← fraction
  let (downward, power) ← exponent
  return { whole, part, downward, power }

def largestSignificand : Nat := 18446744073709551615

/-- Puts digits behind a significand as long as it stays small enough, and gives the digits that
are left. -/
def gather (significand : Nat) : List Char → Nat × List Char
  | [] => (significand, [])
  | c :: rest =>
    let longer := significand * 10 + (c.toNat - 48)
    if largestSignificand < longer then (significand, c :: rest) else gather longer rest

/-- The number of bits of a number, at most the first argument. -/
def bitLength : Nat → Nat → Nat
  | 0, _ => 0
  | fuel + 1, n => if n = 0 then 0 else bitLength fuel (n / 2) + 1

/-- The double that is nearest to a natural number, if doubles had no largest one; of two that are
equally near it is the even one. -/
def nearestDouble (n : Nat) : Nat :=
  let step := Nat.pow 2 (bitLength 1100 n - 53)
  let low := n / step
  let rest := 2 * (n % step)
  if rest < step || (rest = step && low % 2 = 0) then low * step else (low + 1) * step

/-- Whether a significand and an exponent give no finite double. The product of the nearest doubles
is taken, so a number that just fits may be refused. -/
def overflows (significand : Nat) (exponent : Int) : Bool :=
  if significand = 0 || exponent < 0 then false
  else if 308 < exponent then true
  else
    Nat.pow 2 1024 - Nat.pow 2 970 ≤
      nearestDouble significand * nearestDouble (Nat.pow 10 exponent.toNat)

/-- Whether a number is too large. Digits that do not fit into the significand count as zeros before
the point and are left out behind it. -/
def Decimal.tooLarge (d : Decimal) : Bool :=
  let (high, dropped) := gather 0 d.whole
  let (significand, left) := gather high d.part
  let shift : Int := dropped.length - (d.part.length - left.length : Nat)
  let power := natOf d.power
  if 2147483647 < power then significand ≠ 0 && !d.downward
  else overflows significand (if d.downward then shift - power else shift + power)

/-- A number; one that is too large is refused. -/
def number : JsonReader Unit := do
  if (← decimal).tooLarge then throw .malformed

/-! ## Expectations -/

/-- The failure at a value of another shape. Its first part must be JSON all the same. -/
def mismatch {α : Type} (c : Char) : JsonReader α := do
  if c = 'n' then word "null".toList
  else if c = 't' then word "true".toList
  else if c = 'f' then word "false".toList
  else if c = '"' then
    skip
    let _ ← textTail
  else if c = '-' || c.isDigit then number
  else if c != '[' && c != '\x7b' then throw .malformed
  throw .mismatch

/-- Reads the given opening character of a value. -/
def opening (c : Char) : JsonReader Unit := do
  match ← peek with
  | none => throw .incomplete
  | some d => if c = d then skip else mismatch d

def text : JsonReader String := do
  opening '"'
  textTail

/-- Whether another part follows before the closing character; the comma before it is read. -/
def another (closing : Char) (first : Bool) : JsonReader Bool := do
  match ← peek with
  | none => throw .incomplete
  | some c =>
    if c = closing then return false
    else if first then return true
    else if c = ',' then
      skip
      match ← peek with
      | none => throw .incomplete
      | some d => if d = closing then throw .malformed else return true
    else throw .malformed

/-- Parts up to a closing character, folded into a state. -/
def parts {σ : Type} (closing : Char) (part : σ → JsonReader σ) :
    Nat → Bool → σ → JsonReader σ
  | 0, _, _ => throw .incomplete
  | n + 1, first, state => do
    if ← another closing first then parts closing part n false (← part state)
    else
      skip
      return state

def key : JsonReader String := do
  match ← peek with
  | some '"' =>
    skip
    textTail
  | some _ => throw .malformed
  | none => throw .incomplete

/-- The colon between a key and its value. -/
def colon : JsonReader Unit := do
  match ← peek with
  | some ':' => skip
  | some _ => throw .malformed
  | none => throw .incomplete

def list {α : Type} (item : JsonReader α) : JsonReader (List α) := do
  opening '['
  let read ← parts ']' (fun (read : List α) => return (← item) :: read) (← get).length true []
  return read.reverse

/-- The members of an object in their order. -/
def object {α : Type} (value : JsonReader α) : JsonReader (List (String × α)) := do
  opening '\x7b'
  let read ← parts '\x7d' (fun (read : List (String × α)) => do
    let k ← key
    colon
    return (k, ← value) :: read) (← get).length true []
  return read.reverse

/-- An object as a map; a key that is repeated keeps its first place and takes its last value. -/
def map {α : Type} (value : JsonReader α) : JsonReader (OrderedMap String α) :=
  return OrderedMap.ofList (← object value)

/-! ## Values that do not matter -/

/-- What follows the closing quote of a text that does not matter; `escape` is the number of
characters that are still to come behind a backslash and the letter behind it. Codes need not be
those of characters. -/
def textEnd (escape : Nat) : List Char → Except JsonFault (List Char)
  | [] => .error .incomplete
  | c :: rest =>
    if 0 < escape then
      if (Text.hexValue? c).isSome then textEnd (escape - 1) rest else .error .malformed
    else if c = '"' then .ok rest
    else if c = '\\' then
      match rest with
      | [] => .error .incomplete
      | d :: rest' =>
        if d = 'u' then if holdsFourBytes rest' then textEnd 4 rest' else .error .incomplete
        else if (escaped? d).isSome then textEnd 0 rest'
        else .error .malformed
    else if c.toNat < 32 then .error .malformed
    else textEnd 0 rest

/-- Reads over a text behind its opening quote. -/
def ignoredText : JsonReader Unit := fun chars => do
  return ((), ← textEnd 0 chars)

/-- Reads over a number of any size. One that the end cuts short is malformed. -/
def ignoredNumber : JsonReader Unit :=
  tryCatch (do let _ ← decimal) fun _ => throw .malformed

def ignoredKey : JsonReader Unit := do
  match ← peek with
  | some '"' =>
    skip
    ignoredText
  | some _ => throw .malformed
  | none => throw .incomplete

/-- Reads over any value; the number bounds its depth. -/
def anything : Nat → JsonReader Unit
  | 0 => throw .incomplete
  | n + 1 => do
    match ← peek with
    | none => throw .incomplete
    | some '"' =>
      skip
      ignoredText
    | some '[' =>
      skip
      parts ']' (fun _ => anything n) (← get).length true ()
    | some '\x7b' =>
      skip
      parts '\x7d' (fun _ => do
        ignoredKey
        colon
        anything n) (← get).length true ()
    | some c =>
      if c = 'n' then word "null".toList
      else if c = 't' then word "true".toList
      else if c = 'f' then word "false".toList
      else if c = '-' || c.isDigit then ignoredNumber
      else throw .malformed

def ignored : JsonReader Unit := do
  anything (← get).length

/-! ## Records -/

/-- A record with named fields. `field` says what to do with a key, given the fields so far:
fail, read its value, or read over it. -/
def record {σ : Type} (field : String → σ → Except JsonFault (Option (JsonReader σ))) (start : σ) :
    JsonReader σ := do
  opening '\x7b'
  parts '\x7d' (fun state => do
    let k ← key
    match field k state with
    | .error e => throw e
    | .ok none =>
      colon
      ignored
      return state
    | .ok (some value) =>
      colon
      value) (← get).length true start

def once {α σ : Type} (present : Option α) (value : JsonReader σ) :
    Except JsonFault (Option (JsonReader σ)) :=
  if present.isSome then .error .mismatch else .ok (some value)

def required {α : Type} : Option α → JsonReader α
  | some a => return a
  | none => throw .mismatch

/-- A record by its named fields, or by the values of its fields in a list. -/
def recordOrList {α : Type} (byName byPosition : JsonReader α) : JsonReader α := do
  match ← peek with
  | some '[' =>
    skip
    byPosition
  | _ => byName

/-- The next value of a list, which must be there. -/
def element {α : Type} (first : Bool) (value : JsonReader α) : JsonReader α := do
  if ← another ']' first then value else throw .mismatch

def closeList : JsonReader Unit := do
  match ← peek with
  | some ']' => skip
  | some _ => throw .malformed
  | none => throw .incomplete

/-! ## Whole documents -/

def run {α : Type} (reader : JsonReader α) (document : String) : Except JsonFault α := do
  let (a, rest) ← reader document.toList
  if (rest.dropWhile isBlank).isEmpty then return a else throw .malformed

end JsonReader

end ColumnLineage
