/-!
# Quoted text

How a text is written between quotes, and the kinds of text constants: plain ones, and those with
a letter or a dollar sign before them, which differ in how their characters are written.
-/

namespace ColumnLineage

/-! ## Quotes -/

/-- The characters between two quotes `q`. A quote is doubled; a pair of quotes is already
doubled and stays a pair, and a quote behind a backslash stays as it is. -/
def doubleQuotes (q : Char) : List Char → List Char :=
  go false
where
  /-- The loop; `escaped` says that the last character that counts was a backslash. -/
  go (escaped : Bool) : List Char → List Char
    | [] => []
    | c :: rest =>
      if c = q then
        if escaped then c :: go true rest
        else match rest with
          | [] => [q, q]
          | d :: rest' => if d = q then q :: q :: go false rest' else q :: q :: go false (d :: rest')
      else c :: go (c = '\\') rest

def quoted (q : Char) (s : String) : String :=
  q.toString ++ String.ofList (doubleQuotes q s.toList) ++ q.toString

/-! ## Kinds of text -/

/-- The kinds of text constants that are marked by what stands before the quotes. -/
inductive TextKind
  /-- `E'..'`, with escapes behind backslashes -/
  | escaped
  /-- `U&'..'`, with characters by their numbers -/
  | unicode
  | national
  | hex
  | bits
  | doubleBits
  /-- `$tag$..$tag$`, where the tag may be empty -/
  | dollar (tag : String)
deriving DecidableEq, Repr

def TextKind.enclose (kind : TextKind) (body : String) : String :=
  match kind with
  | .escaped => "E'" ++ body ++ "'"
  | .unicode => "U&'" ++ body ++ "'"
  | .national => "N'" ++ body ++ "'"
  | .hex => "X'" ++ body ++ "'"
  | .bits => "B'" ++ body ++ "'"
  | .doubleBits => "B\"" ++ body ++ "\""
  | .dollar tag => "$" ++ tag ++ "$" ++ body ++ "$" ++ tag ++ "$"

/-- A number in capital hexadecimal digits, with zeros before it up to the given width. -/
def paddedHex (width n : Nat) : List Char :=
  let digits := (Nat.toDigits 16 n).map Char.toUpper
  List.replicate (width - digits.length) '0' ++ digits

def escapedChar (c : Char) : List Char :=
  if c = '\'' then ['\\', '\'']
  else if c = '\\' then ['\\', '\\']
  else if c = '\n' then ['\\', 'n']
  else if c = '\t' then ['\\', 't']
  else if c = '\r' then ['\\', 'r']
  else [c]

/-- A character of a text that gives characters by their numbers. -/
def unicodeChar (c : Char) : List Char :=
  if c = '\'' then ['\'', '\'']
  else if c = '\\' then ['\\', '\\']
  else if c.toNat < 128 then [c]
  else if c.toNat ≤ 0xFFFF then '\\' :: paddedHex 4 c.toNat
  else '\\' :: '+' :: paddedHex 6 c.toNat

/-- A text constant of a kind as it is printed. -/
def TextKind.print (kind : TextKind) (s : String) : String :=
  match kind with
  | .escaped => kind.enclose (String.ofList (s.toList.flatMap escapedChar))
  | .unicode => kind.enclose (String.ofList (s.toList.flatMap unicodeChar))
  | _ => kind.enclose s

end ColumnLineage
