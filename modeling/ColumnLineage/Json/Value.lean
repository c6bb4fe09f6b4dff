/-!
# JSON documents

The documents that are written hold texts, lists and objects. Members of an object stand in the
order in which they are given. A document is written on one line, or on several lines with two
blanks per level.
-/

namespace ColumnLineage

mutual

/-- A document. -/
inductive Json
  | text (value : String)
  | list (items : List Json)
  | object (members : List Member)

/-- A member of an object. -/
inductive Member
  | mk (key : String) (value : Json)

end

namespace Json

/-! ## Texts -/

def hexDigit (n : Nat) : Char :=
  if n < 10 then Char.ofNat (48 + n) else Char.ofNat (87 + n)

/-- A character inside quotes. Quotes, backslashes and control characters are escaped. -/
def escape (c : Char) : List Char :=
  if c = '"' then ['\\', '"']
  else if c = '\\' then ['\\', '\\']
  else if c = '\n' then ['\\', 'n']
  else if c = '\r' then ['\\', 'r']
  else if c = '\t' then ['\\', 't']
  else if c.toNat = 8 then ['\\', 'b']
  else if c.toNat = 12 then ['\\', 'f']
  else if c.toNat < 32 then
    ['\\', 'u', '0', '0', hexDigit (c.toNat / 16), hexDigit (c.toNat % 16)]
  else [c]

def quote (s : String) : String :=
  "\"" ++ String.ofList (s.toList.flatMap escape) ++ "\""

/-! ## One line -/

mutual

/-- The document on one line without blanks. -/
def compact : Json → String
  | .text s => quote s
  | .list items => "[" ++ ",".intercalate (compactItems items) ++ "]"
  | .object members => "\x7b" ++ ",".intercalate (compactMembers members) ++ "\x7d"
termination_by structural j => j

def compactItems : List Json → List String
  | [] => []
  | j :: rest => compact j :: compactItems rest
termination_by structural js => js

def compactMember : Member → String
  | .mk key value => quote key ++ ":" ++ compact value
termination_by structural m => m

def compactMembers : List Member → List String
  | [] => []
  | m :: rest => compactMember m :: compactMembers rest
termination_by structural ms => ms

end

/-! ## Several lines -/

/-- A line break and the blanks of a level. -/
def newline (level : Nat) : String :=
  "\n" ++ String.ofList (List.replicate (2 * level) ' ')

/-- Parts between brackets, each on a line of its own one level deeper. -/
def block (level : Nat) (opening closing : String) (parts : List String) : String :=
  match parts with
  | [] => opening ++ closing
  | parts =>
    opening ++ ",".intercalate (parts.map (newline (level + 1) ++ ·)) ++ newline level ++ closing

mutual

/-- The document on several lines, at a level. -/
def prettyAt (level : Nat) : Json → String
  | .text s => quote s
  | .list items => block level "[" "]" (prettyItems (level + 1) items)
  | .object members => block level "\x7b" "\x7d" (prettyMembers (level + 1) members)
termination_by structural j => j

def prettyItems (level : Nat) : List Json → List String
  | [] => []
  | j :: rest => prettyAt level j :: prettyItems level rest
termination_by structural js => js

def prettyMember (level : Nat) : Member → String
  | .mk key value => quote key ++ ": " ++ prettyAt level value
termination_by structural m => m

def prettyMembers (level : Nat) : List Member → List String
  | [] => []
  | m :: rest => prettyMember level m :: prettyMembers level rest
termination_by structural ms => ms

end

def pretty (j : Json) : String :=
  prettyAt 0 j

end Json

end ColumnLineage
