import ColumnLineage.Settings.Number

/-!
# Files of settings

A file of settings holds keys with values, in tables and tables of tables. A key with dots leads
through tables, a header in brackets opens one, and a header in double brackets adds one to a list.
No key is set twice and no table is opened twice.
-/

namespace ColumnLineage

/-- How a table came to be, which decides who may add to it. -/
inductive TableKind
  /-- It is written in braces, and complete. -/
  | inline
  | headed
  /-- The header of a table within it was read. -/
  | implied
  | dotted
deriving DecidableEq, Repr

/-- The value of a setting. -/
inductive SettingValue
  | text (s : String)
  | integer (n : Int)
  | truth (b : Bool)
  /-- A number with a fraction or an exponent. -/
  | decimal
  | moment
  | list
  | table (kind : TableKind) (members : List (String × SettingValue))
  /-- A list of tables with headers, of which the members of the last one can still grow. -/
  | tables (last : List (String × SettingValue))

/-- The members of a table. -/
abbrev Members := List (String × SettingValue)

namespace Settings

/-! ## Members -/

/-- Puts a value in the place of a key, or behind the others. -/
def put (key : String) (value : SettingValue) : Members → Members
  | [] => [(key, value)]
  | (k, v) :: rest => if k = key then (key, value) :: rest else (k, v) :: put key value rest

/-- Changes the table that a path leads to; tables on the way are made if need be. A key with dots
does not lead into a table that has a header. -/
def descend (byKey : Bool) (change : TableKind → Members → Option Members) :
    List String → TableKind → Members → Option Members
  | [], kind, members => change kind members
  | key :: path, _, members =>
    match members.lookup key with
    | none => do
      let kind : TableKind := if byKey then .dotted else .implied
      return put key (.table kind (← descend byKey change path kind [])) members
    | some (.table kind inner) =>
      if kind = .inline || (byKey && kind = .headed) then none
      else return put key (.table kind (← descend byKey change path kind inner)) members
    | some (.tables last) =>
      return put key (.tables (← descend byKey change path .headed last)) members
    | some _ => none

/-- Sets a key, which has dots if there is a path before it. It must not be set already, and dots
must lead to a table that dots have made. -/
def assign (path : List String) (key : String) (value : SettingValue) (members : Members) :
    Option Members :=
  descend true (fun kind members =>
    if (kind = .dotted : Bool) = path.isEmpty || (members.lookup key).isSome then none
    else some (put key value members)) path .headed members

/-- Opens a table, which may have been implied before. -/
def openTable (path : List String) (key : String) (members : Members) : Option Members :=
  descend false (fun _ members =>
    match members.lookup key with
    | none => some (put key (.table .headed []) members)
    | some (.table .implied inner) => some (put key (.table .headed inner) members)
    | some _ => none) path .headed members

def openListed (path : List String) (key : String) (members : Members) : Option Members :=
  descend false (fun _ members =>
    match members.lookup key with
    | none | some (.tables _) => some (put key (.tables []) members)
    | some _ => none) path .headed members

/-! ## Keys -/

def simpleKey : SettingReader String := do
  match ← peek with
  | some '"' => doubleQuoted
  | some '\'' => singleQuoted
  | _ =>
    let key ← takeAll isKeyCharacter
    if key.isEmpty then failure else return String.ofList key

/-- How many parts a key may have, and one more than how deeply values may be nested. -/
def depthLimit : Nat := 80

/-- The parts of a key up to the last dot, with blanks around them; at most as many as the number
says. -/
def keyParts : Nat → SettingReader (List String × String)
  | 0 => failure
  | n + 1 => do
    blanks
    let part ← simpleKey
    blanks
    if ← exactly? "." then
      let (path, last) ← keyParts n
      return (part :: path, last)
    else return ([], part)

/-- A key: the tables that it leads through, and its last part. -/
def key : SettingReader (List String × String) :=
  keyParts (depthLimit - 1)

/-! ## Values -/

def comment : SettingReader Unit := do
  exactly "#"
  let _ ← takeAll fun c => c = '\t' || ' ' ≤ c

/-- Reads over blanks, comments and line breaks; at most as many lines as the number says. -/
def skipLines : Nat → SettingReader Unit
  | 0 => blanks
  | n + 1 => do
    blanks
    match ← peek with
    | some '#' =>
      comment
      newline
      skipLines n
    | some '\n' | some '\r' =>
      newline
      skipLines n
    | _ => return ()

/-- Reads over blanks, comments and line breaks. -/
def space : SettingReader Unit := do
  skipLines (← get).length

/-- The values of a list behind its opening bracket; at most as many as the number says. A comma may
stand behind the last one. -/
def listItems (value : SettingReader SettingValue) : Nat → SettingReader Unit
  | 0 => failure
  | n + 1 => do
    space
    unless ← exactly? "]" do
      let _ ← value
      space
      if ← exactly? "," then listItems value n else exactly "]"

/-- The members of a table behind its opening brace; at most as many as the number says. -/
def inlineMembers (value : SettingReader SettingValue) : Nat → Members → SettingReader Members
  | 0, _ => failure
  | n + 1, members => do
    let (path, last) ← key
    exactly "="
    blanks
    let v ← value
    blanks
    let members ← (assign path last v members : Option Members)
    if ← exactly? "," then inlineMembers value n members
    else
      exactly "\x7d"
      return members

def inlineTable (value : SettingReader SettingValue) : SettingReader SettingValue := do
  blanks
  if ← exactly? "\x7d" then return .table .inline []
  else return .table .inline (← inlineMembers value (← get).length [])

def scalar : SettingReader SettingValue :=
  (do return .text (← text)) <|> (do exactly "true"; return .truth true) <|>
    (do exactly "false"; return .truth false) <|> (do moment; return .moment) <|>
    (do decimal; return .decimal) <|> do return .integer (← integer)

/-- A value in which at most the given number of lists and tables are nested. -/
def value : Nat → SettingReader SettingValue
  | 0 => scalar
  | n + 1 => do
    if ← exactly? "[" then
      listItems (value n) (← get).length
      return .list
    else if ← exactly? "\x7b" then inlineTable (value n)
    else scalar

/-! ## Lines -/

/-- Reads over the rest of a line, in which nothing but a comment may stand. -/
def lineEnd : SettingReader Unit := do
  blanks
  if (← peek) = some '#' then comment
  unless (← get).isEmpty do newline

/-- What has been read of a file. -/
structure Document where
  members : Members
  path : List String

def settingLine (d : Document) : SettingReader Document := do
  let (path, last) ← key
  exactly "="
  blanks
  let v ← value (depthLimit - 1)
  lineEnd
  let members ← (descend false (fun _ => assign path last v) d.path .headed d.members : Option Members)
  return { d with members }

def headerLine (d : Document) : SettingReader Document := do
  let listed ← exactly? "[["
  unless listed do exactly "["
  let (path, last) ← key
  exactly (if listed then "]]" else "]")
  lineEnd
  let members ← ((if listed then openListed else openTable) path last d.members : Option Members)
  return { members, path := path ++ [last] }

/-- The lines of a file; at most as many as the number says. -/
def lines : Nat → Document → SettingReader Document
  | 0, _ => failure
  | n + 1, d => do
    blanks
    match ← peek with
    | none => return d
    | some '#' | some '\n' | some '\r' =>
      lineEnd
      lines n d
    | some '[' => lines n (← headerLine d)
    | some _ => lines n (← settingLine d)

/-- A text without the mark that may stand in front of it for the order of bytes. -/
def withoutMark : List Char → List Char
  | c :: rest => if c = Char.ofNat 0xFEFF then rest else c :: rest
  | [] => []

def ofText? (text : String) : Option Members := do
  let chars := withoutMark text.toList
  let (d, _) ← lines (chars.length + 1) ⟨[], []⟩ chars
  return d.members

end Settings

end ColumnLineage
