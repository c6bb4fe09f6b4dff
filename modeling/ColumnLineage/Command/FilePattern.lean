import ColumnLineage.Command.Host

/-!
# Patterns of file names

In a pattern `*` stands for any characters of a name, `?` for one character, `[abc]` and `[a-z]`
for one character of a class, `[!abc]` for one outside of it, and a component `**` for any number
of directories.
-/

namespace ColumnLineage

/-! ## Patterns -/

/-- A part of a class of characters. -/
inductive CharacterRange
  | one (c : Char)
  /-- The characters from the first to the last. -/
  | span (first last : Char)
deriving DecidableEq, Repr

/-- A part of the pattern of a name. -/
inductive NamePart
  | character (c : Char)
  | anyCharacter
  | anyText
  | oneOf (ranges : List CharacterRange)
  | noneOf (ranges : List CharacterRange)
  | directories
deriving DecidableEq, Repr

/-- What is wrong with a pattern. -/
inductive PatternCause
  /-- There are more than two stars in a row. -/
  | stars
  /-- Two stars are only a part of a component. -/
  | directories
  | range
deriving DecidableEq, Repr

/-- Why a text is no pattern. -/
structure PatternFault where
  /-- How many characters stand before the problem. -/
  position : Nat
  cause : PatternCause
deriving DecidableEq, Repr

def PatternFault.message (f : PatternFault) : String :=
  "Pattern syntax error near position " ++ toString f.position ++ ": " ++
    match f.cause with
    | .stars => "wildcards are either regular `*` or recursive `**`"
    | .directories => "recursive wildcards must form a single path component"
    | .range => "invalid range pattern"

namespace NamePart

/-! ## Reading -/

def ranges : List Char → List CharacterRange
  | [] => []
  | a :: '-' :: b :: rest => .span a b :: ranges rest
  | a :: rest => .one a :: ranges rest

/-- The class that starts with a character, and what follows it. -/
def class? (first : Char) (rest : List Char) : Option (List CharacterRange × List Char) :=
  match rest.dropWhile (· ≠ ']') with
  | [] => none
  | _ :: after => some (ranges (first :: rest.takeWhile (· ≠ ']')), after)

/-- The part that a bracket opens, and what follows it. -/
def bracket? : List Char → Option (NamePart × List Char)
  | '!' :: c :: rest => (class? c rest).map fun (r, rest) => (.noneOf r, rest)
  | '!' :: [] => none
  | c :: rest => (class? c rest).map fun (r, rest) => (.oneOf r, rest)
  | [] => none

/-- The part that stars at a position stand for, and what follows it. -/
def stars (position : Nat) (before : Option Char) (cs : List Char) :
    Except PatternFault (NamePart × List Char) :=
  let rest := cs.dropWhile (· = '*')
  match cs.length - rest.length with
  | 1 => .ok (.anyText, rest)
  | 2 =>
    if before.all (· = '/') then
      match rest with
      | [] => .ok (.directories, [])
      | c :: after =>
        if c = '/' then .ok (.directories, after)
        else .error ⟨position + 2, .directories⟩
    else .error ⟨position - 1, .directories⟩
  | _ => .error ⟨position + 2, .stars⟩

/-- The first part of a pattern, and what follows it. -/
def first (position : Nat) (before : Option Char) (c : Char) (rest : List Char) :
    Except PatternFault (NamePart × List Char) :=
  if c = '?' then .ok (.anyCharacter, rest)
  else if c = '*' then stars position before (c :: rest)
  else if c = '[' then
    match bracket? rest with
    | some found => .ok found
    | none => .error ⟨position, .range⟩
  else .ok (.character c, rest)

/-- The parts of a pattern, at most as many as the fuel, behind a number of characters the last of
which is given. -/
def allFrom : Nat → Nat → Option Char → List Char → Except PatternFault (List NamePart)
  | 0, _, _, _ => .ok []
  | _ + 1, _, _, [] => .ok []
  | fuel + 1, position, before, c :: rest => do
    let (part, after) ← first position before c rest
    let taken := rest.length + 1 - after.length
    let parts ← allFrom fuel (position + taken) ((c :: rest)[taken - 1]?) after
    return part :: parts

def all (text : String) : Except PatternFault (List NamePart) :=
  allFrom text.length 0 none text.toList

/-! ## Matching -/

def inRange (c : Char) : CharacterRange → Bool
  | .one a => c = a
  | .span first last => first ≤ c && c ≤ last

/-- The ends of a list, the list itself first. -/
def suffixes : List Char → List (List Char)
  | [] => [[]]
  | c :: rest => (c :: rest) :: suffixes rest

def agrees : List NamePart → List Char → Bool
  | [], cs => cs.isEmpty
  | .anyText :: parts, cs => (suffixes cs).any fun rest => agrees parts rest
  | .directories :: parts, cs => (suffixes cs).any fun rest => agrees parts rest
  | .character a :: parts, c :: rest => c = a && agrees parts rest
  | .anyCharacter :: parts, _ :: rest => agrees parts rest
  | .oneOf ranges :: parts, c :: rest => ranges.any (inRange c) && agrees parts rest
  | .noneOf ranges :: parts, c :: rest => !ranges.any (inRange c) && agrees parts rest
  | _ :: _, [] => false

/-- The name that a pattern without special parts stands for. -/
def literal? : List NamePart → Option (List Char)
  | [] => some []
  | .character c :: parts => (literal? parts).map (c :: ·)
  | _ :: _ => none

end NamePart

/-! ## Files of a pattern -/

/-- A component of a pattern. -/
inductive PatternComponent
  | name (text : String)
  | names (parts : List NamePart)
  | directories
deriving DecidableEq, Repr

/-- A pattern of paths. -/
structure FilePattern where
  isAbsolute : Bool
  components : List PatternComponent
  onlyDirectories : Bool
deriving DecidableEq, Repr

def PatternComponent.ofText (text : String) : Except PatternFault PatternComponent := do
  let parts ← NamePart.all text
  if parts = [.directories] then return .directories
  match NamePart.literal? parts with
  | some found => return .name (String.ofList found)
  | none => return .names parts

namespace FilePattern

/-- Reads a pattern. The pattern as a whole is looked at before its components. -/
def ofText (text : String) : Except PatternFault FilePattern := do
  let _ ← NamePart.all text
  let isAbsolute := Path.isAbsolute text
  let parts := if isAbsolute then (Path.ofText text).tail else Path.ofText text
  let onlyDirectories := parts.getLast? = some ""
  let components ← (if onlyDirectories then parts.dropLast else parts).mapM PatternComponent.ofText
  return { isAbsolute, components, onlyDirectories }

section expand

variable {m : Type → Type} [Monad m] [Host m]

/-- The path of an entry below a directory. -/
def entryPath (directory : String) (e : Entry) : String :=
  Path.join directory ("/".intercalate e.path)

def directoriesBelow (directory : String) : m (List String) := do
  let entries ← Host.below directory none
  return (entries.filter Entry.isDirectory).map (entryPath directory)

/-- What a name leads to from a directory. The names `.` and `..` and the empty one need a
directory and no entry in it; behind `**` they lead nowhere. -/
def followName (listed : Bool) (directory name : String) : m (List String) := do
  let path := Path.join directory name
  let found ←
    if name = "." || name = ".." || name = "" then
      if listed then pure false else Host.isDirectory directory
    else Host.isPresent path
  return if found then [path] else []

/-- What the names of a pattern lead to from a directory. The names `.` and `..` need a pattern
that starts with a dot, and do not count behind `**`. -/
def followNames (listed : Bool) (directory : String) (parts : List NamePart) :
    m (List String) := do
  let entries ← Host.below directory (some 1)
  let found := entries.filter fun e => NamePart.agrees parts ("/".intercalate e.path).toList
  let special :=
    if !listed && parts.head? = some (.character '.') && (← Host.isDirectory directory) then
      [".", ".."].filter fun name => NamePart.agrees parts name.toList
    else []
  return found.map (entryPath directory) ++ special.map (Path.join directory)

/-- What components lead to from a directory. A pattern that ends in `**` means the directories
below. -/
def follow (listed : Bool) : List PatternComponent → String → m (List String)
  | [], path => return [path]
  | .directories :: rest, path => do
    let below ← directoriesBelow path
    if rest.all (· = .directories) then return below
    return (← (path :: below).mapM (follow true rest)).flatten
  | .name name :: rest, path => do
    return (← (← followName listed path name).mapM (follow false rest)).flatten
  | .names parts :: rest, path => do
    return (← (← followNames listed path parts).mapM (follow false rest)).flatten

/-- The paths of a pattern in the order of their components. -/
def expand (p : FilePattern) : m (List String) := do
  let found ← follow false p.components (if p.isAbsolute then "/" else ".")
  let kept ←
    if p.onlyDirectories then
      found.filterM fun path => Host.isDirectory path
    else pure found
  return Text.sortWith (fun a b => Path.less (Path.ofText a) (Path.ofText b)) kept

end expand

end FilePattern

end ColumnLineage
