import ColumnLineage.Report.Timestamp
import ColumnLineage.Text.Sorted

/-!
# Hosts

What the commands see of the machine they run on: files and directories, the time, and a place
to print to. A path is a text whose components are separated by `/`; it starts at the current
directory unless it begins with `/`.
-/

namespace ColumnLineage

/-! ## Paths -/

/-- The components of a path. -/
abbrev Path := List String

namespace Path

/-- The order of paths by their components. -/
def less (a b : Path) : Bool :=
  decide (a < b)

/-- The components of the text between slashes. -/
def splitAtSlashes : List Char → List (List Char)
  | [] => [[]]
  | c :: rest =>
    match splitAtSlashes rest with
    | [] => [[c]]
    | first :: others => if c = '/' then [] :: first :: others else (c :: first) :: others

def ofText (text : String) : Path :=
  (splitAtSlashes text.toList).map String.ofList

def isAbsolute (text : String) : Bool :=
  text.toList.head? = some '/'

/-- The path of what has a name in a directory. -/
def join (directory name : String) : String :=
  if directory.isEmpty || directory = "." then name
  else if directory.toList.getLast? = some '/' then directory ++ name
  else directory ++ "/" ++ name

end Path

/-! ## Files -/

/-- Why a file cannot be read or written. -/
inductive FileFault
  | missing
  | directory
  | notDirectory
  | notText
  | other (description : String)
deriving DecidableEq, Repr

def FileFault.message : FileFault → String
  | .missing => "No such file or directory (os error 2)"
  | .directory => "Is a directory (os error 21)"
  | .notDirectory => "Not a directory (os error 20)"
  | .notText => "stream did not contain valid UTF-8"
  | .other description => description

/-- What lies below a directory. -/
structure Entry where
  /-- The components of its path behind the directory. -/
  path : Path
  isDirectory : Bool
deriving DecidableEq, Repr

/-- The machine that commands run on. -/
class Host (m : Type → Type) where
  read : String → m (Except FileFault String)
  write : String → String → m (Except FileFault Unit)
  /-- Makes a directory and those above it, unless they exist. -/
  makeDirectories : String → m (Except FileFault Unit)
  /-- Whether there is something at a path. -/
  isPresent : String → m Bool
  /-- Whether there is a directory at a path. -/
  isDirectory : String → m Bool
  /-- What lies below a directory, in any order; down to a depth if one is given. -/
  below : String → Option Nat → m (List Entry)
  /-- The components of the path from the root to the current directory. -/
  here : m Path
  now : m Timestamp
  print : String → m Unit

end ColumnLineage
