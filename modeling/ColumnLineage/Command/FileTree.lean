import ColumnLineage.Command.Host
import ColumnLineage.OrderedMap

/-!
# A host in memory

Files and directories as a value. Commands can run on it without a machine, and what they leave
behind can be looked at.
-/

namespace ColumnLineage

/-- What is at a path. -/
inductive FileNode
  | directory
  | text (content : String)
  | binary
deriving DecidableEq, Repr

/-- Files and directories by the components of their paths. The root is always there. -/
structure FileTree where
  nodes : OrderedMap Path FileNode
deriving DecidableEq

namespace FileTree

def empty : FileTree :=
  ⟨∅⟩

def get? (t : FileTree) (path : Path) : Option FileNode :=
  if path.isEmpty then some .directory else t.nodes.get? path

def insert (t : FileTree) (path : Path) (node : FileNode) : FileTree :=
  ⟨t.nodes.insert path node⟩

/-- Makes the directory whose components are given, starting in a directory of the tree. -/
def makeDirectory (t : FileTree) (start : Path) : Path → Except FileFault FileTree
  | [] => if t.get? start = some .directory then .ok t else .error .notDirectory
  | name :: rest =>
    if t.get? start ≠ some .directory then .error .notDirectory
    else if name = "" || name = "." then t.makeDirectory start rest
    else if name = ".." then t.makeDirectory start.dropLast rest
    else
      let path := start ++ [name]
      let t := if (t.get? path).isNone then t.insert path .directory else t
      t.makeDirectory path rest

/-- Puts something at a path together with the directories above it. -/
def insertAll (t : FileTree) (path : Path) (node : FileNode) : FileTree :=
  match t.makeDirectory [] path.dropLast with
  | .ok t => if path.isEmpty || (t.get? path).isSome && node = .directory then t
    else t.insert path node
  | .error _ => t

/-- The place that components lead to from a directory. Everything but the last component has to
lead to a directory. -/
def resolve (t : FileTree) (start : Path) : Path → Except FileFault Path
  | [] => .ok start
  | name :: rest =>
    match t.get? start with
    | some .directory =>
      if name = "" || name = "." then t.resolve start rest
      else if name = ".." then t.resolve start.dropLast rest
      else t.resolve (start ++ [name]) rest
    | some _ => .error .notDirectory
    | none => .error .missing

/-- The place that a path leads to from a directory. The empty path leads nowhere. -/
def locate (t : FileTree) (start : Path) (path : String) : Except FileFault Path :=
  if path.isEmpty then .error .missing
  else t.resolve (if Path.isAbsolute path then [] else start) (Path.ofText path)

/-- What a path leads to from a directory. -/
def lookup (t : FileTree) (start : Path) (path : String) : Except FileFault FileNode := do
  match t.get? (← t.locate start path) with
  | some node => return node
  | none => throw .missing

def read (t : FileTree) (start : Path) (path : String) : Except FileFault String := do
  match ← t.lookup start path with
  | .directory => throw .directory
  | .text content => return content
  | .binary => throw .notText

def write (t : FileTree) (start : Path) (path content : String) : Except FileFault FileTree := do
  let place ← t.locate start path
  match t.get? place with
  | some .directory => throw .directory
  | some _ => return t.insert place (.text content)
  | none =>
    match t.get? place.dropLast with
    | some .directory => return t.insert place (.text content)
    | some _ => throw .notDirectory
    | none => throw .missing

/-- What is at a path, seen from a place above it; down to a depth if one is given. -/
def entryBelow? (place : Path) (depth : Option Nat) (path : Path) (node : FileNode) :
    Option Entry :=
  let rest := path.drop place.length
  if place.isPrefixOf path && !rest.isEmpty && depth.all (rest.length ≤ ·) then
    some ⟨rest, node = .directory⟩
  else none

/-- What lies below a place; down to a depth if one is given. -/
def below (t : FileTree) (place : Path) (depth : Option Nat) : List Entry :=
  t.nodes.entries.filterMap fun (path, node) => entryBelow? place depth path node

end FileTree

/-! ## The host -/

/-- A host in memory. -/
structure MemoryHost where
  tree : FileTree
  current : Path
  time : Timestamp
  printed : String := ""

/-- Does something that changes the files. -/
def MemoryHost.change (f : MemoryHost → Except FileFault FileTree) :
    StateM MemoryHost (Except FileFault Unit) := do
  match f (← get) with
  | .ok tree =>
    modify fun h => { h with tree }
    return .ok ()
  | .error fault => return .error fault

instance : Host (StateM MemoryHost) where
  read path := do
    let h ← get
    return h.tree.read h.current path
  write path content := MemoryHost.change fun h => h.tree.write h.current path content
  makeDirectories path := MemoryHost.change fun h =>
    h.tree.makeDirectory (if Path.isAbsolute path then [] else h.current) (Path.ofText path)
  isPresent path := do
    let h ← get
    return (h.tree.lookup h.current path).isOk
  isDirectory path := do
    let h ← get
    return (h.tree.lookup h.current path).toOption = some .directory
  below path depth := do
    let h ← get
    match h.tree.locate h.current path with
    | .ok place => return h.tree.below place depth
    | .error _ => return []
  here := do return (← get).current
  now := do return (← get).time
  print text := modify fun h => { h with printed := h.printed ++ text }

end ColumnLineage
