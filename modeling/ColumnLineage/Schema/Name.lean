import ColumnLineage.Syntax.Ident
import ColumnLineage.Text.LowerCase

/-!
# The names of tables

A table is written with one, two or three parts. Defaults supply the parts that are missing. The
full name of a table has as many parts as are known.
-/

namespace ColumnLineage

/-- The parts of a name that are used where they are not written. -/
structure Defaults where
  catalog : Option String := none
  schema : Option String := none
deriving DecidableEq, Repr

/-! ## References -/

/-- A table as it is written. -/
structure TableReference where
  catalog : Option String := none
  schema : Option String := none
  name : String
deriving DecidableEq, Repr

namespace TableReference

/-- The reference that the last three parts of a list make, given in reverse. -/
def ofReversed : List String → TableReference
  | [] => ⟨none, none, ""⟩
  | [table] => ⟨none, none, table⟩
  | [table, schema] => ⟨none, some schema, table⟩
  | table :: schema :: catalog :: _ => ⟨some catalog, some schema, table⟩

/-- The reference that a name makes. At most three parts count, the last ones. -/
def ofObjectName (n : ObjectName) : TableReference :=
  ofReversed (n.parts.map Ident.value).reverse

/-- Whether only the table itself is written. -/
def isBare (r : TableReference) : Bool :=
  r.catalog.isNone && r.schema.isNone

/-- The parts that are there, from the left. -/
def parts (r : TableReference) : List String :=
  r.catalog.toList ++ r.schema.toList ++ [r.name]

def text (r : TableReference) : String :=
  ".".intercalate r.parts

/-- The reference with its missing schema supplied, and its missing catalog if a schema is known
then. -/
def complete (r : TableReference) (d : Defaults) : TableReference :=
  let schema := r.schema.or d.schema
  { r with schema, catalog := if schema.isSome then r.catalog.or d.catalog else r.catalog }

end TableReference

/-- The name with its missing parts written out before it. A catalog is written only before a
schema. -/
def ObjectName.complete (n : ObjectName) (d : Defaults) : ObjectName :=
  let r := TableReference.ofObjectName n
  let catalog := if r.catalog.isNone && (r.schema.isSome || d.schema.isSome) then d.catalog else none
  let schema := if r.schema.isNone then d.schema else none
  ⟨(catalog.toList ++ schema.toList).map (⟨·, none⟩) ++ n.parts⟩

/-! ## Full names -/

/-- The full name of a table: its known parts. -/
structure FullName where
  /-- The parts, the most general one first. -/
  parts : List String
deriving DecidableEq, Repr

namespace FullName

/-- The full name of a reference. Parts that are empty texts are left out. -/
def resolve (r : TableReference) (d : Defaults) : FullName :=
  ⟨([r.catalog.or d.catalog, r.schema.or d.schema, some r.name].filterMap id).filter (· ≠ "")⟩

def ofObjectName (n : ObjectName) (d : Defaults) : FullName :=
  resolve (TableReference.ofObjectName n) d

def text (f : FullName) : String :=
  ".".intercalate f.parts

/-- The full name of a column of the table. -/
def column (f : FullName) (name : String) : String :=
  f.text ++ "." ++ name

/-- The pieces of a text between dots; `piece` is the last one in reverse. -/
def pieces (piece : List Char) : List Char → List String
  | [] => [String.ofList piece.reverse]
  | c :: rest =>
    if c = '.' then String.ofList piece.reverse :: pieces [] rest else pieces (c :: piece) rest

/-- The full name that a dotted text spells. -/
def ofText (s : String) : FullName :=
  ⟨pieces [] s.toList⟩

/-- Whether two full names agree, ignoring case, in the parts that both have, from the right. -/
def agrees (a b : FullName) : Bool :=
  (a.parts.reverse.zip b.parts.reverse).all fun (x, y) => Text.equalIgnoringCase x y

/-- The order of lists by their first difference. -/
def compareParts : List String → List String → Ordering
  | [], [] => .eq
  | [], _ :: _ => .lt
  | _ :: _, [] => .gt
  | a :: as, b :: bs => if a < b then .lt else if a = b then compareParts as bs else .gt

/-- The order of full names by their parts. -/
def compare (a b : FullName) : Ordering :=
  compareParts a.parts b.parts

/-- Whether a full name comes before another. -/
def less (a b : FullName) : Bool :=
  a.compare b = .lt

end FullName

end ColumnLineage
