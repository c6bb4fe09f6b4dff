import ColumnLineage.OrderedMap
import ColumnLineage.Text.LowerCase

/-!
# Dialects

A script is written in one of two dialects, which differ in the clause that says how the rows of
a table are distributed. Dialects are found by name in a registry, whatever the case of the
letters.
-/

namespace ColumnLineage

/-- A dialect of SQL. -/
inductive Dialect
  | greenplum
  | postgresql
deriving DecidableEq, Repr

namespace Dialect

/-- The name under which a dialect is known. -/
def name : Dialect → String
  | .greenplum => "greenplum"
  | .postgresql => "postgresql"

/-- Whether tables may say how their rows are distributed. -/
def supportsDistribution : Dialect → Bool
  | .greenplum => true
  | .postgresql => false

/-- No dialect has the name that was asked for. -/
structure Unknown where
  name : String
  /-- The names that would have been found. -/
  known : List String
deriving DecidableEq, Repr

def Unknown.message (u : Unknown) : String :=
  "Unknown dialect: '" ++ u.name ++ "'. Supported dialects: " ++ ", ".intercalate u.known ++ "."

/-- Dialects by their names in small letters. -/
structure Registry where
  /-- The dialects in the order in which their names came in. -/
  dialects : OrderedMap String Dialect
deriving DecidableEq

namespace Registry

def empty : Registry :=
  ⟨∅⟩

def register (r : Registry) (name : String) (dialect : Dialect) : Registry :=
  ⟨r.dialects.insert (Text.toLower name) dialect⟩

/-- The names in the order in which they came in. -/
def names (r : Registry) : List String :=
  r.dialects.keys

def get? (r : Registry) (name : String) : Option Dialect :=
  r.dialects.get? (Text.toLower name)

/-- The dialect of a name, or the failure to find one. -/
def resolve (r : Registry) (name : String) : Except Unknown Dialect :=
  match r.get? name with
  | some dialect => .ok dialect
  | none => .error ⟨name, r.names⟩

def standard : Registry :=
  (((((empty.register "greenplum" .greenplum).register "gp" .greenplum).register
    "postgresql" .postgresql).register "postgres" .postgresql).register "pg" .postgresql)

end Registry

def ofName (name : String) : Except Unknown Dialect :=
  Registry.standard.resolve name

end Dialect

end ColumnLineage
