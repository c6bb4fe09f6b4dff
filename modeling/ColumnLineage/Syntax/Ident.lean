import ColumnLineage.Syntax.Quoted

/-!
# Identifiers

An identifier is a name as written, together with the quotes it was written in. Two identifiers
are equal only if both agree. Printing puts the quotes back.
-/

namespace ColumnLineage

/-- The quotes around an identifier. -/
inductive Quote
  | double
  | single
deriving DecidableEq, Repr

/-- The character that opens and closes the quotes. -/
def Quote.mark : Quote → Char
  | .double => '"'
  | .single => '\''

/-- One part of a name. -/
structure Ident where
  value : String
  /-- The quotes it was written in, if any. -/
  quote : Option Quote := none
deriving DecidableEq, Repr

def Ident.text (i : Ident) : String :=
  match i.quote with
  | none => i.value
  | some q => quoted q.mark i.value

/-- The names of tables, functions and types have one or more parts. -/
structure ObjectName where
  /-- The parts, the most general one first. -/
  parts : List Ident
deriving DecidableEq, Repr

def ObjectName.text (n : ObjectName) : String :=
  ".".intercalate (n.parts.map Ident.text)

/-- The texts with a comma and a blank between them. -/
def commas (items : List String) : String :=
  ", ".intercalate items

end ColumnLineage
