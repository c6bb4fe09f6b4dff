import ColumnLineage.Syntax.Query

/-!
# The columns that a query gives

Every item of a select has a name: its alias, or the name of what it computes, or a name made
from its position. The columns of a query are those of its leftmost select.
-/

namespace ColumnLineage

/-- The name of an item that has no other name. -/
def positionName (index : Nat) : String :=
  "_col_" ++ Nat.repr index

/-- The name by which an expression is known without an alias: a column by its own name, a call
by the name of its function, casts, parentheses and braces by what they hold. -/
def Expr.outputName? : Expr → Option Ident
  | .column name => some name
  | .path parts => parts.getLast?
  | .call name _ _ _ _ _ => name.parts.getLast?
  | .unary form operand =>
    match form with
    | .parens => operand.outputName?
    | .cast _ _ _ => operand.outputName?
    | .castSuffix _ => operand.outputName?
    | .braced => operand.outputName?
    | _ => none
  | _ => none
termination_by structural e => e

/-- The name of the item at a position; a star has none. -/
def SelectItem.outputName? (index : Nat) : SelectItem → Option String
  | .expr _ (some label) => some label.value
  | .expr e none => some ((e.outputName?.map Ident.value).getD (positionName index))
  | .star => none
  | .starOf _ => none

/-- The names of items in their order, the first of them at the given position. -/
def SelectItem.outputNames (index : Nat) : List SelectItem → List (Option String)
  | [] => []
  | i :: is => i.outputName? index :: SelectItem.outputNames (index + 1) is

/-- The names of the columns that a select gives. -/
def Select.outputNames (s : Select) : List (Option String) :=
  SelectItem.outputNames 0 s.items

def Body.leftmost? : Body → Option Select
  | .select s => some s
  | .parens { body, .. } => body.leftmost?
  | .setOperation _ _ left _ => left.leftmost?
  | _ => none
termination_by structural b => b

/-- The names of the columns that a body gives, by position; a star has none. -/
def Body.positionalNames (b : Body) : List (Option String) :=
  match b.leftmost? with
  | some s => s.outputNames
  | none => []

/-- The names of the columns that a body gives, without stars. -/
def Body.outputNames (b : Body) : List String :=
  b.positionalNames.filterMap id

/-- The elements of a list if none is missing. -/
def allSome {α : Type} : List (Option α) → Option (List α)
  | [] => some []
  | none :: _ => none
  | some a :: rest => (allSome rest).map (a :: ·)

/-- The names of the columns that a query gives, unless a star is among them. -/
def Query.knownNames (q : Query) : Option (List String) :=
  allSome q.body.positionalNames

/-- The column names that a common table gives: those it declares, or else those of its query. -/
def Cte.knownNames (c : Cte) : Option (List String) :=
  match c.columns with
  | [] => c.query.knownNames
  | columns => some (columns.map Ident.value)

/-- The query inside parentheses that carry neither common tables nor an order nor bounds. -/
def Query.unwrap : Query → Query
  | { ctes := [], body := .parens inner, orderBy := [], limit := none, offset := none, .. } =>
    inner.unwrap
  | q => q
termination_by structural q => q

end ColumnLineage
