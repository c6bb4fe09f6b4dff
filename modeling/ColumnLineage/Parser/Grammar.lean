import ColumnLineage.Parser.Basic
import ColumnLineage.Syntax.Query

/-!
# What nests

Expressions hold queries and queries hold expressions. Every rule of the grammar is a parser that
is given the parsers for what stands one level deeper, so that no rule refers to itself. A chain
of such records, one per level, ends in a level that refuses everything.
-/

namespace ColumnLineage

/-- The parsers for what stands inside an expression or a query. -/
structure Grammar where
  query : Parser Query
  /-- An expression up to the first operator that does not bind tighter than the number. -/
  expr : Nat → Parser Expr

namespace Grammar

/-- The level at which everything is nested too deeply. -/
def bottom : Grammar where
  query := throw .nesting
  expr _ := throw .nesting

def whole (g : Grammar) : Parser Expr :=
  g.expr 0

/-- The level on top of the given number of levels, each made by `rules` from the one below. -/
def level (rules : Grammar → Grammar) : Nat → Grammar
  | 0 => bottom
  | n + 1 => rules (level rules n)

end Grammar

end ColumnLineage
