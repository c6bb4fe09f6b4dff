import ColumnLineage.Parser.Expression
import ColumnLineage.Parser.Tables

/-!
# Reading selects

The clauses of a select in the order in which they are written.
-/

namespace ColumnLineage.Parser

/-- An item of a select. A `FROM` where an item must start is no column. -/
def selectItem (g : Grammar) : Parser SelectItem := do
  match ← starred g.whole with
  | .star => return .star
  | .starOf name => return .starOf name
  | .expr e =>
    match e with
    | .column ⟨value, none⟩ =>
      if Text.toLower value = "from" then
        throw (.remark ("Expected an expression, found: " ++ value))
      else return .expr e (← alias? reservedForItems)
    | _ => return .expr e (← alias? reservedForItems)

/-- `ALL`, `DISTINCT` or `DISTINCT ON` -/
def distinct? (g : Grammar) : Parser Distinct := do
  let all ← keyword? "ALL"
  if ← keyword? "DISTINCT" then
    if all then throw (.remark "Cannot specify both ALL and DISTINCT")
    else if ← keyword? "ON" then
      parenthesized do
        if ← atSymbol ")" then return .on [] else return .on (← commaList g.whole)
    else return .rows
  else return .unsaid

/-- A set of grouping columns: expressions in parentheses, or one alone if that is allowed. -/
def groupingSet (g : Grammar) (alone : Bool) : Parser (List Expr) := do
  if ← pure alone <&&> notM (atSymbol "(") then return [← g.whole]
  else
    symbol "("
    if ← symbol? ")" then return []
    let items ← commaList g.whole
    symbol ")"
    return items

def groupKey (g : Grammar) : Parser Expr := do
  if ← keywords? ["GROUPING", "SETS"] then
    return .grouping .sets (← parenthesized (commaList (groupingSet g false)))
  else if ← keyword? "CUBE" then
    return .grouping .cube (← parenthesized (commaList (groupingSet g true)))
  else if ← keyword? "ROLLUP" then
    return .grouping .rollup (← parenthesized (commaList (groupingSet g true)))
  else match ← get with
    | .symbol "(" :: .symbol ")" :: rest =>
      set rest
      return .tuple []
    | _ => g.whole

def groupBy? (g : Grammar) : Parser GroupBy := do
  if ← keywords? ["GROUP", "BY"] then
    if ← keyword? "ALL" then return .all else return .keys (← commaList (groupKey g))
  else return .keys []

def namedWindow (g : Grammar) : Parser NamedWindow := do
  let name ← ident
  keyword "AS"
  symbol "("
  return .mk name (← windowSpec g)

/-- The windows behind `WINDOW`, if there are any. -/
def windows? (g : Grammar) : Parser (List NamedWindow) := do
  if ← keyword? "WINDOW" then commaList (namedWindow g) else return []

/-- The windows and the condition on them, in either order, and whether the windows come first. -/
def windowClauses (g : Grammar) : Parser (List NamedWindow × Option Expr × Bool) := do
  let windowsFirst ← atKeyword ["WINDOW"]
  let first ← windows? g
  let filter ← behind? "QUALIFY" g.whole
  if filter.isSome && !windowsFirst then return (← windows? g, filter, false)
  else return (first, filter, windowsFirst)

/-- The `TOP` clause and its expression. -/
def top? (g : Grammar) : Parser (Top × Option Expr) := do
  if ← keyword? "TOP" then
    let (number, count) ←
      if ← atSymbol "(" then pure ("", some (← parenthesized g.whole))
      else pure (← wholeNumber, none)
    let percent ← keyword? "PERCENT"
    let withTies ← keywords? ["WITH", "TIES"]
    return (if count.isSome then .counted percent withTies else .rows number percent withTies, count)
  else return (.absent, none)

/-- The table that a select makes, behind `INTO`. -/
def selectInto : Parser SelectInto := do
  let temporary := (← oneOf? ["TEMP", "TEMPORARY"]).isSome
  let unlogged ← keyword? "UNLOGGED"
  let named ← keyword? "TABLE"
  return { temporary, unlogged, named, name := ← objectName }

/-- The lateral views of a select with the expressions that give their rows, in reverse. -/
def lateralViews (g : Grammar) : Parser (List LateralView × List Expr) :=
  loop (fun ((views : List LateralView), (rows : List Expr)) => do
    if ← keywords? ["LATERAL", "VIEW"] then
      let outer ← keyword? "OUTER"
      let e ← g.whole
      let name ← objectName
      let columns ← commaList (alias? ["WHERE", "GROUP", "CLUSTER", "HAVING", "LATERAL"])
      return some (⟨outer, name, columns.filterMap id⟩ :: views, e :: rows)
    else return none) ([], [])

/-- The expressions behind two keywords, if they are there. -/
def listBehind? (g : Grammar) (ks : List String) : Parser (List Expr) := do
  if ← keywords? ks then commaList g.whole else return []

def select (g : Grammar) : Parser Select := do
  let distinct ← distinct? g
  let (top, topCount) ← top? g
  let items ← commaList (selectItem g)
  let into ← behind? "INTO" selectInto
  let sources ← if ← keyword? "FROM" then commaList (tableTree g) else pure []
  let (views, rows) ← lateralViews g
  let filter ← behind? "WHERE" g.whole
  let groupBy ← groupBy? g
  let clusterBy ← listBehind? g ["CLUSTER", "BY"]
  let distributeBy ← listBehind? g ["DISTRIBUTE", "BY"]
  let sortBy ← listBehind? g ["SORT", "BY"]
  let having ← behind? "HAVING" g.whole
  let (windows, windowFilter, windowsFirst) ← windowClauses g
  let lateralViews := views.reverse
  let lateralRows := rows.reverse
  return { distinct, top, topCount, items, into, sources, lateralViews, lateralRows, filter, groupBy,
           clusterBy, distributeBy, sortBy, having, windows, windowFilter, windowsFirst }

end ColumnLineage.Parser
