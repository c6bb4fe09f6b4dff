import ColumnLineage.Parser.Primary

/-!
# Reading expressions

A primary expression and the operators behind it, as long as they bind tighter than what stands
before it.
-/

namespace ColumnLineage.Parser

/-! ## What follows a left operand -/

/-- `NULL`, `TRUE`, ... behind `IS`. -/
def isForm (g : Grammar) (left : Expr) : Parser Expr := do
  if ← keyword? "NULL" then return .unary (.isNull false) left
  else if ← keywords? ["NOT", "NULL"] then return .unary (.isNull true) left
  else if ← keyword? "TRUE" then return .unary (.isTruth "TRUE") left
  else if ← keywords? ["NOT", "TRUE"] then return .unary (.isTruth "NOT TRUE") left
  else if ← keyword? "FALSE" then return .unary (.isTruth "FALSE") left
  else if ← keywords? ["NOT", "FALSE"] then return .unary (.isTruth "NOT FALSE") left
  else if ← keyword? "UNKNOWN" then return .unary (.isTruth "UNKNOWN") left
  else if ← keywords? ["NOT", "UNKNOWN"] then return .unary (.isTruth "NOT UNKNOWN") left
  else if ← keywords? ["DISTINCT", "FROM"] then
    return .binary (.isDistinct false) left (← g.whole)
  else if ← keywords? ["NOT", "DISTINCT", "FROM"] then
    return .binary (.isDistinct true) left (← g.whole)
  else expected "[NOT] NULL or TRUE|FALSE or [NOT] DISTINCT FROM after IS"

/-- The list, query or array behind `IN`. -/
def inForm (g : Grammar) (negated : Bool) (left : Expr) : Parser Expr := do
  if ← keyword? "UNNEST" then
    return .binary (.inUnnest negated) left (← parenthesized g.whole)
  parenthesized do
    if ← atQuery then return .inQuery negated left (← g.query)
    else return .inList negated left (← commaList g.whole)

/-- The character behind `ESCAPE`. -/
def escape? : Parser (Option String) := do
  if ← keyword? "ESCAPE" then return some (← literalString) else return none

/-- The pattern behind `LIKE` and its kin. -/
def matchForm (g : Grammar) (negated : Bool) (pattern : Pattern) (left : Expr) : Parser Expr := do
  let any ← if pattern = .similar then pure false else keyword? "ANY"
  let right ← g.expr betweenPower
  return .binary (.matching negated pattern any (← escape?)) left right

/-- The word for a match with a regular expression, if one comes next. `RLIKE` may stand behind
`REGEXP` and then says nothing. -/
def regularPattern? : Parser (Option Pattern) := do
  let regexp ← keyword? "REGEXP"
  let rlike ← keyword? "RLIKE"
  return if regexp then some .regexp else if rlike then some .rlike else none

/-- `IN`, `BETWEEN`, `LIKE` and their kin. -/
def rangeForm (g : Grammar) (left : Expr) : Parser Expr := do
  let negated ← keyword? "NOT"
  if let some pattern ← regularPattern? then
    return .binary (.matching negated pattern false none) left (← g.expr betweenPower)
  else if ← keyword? "IN" then inForm g negated left
  else if ← keyword? "BETWEEN" then
    let low ← g.expr betweenPower
    keyword "AND"
    return .between negated left low (← g.expr betweenPower)
  else if ← keyword? "LIKE" then matchForm g negated .like left
  else if ← keyword? "ILIKE" then matchForm g negated .ilike left
  else if ← keywords? ["SIMILAR", "TO"] then matchForm g negated .similar left
  else expected "IN or BETWEEN after NOT"

/-- `ANY`, `ALL` or `SOME` behind an operator. -/
def range? : Parser (Option Range) := do
  if ← keyword? "ANY" then return some .any
  else if ← keyword? "ALL" then return some .all
  else if ← keyword? "SOME" then return some .some
  else return none

/-- The right operand behind `ANY`, `ALL` or `SOME`. -/
def rangeOperand (g : Grammar) (power : Nat) : Parser Expr := do
  let opening ← get
  symbol "("
  if ← atQuery then
    set opening
    g.expr power
  else
    let right ← g.expr power
    symbol ")"
    return right

/-- The right operand of an operator that is already read. -/
def operatorForm (g : Grammar) (op : String) (power : Nat) (left : Expr) : Parser Expr := do
  match ← range? with
  | none => return .binary (.operator op) left (← g.expr power)
  | some range =>
    let right ← rangeOperand g power
    if comparisons.contains op then return .binary (.ranged op range) left right
    else throw (.remark
      ("Expected one of [=, >, <, =>, =<, !=] as comparison operator, found: " ++ op))

/-- The second bound of a slice and its stride, behind the first colon. -/
def sliceForm (g : Grammar) (left : Expr) (lower : Option Expr) : Parser Expr := do
  if ← symbol? "]" then return .slice left lower none none
  let upper ← g.whole
  if ← symbol? "]" then return .slice left lower (some upper) none
  symbol ":"
  if ← symbol? "]" then return .slice left lower (some upper) none
  let stride ← g.whole
  symbol "]"
  return .slice left lower (some upper) (some stride)

/-- The index or the slice behind an opening bracket. -/
def subscriptForm (g : Grammar) (left : Expr) : Parser Expr := do
  if ← symbol? ":" then sliceForm g left none
  else
    let index ← g.whole
    if ← symbol? "]" then return .binary .subscript left index
    symbol ":"
    sliceForm g left (some index)

/-- An operator by its name, behind the keyword. Each part of the name is one token. -/
def namedOperator : Parser String := do
  symbol "("
  let part : Parser String := do return foundText (← next)
  let parts ← separated (symbol? ".") part
  symbol ")"
  return "OPERATOR(" ++ ".".intercalate parts ++ ")"

/-- The remark on a keyword that has a power but goes on with no expression. -/
def noInfixForm (w : Word) : ParseError :=
  .remark ("No infix parser for token Word(Word \x7b value: \"" ++ w.value ++
    "\", quote_style: None, keyword: " ++ w.keyword ++ " \x7d)")

/-- The operator that a symbol stands for. -/
def operatorOf (symbol : String) : String :=
  if symbol = "==" then "=" else symbol

/-- What follows a left operand, given its power. -/
def continuation (g : Grammar) (left : Expr) (power : Nat) : Parser Expr := do
  match ← get with
  | .symbol s :: rest =>
    set rest
    if s = "::" then return .unary (.castSuffix (← dataType)) left
    else if s = "[" then subscriptForm g left
    else if s = "!" then return .unary .factorial left
    else operatorForm g (operatorOf s) power left
  | .word w :: rest =>
    if w.keyword = "IS" then
      set rest
      isForm g left
    else if w.keyword = "AT" then
      set (rest.drop 2)
      return .binary .atTimeZone left (← g.expr power)
    else if ["COLLATE", "DIV"].contains w.keyword then
      set rest
      throw (noInfixForm w)
    else if ["AND", "OR", "XOR"].contains w.keyword then
      set rest
      operatorForm g w.keyword power left
    else if w.keyword = "OPERATOR" then
      set rest
      operatorForm g (← namedOperator) power left
    else rangeForm g left
  | _ => return left

/-- An expression, up to the first operator that does not bind tighter than `power`. -/
def expression (g : Grammar) (power : Nat) : Parser Expr := do
  loop (fun left => do
    let nextPower := powerOf (← get)
    if power ≥ nextPower then return none
    else return some (← continuation g left nextPower)) (← primary g)

end ColumnLineage.Parser
