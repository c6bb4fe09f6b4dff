import ColumnLineage.Parser.Constant
import ColumnLineage.Parser.Grammar

/-!
# Reading calls

The arguments of a function and what may stand behind them: a filter, a window, an order within
a group. Also stars, which stand only where an argument or an item of a select may stand.
-/

namespace ColumnLineage.Parser

/-! ## Stars -/

/-- An expression or a star. -/
inductive Starred
  | expr (e : Expr)
  | star
  | starOf (name : ObjectName)

/-- The first part of a name and the dot behind it, which is read. -/
def firstPart? : Parser (Option Ident) := do
  match ← get with
  | .word w :: .symbol "." :: rest =>
    set rest
    return some w.ident
  | .text s :: .symbol "." :: rest =>
    set rest
    return some ⟨s, some .single⟩
  | _ => return none

/-- The part of a name behind a dot; no part means a star. -/
def dottedPart : Parser (Option Ident) := do
  match ← next with
  | some (.word w) => return some w.ident
  | some (.text s) => return some ⟨s, some .single⟩
  | some (.symbol "*") => return none
  | found => throw (.expected "an identifier or a '*' after '.'" found)

/-- The name before `.*` behind its first part and the dot; nothing if no star comes. The parts
read so far are in reverse. -/
def starName? (first : Ident) : Parser (Option ObjectName) := do
  let (parts, star, _) ← loop (fun ((parts : List Ident), star, dot) => do
    if !dot then return none
    match ← dottedPart with
    | none => return some (parts, true, false)
    | some part => return some (part :: parts, star, ← symbol? ".")) ([first], false, true)
  return if star then some ⟨parts.reverse⟩ else none

/-- An expression, `*` or `name.*`; `whole` reads the expression. -/
def starred (whole : Parser Expr) : Parser Starred := do
  let tokens ← get
  if ← symbol? "*" then return .star
  match ← firstPart? with
  | none => return .expr (← whole)
  | some first =>
    match ← starName? first with
    | some name => return .starOf name
    | none =>
      set tokens
      return .expr (← whole)

/-! ## Orders -/

def orderItem (g : Grammar) : Parser OrderItem := do
  let e ← g.whole
  let ascending ← valueOf? [(["ASC"], true), (["DESC"], false)]
  let nullsFirst ← valueOf? [(["NULLS", "FIRST"], true), (["NULLS", "LAST"], false)]
  return .mk e ascending nullsFirst

/-- The items of an order, if there is one. -/
def orderBy? (g : Grammar) : Parser (List OrderItem) := do
  if ← keywords? ["ORDER", "BY"] then commaList (orderItem g) else return []

/-! ## Arguments -/

/-- The value of an argument; `whole` reads an expression. -/
def argumentValue (whole : Parser Expr) : Parser ArgumentValue := do
  match ← starred whole with
  | .expr e => return .expr e
  | .star => return .star
  | .starOf name => return .starOf name

/-- The sign between the name and the value of an argument. -/
def argumentSign : Parser ArgumentSign := do
  if ← keyword? "VALUE" then return .value
  else if ← symbol? "=>" then return .arrow
  else if ← symbol? ":" then return .colon
  else expected "argument operator"

/-- One argument, with its name if a sign follows an expression. The name and an argument without
one are the same expression. -/
def argument (g : Grammar) : Parser Argument :=
  sharing g.whole fun first => do
    let named ← attempt? do
      let name ← first
      let sign ← argumentSign
      return Argument.named name sign (← argumentValue g.whole)
    match named with
    | some a => return a
    | none => return .positional (← argumentValue first)

/-- The arguments and the parenthesis behind them. -/
def arguments (g : Grammar) : Parser (List Argument) := do
  if ← symbol? ")" then return []
  let items ← commaList (argument g)
  symbol ")"
  return items

/-- `ALL` or `DISTINCT` -/
def duplicates? : Parser Duplicates := do
  let all ← keyword? "ALL"
  let distinct ← keyword? "DISTINCT"
  if all && distinct then throw (.remark "Cannot specify both ALL and DISTINCT")
  else if distinct then return .distinct
  else if all then return .all
  else return .unsaid

/-- What a function that makes a document does with nulls. -/
def documentNulls? : Parser DocumentNulls := do
  if ← keywords? ["ABSENT", "ON", "NULL"] then return .absent
  else if ← keywords? ["NULL", "ON", "NULL"] then return .kept
  else return .unsaid

/-- Whether a token may start the text for what is left out of a list. -/
def startsFiller : Token → Bool
  | .text _ | .marked .escaped _ | .marked .unicode _ | .marked .national _ | .marked .hex _ => true
  | _ => false

/-- The text for what is left out of a list, unless the words about the count come next. -/
def filler? (g : Grammar) : Parser (Option Expr) := do
  if ← atKeyword ["WITH", "WITHOUT"] then return none
  else if (← peek).any startsFiller then return some (← g.whole)
  else expected "either filler, WITH, or WITHOUT in LISTAGG"

/-- What happens if a list of values becomes too long, and the text for what is left out. -/
def overflow? (g : Grammar) : Parser (Overflow × Option Expr) := do
  if ← keywords? ["ON", "OVERFLOW"] then
    if ← keyword? "ERROR" then return (.error, none)
    else
      keyword "TRUNCATE"
      let filler ← filler? g
      let withCount ← keyword? "WITH"
      unless withCount do
        unless ← keyword? "WITHOUT" do expected "either WITH or WITHOUT in LISTAGG"
      keyword "COUNT"
      return (.truncate withCount, filler)
  else return (.unsaid, none)

/-- The arguments of a call with their clauses, and the parenthesis behind them. -/
def callArguments (g : Grammar) : Parser Arguments := do
  let before ← documentNulls?
  if ← symbol? ")" then return .list .unsaid [] [] none .unsaid none ⟨.unsaid, before⟩
  let duplicates ← duplicates?
  let items ← commaList (argument g)
  let orderBy ← orderBy? g
  let limit ← behind? "LIMIT" g.whole
  let (overflow, filler) ← overflow? g
  let behind ← documentNulls?
  symbol ")"
  -- Without other clauses it is the same whether nulls are spoken of before or behind.
  let isAlone := orderBy.isEmpty && limit.isNone && overflow = .unsaid && behind = .unsaid
  return .list duplicates items orderBy limit overflow filler
    (if isAlone then ⟨.unsaid, before⟩ else ⟨before, behind⟩)

/-! ## Windows -/

/-- The amount of a bound; a text is an interval. -/
def boundAmount (g : Grammar) : Parser Expr := do
  match ← get with
  | .text s :: rest =>
    set rest
    let e := Expr.literal (.text s)
    let e ← if ← keyword? "COLLATE" then pure (.unary (.collate (← objectName)) e) else pure e
    return .unary (.interval (← unitsBehind)) e
  | _ => g.whole

def bound (g : Grammar) : Parser Bound := do
  if ← keywords? ["CURRENT", "ROW"] then return .currentRow
  let rows ← if ← keyword? "UNBOUNDED" then pure none else pure (some (← boundAmount g))
  if ← keyword? "PRECEDING" then return .preceding rows
  else if ← keyword? "FOLLOWING" then return .following rows
  else expected "PRECEDING or FOLLOWING"

def frameUnit : Parser FrameUnit := do
  let found ← next
  match found with
  | some (.word w) =>
    match w.keyword with
    | "ROWS" => return .rows
    | "RANGE" => return .range
    | "GROUPS" => return .groups
    | _ => throw (.expected "ROWS, RANGE, GROUPS" found)
  | _ => throw (.expected "ROWS, RANGE, GROUPS" found)

def frame (g : Grammar) : Parser Frame := do
  let unit ← frameUnit
  if ← keyword? "BETWEEN" then
    let first ← bound g
    keyword "AND"
    return .span unit first (← bound g)
  else return .start unit (← bound g)

/-- The name of the window that another one is made from, if it is there: a word that is no
keyword. -/
def baseWindow? : Parser (Option Ident) := do
  match ← peek with
  | some (.word w) => if w.isName then return some (← ident) else return none
  | _ => return none

/-- A window behind its opening parenthesis, and the closing one. -/
def windowSpec (g : Grammar) : Parser Window := do
  let base ← baseWindow?
  let partitionBy ←
    if ← keywords? ["PARTITION", "BY"] then commaList g.whole else pure []
  let orderBy ← orderBy? g
  if ← symbol? ")" then return .spec base partitionBy orderBy .absent
  let f ← frame g
  symbol ")"
  return .spec base partitionBy orderBy f

/-- The window of a call, if there is one. -/
def window? (g : Grammar) : Parser Window := do
  if ← keyword? "OVER" then
    if ← symbol? "(" then windowSpec g else return .named (← ident)
  else return .absent

/-! ## Calls -/

/-- The order within a group, if there is one. -/
def withinGroup? (g : Grammar) : Parser (List OrderItem) := do
  if ← keywords? ["WITHIN", "GROUP"] then
    symbol "("
    keyword "ORDER"
    keyword "BY"
    let items ← commaList (orderItem g)
    symbol ")"
    return items
  else return []

/-- The filter of a call. A `FILTER` without parenthesis and `WHERE` is read over. -/
def filter? (g : Grammar) : Parser (Option Expr) := do
  if ← keyword? "FILTER" then
    if ← symbol? "(" then
      if ← keyword? "WHERE" then
        let e ← g.whole
        symbol ")"
        return some e
  return none

/-- What a function does with nulls, if it is said. -/
def nullTreatment? : Parser NullTreatment := do
  match ← oneOf? ["RESPECT", "IGNORE"] with
  | none => return .unsaid
  | some word =>
    keyword "NULLS"
    return if word = "RESPECT" then .respect else .ignore

/-- A call behind its name and the opening parenthesis. -/
def call (g : Grammar) (name : ObjectName) : Parser Expr := do
  let arguments ← callArguments g
  let withinGroup ← withinGroup? g
  let filter ← filter? g
  let nulls ← nullTreatment?
  let window ← window? g
  return .call name arguments filter nulls window withinGroup

/-- A call without arguments and parentheses. -/
def plainCall (name : Ident) (arguments : Arguments) : Expr :=
  .call ⟨[name]⟩ arguments none .unsaid .absent []

end ColumnLineage.Parser
