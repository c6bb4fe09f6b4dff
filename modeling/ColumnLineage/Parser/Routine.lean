import ColumnLineage.Parser.Rows

/-!
# Reading functions, procedures and triggers

Their bodies run when they are called, so nothing can be followed through them, and they are read
as their texts.
-/

namespace ColumnLineage.Parser

/-! ## Functions -/

/-- An argument of a function to be made. A custom type that stands first is its name. -/
def functionArgument (g : Grammar) : Parser String := do
  let mode ← oneOf? ["IN", "OUT", "INOUT"]
  let first ← dataType
  let typed ←
    match first with
    | .custom name _ =>
      let name := (name.parts.head?.map Ident.text).getD ""
      pure (name ++ " " ++ (← dataType).text)
    | t => pure t.text
  let default ← if ← keyword? "DEFAULT" <||> symbol? "=" then pure (some (← g.whole)) else pure none
  return (mode.map (· ++ " ")).getD "" ++ typed ++ Expr.textAfter " = " default

/-- The clauses of a function to be made. -/
structure FunctionClauses where
  language : Option String := none
  /-- Whether it depends on anything else than its arguments. -/
  behavior : Option String := none
  nulls : Option String := none
  parallel : Option String := none
  body : Option String := none

/-- Fails if a clause has been read before. -/
def once (clause : Option String) (name : String) : Parser Unit := do
  if clause.isSome then throw (.remark (name ++ " specified more than once"))

def functionBody : Parser String := do
  match ← peek with
  | some (.marked (.dollar tag) s) =>
    let _ ← next
    return (Literal.marked (.dollar tag) s).print
  | _ => return (Literal.text (← literalString)).print

/-- The clause of a function that comes next, if one does. -/
def functionClause? (g : Grammar) (c : FunctionClauses) : Parser (Option FunctionClauses) := do
  if ← keyword? "AS" then
    once c.body "AS"
    return some { c with body := some ("AS " ++ (← functionBody)) }
  else if ← keyword? "LANGUAGE" then
    once c.language "LANGUAGE"
    return some { c with language := some ("LANGUAGE " ++ (← ident).text) }
  else if let some word ← oneOf? ["IMMUTABLE", "STABLE", "VOLATILE"] then
    once c.behavior "IMMUTABLE | STABLE | VOLATILE"
    return some { c with behavior := some word }
  else if let some words ← [["CALLED", "ON", "NULL", "INPUT"],
      ["RETURNS", "NULL", "ON", "NULL", "INPUT"], ["STRICT"]].findM? keywords? then
    once c.nulls "CALLED ON NULL INPUT | RETURNS NULL ON NULL INPUT | STRICT"
    return some { c with nulls := some (" ".intercalate words) }
  else if ← keyword? "PARALLEL" then
    once c.parallel "PARALLEL \x7b UNSAFE | RESTRICTED | SAFE \x7d"
    match ← oneOf? ["UNSAFE", "RESTRICTED", "SAFE"] with
    | some word => return some { c with parallel := some ("PARALLEL " ++ word) }
    | none => expected "one of UNSAFE | RESTRICTED | SAFE"
  else if ← keyword? "RETURN" then
    once c.body "RETURN"
    return some { c with body := some ("RETURN " ++ (← g.whole).text) }
  else return none

def createFunction (g : Grammar) (words : TableWords) : Parser String := do
  let name ← objectName
  symbol "("
  let arguments ← if ← atSymbol ")" then pure [] else commaList (functionArgument g)
  symbol ")"
  let type ← behind? "RETURNS" dataType
  let c ← loop (functionClause? g) {}
  return "CREATE " ++ flagText words.orReplace "OR REPLACE" ++ flagText words.temporary "TEMPORARY" ++
    "FUNCTION " ++ name.text ++ (if arguments.isEmpty then "" else "(" ++ commas arguments ++ ")") ++
    afterBlanks ((type.map ("RETURNS " ++ ·.text)).toList ++ c.language.toList ++ c.behavior.toList ++
      c.nulls.toList ++ c.parallel.toList ++ c.body.toList)

/-- A function by its name, perhaps with its arguments. -/
def functionName (g : Grammar) : Parser String := do
  let name ← objectName
  if ← symbol? "(" then
    if ← symbol? ")" then return name.text
    let arguments ← commaList (functionArgument g)
    symbol ")"
    return name.text ++ "(" ++ commas arguments ++ ")"
  else return name.text

/-! ## Procedures -/

def procedureParameter : Parser String := do
  let name ← ident
  return name.text ++ " " ++ (← dataType).text

/-- The parameters of a procedure behind the parenthesis that opens, up to the one that closes.
There may be none, and they may be left out between commas. -/
def procedureParameters : Parser (List String) := do
  if ← symbol? ")" then return []
  let step : List String × Bool → Parser (Option (List String × Bool)) := fun (read, isOpen) => do
    if !isOpen then return none
    let read ← match ← peek with
      | some (.word _) => pure ((← procedureParameter) :: read)
      | _ => pure read
    let comma ← symbol? ","
    if ← symbol? ")" then return some (read, false)
    else if comma then return some (read, true)
    else expected "',' or ')' after parameter definition"
  let (read, _) ← loop step ([], true)
  return read.reverse

/-- `CREATE PROCEDURE` behind its keywords; `body` reads the statements in it. -/
def createProcedure (orAlter : Bool) (body : Parser (List Statement)) : Parser String := do
  let name ← objectName
  let parameters ← if ← symbol? "(" then procedureParameters else pure []
  keyword "AS"
  keyword "BEGIN"
  let statements ← body
  keyword "END"
  return "CREATE " ++ flagText orAlter "OR ALTER" ++ "PROCEDURE " ++ name.text ++
    optionsText "" parameters ++ " AS BEGIN " ++ "; ".intercalate (statements.map Statement.text) ++
    " END"

/-! ## Triggers -/

def triggerPeriod : Parser String := do
  let word ← oneOf ["BEFORE", "AFTER", "INSTEAD"]
  if word = "INSTEAD" then
    keyword "OF"
    return "INSTEAD OF"
  else return word

def triggerEvent : Parser String := do
  let word ← oneOf ["INSERT", "UPDATE", "DELETE", "TRUNCATE"]
  if ← pure (word == "UPDATE") <&&> keyword? "OF" then
    return "UPDATE OF " ++ commas ((← commaList ident).map Ident.text)
  else return word

/-- A name for the rows before or after a change, if one comes next. A word that says which rows
but not that they are a table is read over. -/
def triggerRows? : Parser (Option String) := do
  match ← oneOf? ["OLD", "NEW"] with
  | none => return none
  | some word =>
    if ← keyword? "TABLE" then
      let isBehindAs ← keyword? "AS"
      return some (word ++ " TABLE " ++ flagText isBehindAs "AS" ++ (← objectName).text)
    else return none

/-- The names for the rows before and after a change, each behind a blank. -/
def triggerReferences : Parser String := do
  if ← keyword? "REFERENCING" then
    let read ← loop (fun (read : List String) => do return (← triggerRows?).map (· :: read)) []
    return if read.isEmpty then "" else " REFERENCING" ++ afterBlanks read.reverse
  else return ""

def createTrigger (g : Grammar) (orReplace isConstraint : Bool) : Parser String := do
  let name ← objectName
  let period ← triggerPeriod
  let events ← separated (keyword? "OR") triggerEvent
  keyword "ON"
  let table ← objectName
  let referred ← template? ["FROM"] "FROM"
  let check ← characteristics
  let references ← triggerReferences
  keyword "FOR"
  let each ← keyword? "EACH"
  let object ← oneOf ["ROW", "STATEMENT"]
  let condition ← behind? "WHEN" g.whole
  keyword "EXECUTE"
  let kind ← oneOf ["FUNCTION", "PROCEDURE"]
  return "CREATE " ++ flagText orReplace "OR REPLACE" ++ flagText isConstraint "CONSTRAINT" ++
    "TRIGGER " ++ name.text ++ " " ++ period ++ " " ++ " OR ".intercalate events ++ " ON " ++
    table.text ++ afterBlanks referred ++ check ++ references ++ " FOR " ++ flagText each "EACH" ++
    object ++ Expr.textAfter " WHEN " condition ++ " EXECUTE " ++ kind ++ " " ++ (← functionName g)

end ColumnLineage.Parser
