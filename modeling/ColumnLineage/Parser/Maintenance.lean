import ColumnLineage.Parser.Rights

/-!
# Reading statements about stored things

What is neither a table nor a view is made and removed, and things are described. Nothing can be
followed through these statements, so they are read as their texts.
-/

namespace ColumnLineage.Parser

/-! ## Making other things -/

def createSchema : Parser String := do
  let ifNotExists ← keywords? ["IF", "NOT", "EXISTS"]
  let head := "CREATE SCHEMA " ++ flagText ifNotExists "IF NOT EXISTS"
  if ← keyword? "AUTHORIZATION" then return head ++ "AUTHORIZATION " ++ (← ident).text
  else
    let name ← objectName
    let owner ← behind? "AUTHORIZATION" ident
    return head ++ name.text ++ (owner.map (" AUTHORIZATION " ++ ·.text)).getD ""

def createDatabase : Parser String := do
  let ifNotExists ← keywords? ["IF", "NOT", "EXISTS"]
  let name ← objectName
  let (location, managed) ← loop (fun ((location : String), (managed : String)) => do
    match ← oneOf? ["LOCATION", "MANAGEDLOCATION"] with
    | some "LOCATION" => return some (" LOCATION '" ++ (← literalString) ++ "'", managed)
    | some _ => return some (location, " MANAGEDLOCATION '" ++ (← literalString) ++ "'")
    | none => return none) ("", "")
  return "CREATE DATABASE " ++ flagText ifNotExists "IF NOT EXISTS" ++ name.text ++ location ++ managed

def createExtension : Parser String := do
  let ifNotExists ← keywords? ["IF", "NOT", "EXISTS"]
  let name ← ident
  let head := "CREATE EXTENSION " ++ flagText ifNotExists "IF NOT EXISTS" ++ name.text
  if ← keyword? "WITH" then
    let schema ← behind? "SCHEMA" ident
    let version ← behind? "VERSION" ident
    let cascade ← keyword? "CASCADE"
    let parts := (schema.map ("SCHEMA " ++ ·.text)).toList ++
      (version.map ("VERSION " ++ ·.text)).toList ++ (if cascade then ["CASCADE"] else [])
    return head ++ (if parts.isEmpty then "" else " WITH" ++ afterBlanks parts)
  else return head

def createSequence (temporary : Bool) : Parser String := do
  let ifNotExists ← keywords? ["IF", "NOT", "EXISTS"]
  let name ← objectName
  let type ← behind? "AS" dataType
  let clauses ← sequenceClauses
  let owner ←
    if ← keywords? ["OWNED", "BY"] then
      if ← keyword? "NONE" then pure " OWNED BY NONE" else pure (" OWNED BY " ++ (← objectName).text)
    else pure ""
  return "CREATE " ++ flagText temporary "TEMPORARY" ++ "SEQUENCE " ++
    flagText ifNotExists "IF NOT EXISTS" ++ name.text ++ (type.map (" AS " ++ ·.text)).getD "" ++
    clauses ++ owner

def createIndex (g : Grammar) (unique : Bool) : Parser String := do
  let concurrently ← keyword? "CONCURRENTLY"
  let ifNotExists ← keywords? ["IF", "NOT", "EXISTS"]
  let name ←
    if ← pure ifNotExists <||> notM (keyword? "ON") then
      let name ← objectName
      keyword "ON"
      pure (some name)
    else pure none
  let table ← objectName
  let using? ← behind? "USING" ident
  let columns ← parenthesized (commaList (orderItem g))
  let included ← behind? "INCLUDE" (parenthesized (commaList ident))
  let nulls ← nullsDistinct?
  let options ← behind? "WITH" (parenthesized (commaList g.whole))
  let filter ← behind? "WHERE" g.whole
  return "CREATE " ++ flagText unique "UNIQUE" ++ "INDEX " ++ flagText concurrently "CONCURRENTLY" ++
    flagText ifNotExists "IF NOT EXISTS" ++ (name.map (·.text ++ " ")).getD "" ++ "ON " ++
    table.text ++ (using?.map fun u => " USING " ++ u.text ++ " ").getD "" ++
    "(" ++ ",".intercalate (OrderItem.texts columns) ++ ")" ++
    (included.map fun names => " INCLUDE (" ++ ",".intercalate (names.map Ident.text) ++ ")").getD "" ++
    nulls ++ optionsText " WITH" ((options.getD []).map Expr.text) ++ Expr.textAfter " WHERE " filter

def typeField : Parser String := do
  let name ← ident
  let type ← dataType
  let collation ← behind? "COLLATE" objectName
  return name.text ++ " " ++ type.text ++ (collation.map (" COLLATE " ++ ·.text)).getD ""

/-- The fields of a type behind the parenthesis that opens, up to the one that closes. There may be
none, and a comma may stand behind the last one. -/
def typeFields : Parser (List String) := do
  if ← symbol? ")" then return []
  let step : List String × Bool → Parser (Option (List String × Bool)) := fun (read, isOpen) => do
    if !isOpen then return none
    let read := (← typeField) :: read
    let comma ← symbol? ","
    if ← symbol? ")" then return some (read, false)
    else if comma then return some (read, true)
    else expected "',' or ')' after attribute definition"
  let (read, _) ← loop step ([], true)
  return read.reverse

def createType : Parser String := do
  let name ← objectName
  keyword "AS"
  let head := "CREATE TYPE " ++ name.text ++ " AS "
  if ← keyword? "ENUM" then
    unless ← symbol? "(" do expected "'(' after CREATE TYPE AS ENUM"
    let labels ← if ← atSymbol ")" then pure [] else commaList ident
    unless ← symbol? ")" do expected "')' after CREATE TYPE AS ENUM"
    return head ++ "ENUM " ++ namesText labels
  else
    let fields ← if ← symbol? "(" then typeFields else pure []
    return head ++ "(" ++ commas fields ++ ")"

def createVirtualTable : Parser String := do
  keyword "TABLE"
  let ifNotExists ← keywords? ["IF", "NOT", "EXISTS"]
  let name ← objectName
  keyword "USING"
  let module ← ident
  let arguments ← columnNames?
  return "CREATE VIRTUAL TABLE " ++ flagText ifNotExists "IF NOT EXISTS" ++ name.text ++ " USING " ++
    module.text ++ optionsText "" (arguments.map Ident.text)

/-- A name that is left alone if it cannot be read. -/
def ident? : Parser (Option Ident) :=
  recover (do return some (← ident)) (return none)

/-- The name of a secret and where it is kept; both may be left out. -/
def secretName : Parser (Option Ident × Option Ident) := do
  if ← atSymbol "(" then return (none, none)
  let kept ← if ← keyword? "IN" then ident? else pure none
  if kept.isSome then return (none, kept)
  let name ← if ← atSymbol "(" then pure none else ident?
  return (name, ← if ← keyword? "IN" then ident? else pure none)

def createSecret (orReplace temporary : Bool) : Parser String := do
  let ifNotExists ← keywords? ["IF", "NOT", "EXISTS"]
  let (name, kept) ← secretName
  symbol "("
  keyword "TYPE"
  let type ← ident
  let options ←
    if ← symbol? "," then
      commaList do
        let key ← ident
        return key.text ++ " " ++ (← ident).text
    else pure []
  symbol ")"
  return "CREATE " ++ flagText orReplace "OR REPLACE" ++ flagText temporary "TEMPORARY" ++ "SECRET " ++
    flagText ifNotExists "IF NOT EXISTS" ++ (name.map (·.text ++ " ")).getD "" ++
    (kept.map ("IN " ++ ·.text ++ " ")).getD "" ++ "( TYPE " ++ type.text ++ clause ", " options ++ " )"

/-! ## Removing things -/

/-- `DROP` behind the keyword for the kind of things. -/
def dropThings (kind : String) : Parser String := do
  let ifExists ← keywords? ["IF", "EXISTS"]
  let names ← commaList objectName
  let cascade ← keyword? "CASCADE"
  let restrict ← keyword? "RESTRICT"
  let purge ← keyword? "PURGE"
  if cascade && restrict then throw (.remark "Cannot specify both CASCADE and RESTRICT in DROP")
  if kind = "ROLE" && (cascade || restrict || purge) then
    throw (.remark "Cannot specify CASCADE, RESTRICT, or PURGE in DROP ROLE")
  return "DROP " ++ kind ++ (if ifExists then " IF EXISTS" else "") ++ " " ++
    commas (names.map ObjectName.text) ++
    afterBlanks ([(cascade, "CASCADE"), (restrict, "RESTRICT"), (purge, "PURGE")].filterMap
      fun (said, word) => if said then some word else none)

/-- `DROP` behind the keyword for a thing that belongs to a table. -/
def dropFromTable (kind : String) : Parser String := do
  let ifExists ← keywords? ["IF", "EXISTS"]
  let name ← if kind = "POLICY" then pure (← ident).text else pure (← objectName).text
  keyword "ON"
  let table ← objectName
  return "DROP " ++ kind ++ " " ++ flagText ifExists "IF EXISTS" ++ name ++ " ON " ++ table.text ++
    (← dropBehavior?)

def drop (g : Grammar) : Parser String := do
  if let some kind ← oneOf? ["TABLE", "VIEW", "INDEX", "ROLE", "SCHEMA", "DATABASE", "SEQUENCE",
      "STAGE", "TYPE"] then dropThings kind
  else if let some kind ← oneOf? ["FUNCTION", "PROCEDURE"] then
    let ifExists ← keywords? ["IF", "EXISTS"]
    let functions ← commaList (functionName g)
    return "DROP " ++ kind ++ (if ifExists then " IF EXISTS" else "") ++ " " ++ commas functions ++
      (← dropBehavior?)
  else if let some kind ← oneOf? ["POLICY", "TRIGGER"] then dropFromTable kind
  else if ← keyword? "SECRET" then
    let ifExists ← keywords? ["IF", "EXISTS"]
    let name ← ident
    let storage ← behind? "FROM" ident?
    return "DROP SECRET " ++ flagText ifExists "IF EXISTS" ++ name.text ++
      ((storage.join).map (" FROM " ++ ·.text)).getD ""
  else
    expected ("TABLE, VIEW, INDEX, ROLE, SCHEMA, DATABASE, FUNCTION, PROCEDURE, STAGE, TRIGGER, "
      ++ "SECRET, SEQUENCE, or TYPE after DROP")

/-! ## What is known about things -/

/-- What is said about an analysis. -/
structure AnalysisClauses where
  partition : Option String := none
  compute : Option String := none
  noscan : Option String := none
  /-- Whether what is found is kept at hand. -/
  cache : Option String := none
  columns : Option String := none

/-- The columns of an analysis, behind its keywords. A list that cannot be read is left alone. -/
def analyzedColumns : Parser String := do
  keyword "COLUMNS"
  let names := (← attempt? (commaList ident)).getD []
  return "FOR COLUMNS" ++ clause " " (names.map Ident.text)

/-- The next thing that is said about an analysis, if anything is. -/
def analysisClause? (g : Grammar) (c : AnalysisClauses) : Parser (Option AnalysisClauses) := do
  match ← oneOf? ["PARTITION", "FOR", "CACHE", "NOSCAN", "COMPUTE"] with
  | some "PARTITION" =>
    let values ← parenthesized (commaList g.whole)
    return some { c with partition := some (optionsText "PARTITION" (values.map Expr.text)) }
  | some "NOSCAN" => return some { c with noscan := some "NOSCAN" }
  | some "FOR" => return some { c with columns := some (← analyzedColumns) }
  | some "CACHE" =>
    keyword "METADATA"
    return some { c with cache := some "CACHE METADATA" }
  | some _ =>
    keyword "STATISTICS"
    return some { c with compute := some "COMPUTE STATISTICS" }
  | none => return none

def analyze (g : Grammar) : Parser String := do
  keyword "TABLE"
  let name ← objectName
  let c ← loop (analysisClause? g) {}
  return "ANALYZE TABLE " ++ name.text ++ afterBlanks (c.partition.toList ++ c.compute.toList ++
    c.noscan.toList ++ c.cache.toList ++ c.columns.toList)

def remark : Parser String := do
  let ifExists ← keywords? ["IF", "EXISTS"]
  keyword "ON"
  match ← oneOf? ["COLUMN", "TABLE", "EXTENSION", "SCHEMA", "DATABASE", "USER", "ROLE"] with
  | none => expected "comment object_type"
  | some kind =>
    let name ← objectName
    keyword "IS"
    let words ← if ← keyword? "NULL" then pure "NULL" else pure ("'" ++ (← literalString) ++ "'")
    return "COMMENT " ++ flagText ifExists "IF EXISTS" ++ "ON " ++ kind ++ " " ++ name.text ++ " IS " ++
      words

def repair : Parser String := do
  let repaired ← keyword? "REPAIR"
  keyword "TABLE"
  let name ← objectName
  let action ← attempt? do
    let word ← oneOf? ["ADD", "DROP", "SYNC"]
    keyword "PARTITIONS"
    return word
  return "MSCK " ++ flagText repaired "REPAIR" ++ "TABLE " ++ name.text ++
    (action.join.map (" " ++ · ++ " PARTITIONS")).getD ""

end ColumnLineage.Parser
