import ColumnLineage.Parser.Maintenance

/-!
# Reading changes of stored things

`ALTER` changes a table, a view, an index, a role or a policy. Columns that change later are not
followed, so these statements are read as their texts.
-/

namespace ColumnLineage.Parser

/-! ## Tables -/

/-- The values that tell a partition, in parentheses. -/
def partitionValues (g : Grammar) : Parser String := do
  return "(" ++ commas ((← parenthesized (commaList g.whole)).map Expr.text) ++ ")"

def partitions (g : Grammar) : Parser (List String) := do
  let read ← loop (fun (read : List String) => do
    if ← keyword? "PARTITION" then return some (("PARTITION " ++ (← partitionValues g)) :: read)
    else return none) []
  return read.reverse

def removedName : Parser String := do
  let ifExists ← keywords? ["IF", "EXISTS"]
  let name ← ident
  let cascade ← keyword? "CASCADE"
  return flagText ifExists "IF EXISTS" ++ name.text ++ (if cascade then " CASCADE" else "")

/-- What is said about a column behind its type, without names of constraints. -/
def plainColumnOptions (g : Grammar) : Parser (List String) := do
  let read ← loop (fun (read : List String) => do
    return (← columnOption? g).map (· :: read)) []
  return read.reverse

/-- What is added to a table, behind `ADD`. -/
def addition (g : Grammar) : Parser String := do
  match ← tableConstraint? g with
  | some constraint => return "ADD " ++ constraint
  | none =>
    let early ← keywords? ["IF", "NOT", "EXISTS"]
    let parts ← partitions g
    unless parts.isEmpty do
      return "ADD" ++ (if early then " IF NOT EXISTS" else "") ++ afterBlanks parts
    let column ← keyword? "COLUMN"
    let ifNotExists := (← keywords? ["IF", "NOT", "EXISTS"]) || early
    return "ADD " ++ flagText column "COLUMN" ++ flagText ifNotExists "IF NOT EXISTS" ++
      (← columnDefinition g).text

/-- A new name in a table, behind `RENAME`. -/
def renamed : Parser String := do
  if ← keyword? "TO" then return "RENAME TO " ++ (← objectName).text
  else
    let constraint ← keyword? "CONSTRAINT"
    unless constraint do let _ ← keyword? "COLUMN"
    let name ← ident
    keyword "TO"
    return "RENAME " ++ (if constraint then "CONSTRAINT " else "COLUMN ") ++ name.text ++ " TO " ++
      (← ident).text

/-- What goes from a table, behind `DROP`. -/
def tableRemoval (g : Grammar) : Parser String := do
  if ← keywords? ["IF", "EXISTS", "PARTITION"] then
    return "DROP IF EXISTS PARTITION " ++ (← partitionValues g)
  else if ← keyword? "PARTITION" then return "DROP PARTITION " ++ (← partitionValues g)
  else if ← keyword? "CONSTRAINT" then return "DROP CONSTRAINT " ++ (← removedName)
  else
    skippedWords [["PRIMARY", "KEY"], ["PROJECTION"]]
    if ← keywords? ["CLUSTERING", "KEY"] then return "DROP CLUSTERING KEY"
    let _ ← keyword? "COLUMN"
    return "DROP COLUMN " ++ (← removedName)

/-- A column with a new type, behind `CHANGE` or `MODIFY`; a column that changes has a new name
too. -/
def columnReplacement (g : Grammar) (word : String) : Parser String := do
  let _ ← keyword? "COLUMN"
  let name ← ident
  let newName ← if word = "CHANGE" then pure [← ident] else pure []
  let type ← dataType
  let options ← plainColumnOptions g
  return word ++ " COLUMN " ++ name.text ++ afterBlanks (newName.map Ident.text) ++ " " ++ type.text ++
    afterBlanks options

/-- Another name for a partition, behind its keyword. -/
def partitionRenaming (g : Grammar) : Parser String := do
  let before ← partitionValues g
  keyword "RENAME"
  keyword "TO"
  keyword "PARTITION"
  return "PARTITION " ++ before ++ " RENAME TO PARTITION " ++ (← partitionValues g)

/-- A change of a column, behind its name. -/
def columnChange (g : Grammar) : Parser String := do
  if let some words ← [["SET", "NOT", "NULL"], ["DROP", "NOT", "NULL"], ["DROP", "DEFAULT"]].findM?
      keywords? then return " ".intercalate words
  else if ← keywords? ["SET", "DEFAULT"] then return "SET DEFAULT " ++ (← g.whole).text
  else if ← keywords? ["SET", "DATA", "TYPE"] <||> keyword? "TYPE" then
    let type ← dataType
    return "SET DATA TYPE " ++ type.text ++ Expr.textAfter " USING " (← behind? "USING" g.whole)
  else if ← keywords? ["ADD", "GENERATED"] then
    let kind ← [["ALWAYS"], ["BY", "DEFAULT"]].findM? keywords?
    keyword "AS"
    keyword "IDENTITY"
    let clauses ← if ← atSymbol "(" then pure (" (" ++ (← parenthesized sequenceClauses) ++ " )") else pure ""
    return "ADD GENERATED" ++ afterBlanks (kind.map (" ".intercalate ·)).toList ++ " AS IDENTITY" ++ clauses
  else
    expected "SET/DROP NOT NULL, SET DEFAULT, SET DATA TYPE, or ADD GENERATED after ALTER COLUMN"

/-- A switch of rules, triggers or row security, behind its keyword. -/
def switching (word : String) (kinds : List (List String)) (complaint : String) : Parser String := do
  if ← keywords? ["ROW", "LEVEL", "SECURITY"] then return word ++ " ROW LEVEL SECURITY"
  else
    match ← kinds.findM? keywords? with
    | some words => return word ++ " " ++ " ".intercalate words ++ " " ++ (← ident).text
    | none => expected complaint

/-- A change of a table that is none of the usual ones. -/
def otherTableChange (g : Grammar) : Parser String := do
  if ← keyword? "PARTITION" then partitionRenaming g
  else if let some word ← oneOf? ["CHANGE", "MODIFY"] then columnReplacement g word
  else if ← keyword? "ALTER" then
    let _ ← keyword? "COLUMN"
    let name ← ident
    return "ALTER COLUMN " ++ name.text ++ " " ++ (← columnChange g)
  else if ← keyword? "SWAP" then
    keyword "WITH"
    return "SWAP WITH " ++ (← objectName).text
  else if ← keywords? ["OWNER", "TO"] then return "OWNER TO " ++ (← owner)
  else if ← keywords? ["CLUSTER", "BY"] then
    return "CLUSTER BY (" ++ commas ((← parenthesized (commaList g.whole)).map Expr.text) ++ ")"
  else if let some words ← [["SUSPEND", "RECLUSTER"], ["RESUME", "RECLUSTER"]].findM? keywords? then
    return " ".intercalate words
  else if ← keywords? ["SET", "TBLPROPERTIES"] then
    return "SET TBLPROPERTIES(" ++ commas (← parenthesized (commaList (storageOption g))) ++ ")"
  else expected "ADD, RENAME, PARTITION, SWAP, DROP, or SET TBLPROPERTIES after ALTER TABLE"

def tableChange (g : Grammar) : Parser String := do
  if ← keyword? "ADD" then addition g
  else if ← keyword? "RENAME" then renamed
  else if ← keyword? "DISABLE" then
    switching "DISABLE" [["RULE"], ["TRIGGER"]] "ROW LEVEL SECURITY, RULE, or TRIGGER after DISABLE"
  else if ← keyword? "ENABLE" then
    switching "ENABLE" [["ALWAYS", "RULE"], ["ALWAYS", "TRIGGER"], ["REPLICA", "RULE"],
      ["REPLICA", "TRIGGER"], ["RULE"], ["TRIGGER"]]
      "ALWAYS, REPLICA, ROW LEVEL SECURITY, RULE, or TRIGGER after ENABLE"
  else
    skippedWords [["CLEAR", "PROJECTION"], ["MATERIALIZE", "PROJECTION"]]
    if ← keyword? "DROP" then tableRemoval g else otherTableChange g

/-- Where the files of a table are now, behind a blank. -/
def newLocation? : Parser String := do
  match ← [["LOCATION"], ["SET", "LOCATION"]].findM? keywords? with
  | some words => return " " ++ " ".intercalate words ++ " " ++ (← ident).text
  | none => return ""

def alterTable (g : Grammar) : Parser String := do
  let ifExists ← keywords? ["IF", "EXISTS"]
  let only ← keyword? "ONLY"
  let name ← objectName
  let cluster ← cluster?
  let changes ← commaList (tableChange g)
  return "ALTER TABLE " ++ flagText ifExists "IF EXISTS" ++ flagText only "ONLY" ++ name.text ++ " " ++
    (cluster.map ("ON CLUSTER " ++ ·.text ++ " ")).getD "" ++ commas changes ++ (← newLocation?)

/-! ## Other things -/

/-- `ALTER VIEW` behind its keywords. Storage options are printed before the columns. -/
def alterView (g : Grammar) : Parser String := do
  let name ← objectName
  let columns ← columnNames?
  let options ← storageOptions? g "WITH"
  keyword "AS"
  return "ALTER VIEW " ++ name.text ++ optionsText " WITH" options ++
    optionsText "" (columns.map Ident.text) ++ " AS " ++ (← g.query).text

def alterIndex : Parser String := do
  let name ← objectName
  unless ← keyword? "RENAME" do expected "RENAME after ALTER INDEX"
  unless ← keyword? "TO" do expected "TO after RENAME"
  return "ALTER INDEX " ++ name.text ++ " RENAME TO " ++ (← objectName).text

def alter (g : Grammar) : Parser String := do
  match ← oneOf ["VIEW", "TABLE", "INDEX", "ROLE", "POLICY"] with
  | "VIEW" => alterView g
  | "TABLE" => alterTable g
  | "INDEX" => alterIndex
  | "ROLE" => alterRole g
  | _ => alterPolicy g

end ColumnLineage.Parser
