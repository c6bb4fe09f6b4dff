import ColumnLineage.Parser.Select
import ColumnLineage.Syntax.Print

/-!
# Reading changes of rows

Insertions and updates. Both may stand in a query behind its common tables.
-/

namespace ColumnLineage.Parser

/-! ## What both have -/

/-- What is done if a change fails, in words. -/
def alternative? : Parser String := do
  if ← keywords? ["OR", "REPLACE"] then return "OR REPLACE"
  else if ← keywords? ["OR", "ROLLBACK"] then return "OR ROLLBACK"
  else if ← keywords? ["OR", "ABORT"] then return "OR ABORT"
  else if ← keywords? ["OR", "FAIL"] then return "OR FAIL"
  else if ← keywords? ["OR", "IGNORE"] then return "OR IGNORE"
  else return ""

def assignmentTarget : Parser AssignmentTarget := do
  if ← atSymbol "(" then return .tuple (← parenthesized (commaList objectName))
  else return .column (← objectName)

def assignment (g : Grammar) : Parser Assignment := do
  let target ← assignmentTarget
  symbol "="
  return .mk target (← g.whole)

def returning? (g : Grammar) : Parser (List SelectItem) := do
  if ← keyword? "RETURNING" then commaList (selectItem g) else return []

/-! ## Insertions -/

/-- Whether a query in parentheses starts here, so that no list of columns does. -/
def atParenthesizedSelect : Parser Bool := do
  match ← get with
  | t :: u :: _ => return t.isSymbol "(" && u.isKeyword "SELECT"
  | _ => return false

/-- What is said about rows in conflict. -/
structure ConflictClause where
  conflict : Conflict
  /-- The new values of a row that is in the way. -/
  assignments : List Assignment
  /-- Which rows that are in the way get them. -/
  filter : Option Expr

def conflictTarget : Parser ConflictTarget := do
  if ← keywords? ["ON", "CONSTRAINT"] then return .constraint (← objectName)
  else if ← atSymbol "(" then return .columns (← columnNames)
  else return .any

/-- The clause about rows in conflict, if there is one. -/
def conflict? (g : Grammar) : Parser ConflictClause := do
  if ← keyword? "ON" then
    if ← keyword? "CONFLICT" then
      let target ← conflictTarget
      keyword "DO"
      if ← keyword? "NOTHING" then return ⟨.nothing target, [], none⟩
      else
        keyword "UPDATE"
        keyword "SET"
        let assignments ← commaList (assignment g)
        return ⟨.update target, assignments, ← behind? "WHERE" g.whole⟩
    else
      keyword "DUPLICATE"
      keyword "KEY"
      keyword "UPDATE"
      return ⟨.duplicateKey, ← commaList (assignment g), none⟩
  else return ⟨.unsaid, [], none⟩

def partition? (g : Grammar) : Parser (List Expr) := do
  if ← keyword? "PARTITION" then parenthesized (commaList g.whole) else return []

/-- The columns, the partition and the query of an insertion. -/
def insertedRows (g : Grammar) : Parser (List Ident × List Expr × Query) := do
  if ← keywords? ["DEFAULT", "VALUES"] then return ([], [], .ofBody .defaultValues)
  else if ← atParenthesizedSelect then return ([], [], ← g.query)
  else
    let columns ← columnNames?
    let partition ← partition? g
    return (columns, partition, ← g.query)

/-- The words before the table of an insertion. -/
structure InsertWords where
  /-- What is done if a row cannot be inserted. -/
  alternative : String
  overwrite : Bool
  into : Bool
  isLocal : Bool

/-- The words behind `INSERT`. -/
def insertWords : Parser InsertWords := do
  let alternative ← alternative?
  let overwrite ← keyword? "OVERWRITE"
  let into ← keyword? "INTO"
  return { alternative, overwrite, into, isLocal := ← keyword? "LOCAL" }

def fileFormat : Parser String := do
  let found ← next
  match found with
  | some (.word w) =>
    if ["AVRO", "JSONFILE", "ORC", "PARQUET", "RCFILE", "SEQUENCEFILE", "TEXTFILE"].contains
        w.keyword then return w.keyword
    else throw (.expected "fileformat" found)
  | _ => throw (.expected "fileformat" found)

/-- The text of an insertion into files, behind `DIRECTORY`. -/
def fileInsertion (g : Grammar) (words : InsertWords) : Parser String := do
  let path ← literalString
  let format ← if ← keywords? ["STORED", "AS"] then pure (" STORED AS " ++ (← fileFormat)) else pure ""
  let source ← g.query
  return "INSERT" ++ (if words.overwrite then " OVERWRITE" else "") ++
    (if words.isLocal then " LOCAL" else "") ++ " DIRECTORY '" ++ path ++ "'" ++ format ++ " " ++
    source.text

/-- An insertion into a table, behind the words before the table. -/
def tableInsertion (g : Grammar) (words : InsertWords) : Parser Insert := do
  let named ← keyword? "TABLE"
  let table ← objectName
  let label ← behind? "AS" ident
  let (columns, partition, source) ← insertedRows g
  let ⟨conflict, assignments, filter⟩ ← conflict? g
  let returning ← returning? g
  return { alternative := words.alternative, overwrite := words.overwrite, into := words.into,
           named, table, label, columns, source, partition, conflict, assignments, filter,
           returning }

/-! ## Updates -/

def update (g : Grammar) : Parser Update := do
  let alternative ← alternative?
  let table ← tableTree g
  keyword "SET"
  let assignments ← commaList (assignment g)
  let sources := (← behind? "FROM" (tableTree g)).toList
  let filter ← behind? "WHERE" g.whole
  return { alternative, table, assignments, sources, filter, returning := ← returning? g }

end ColumnLineage.Parser
