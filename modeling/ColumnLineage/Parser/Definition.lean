import ColumnLineage.Parser.Query
import ColumnLineage.Syntax.Statement

/-!
# Reading definitions of tables and views

What is said about a column beyond its name and type, the constraints of a table and its storage
are kept as texts: they tell nothing about where its rows come from.
-/

namespace ColumnLineage.Parser

/-! ## Parts of constraints -/

/-- When a constraint is checked; each thing is said at most once. -/
structure Characteristics where
  deferrable : Option String := none
  initially : Option String := none
  /-- Whether the constraint is checked at all. -/
  enforced : Option String := none

/-- The words about the check, each behind a blank. -/
def Characteristics.text (c : Characteristics) : String :=
  afterBlanks (c.deferrable.toList ++ c.initially.toList ++ c.enforced.toList)

/-- The words about the check that come next, if any that are not yet known do. -/
def moreCharacteristics (c : Characteristics) : Parser (Option Characteristics) := do
  if ← pure c.deferrable.isNone <&&> keywords? ["NOT", "DEFERRABLE"] then
    return some { c with deferrable := some "NOT DEFERRABLE" }
  else if ← pure c.deferrable.isNone <&&> keyword? "DEFERRABLE" then
    return some { c with deferrable := some "DEFERRABLE" }
  else if ← pure c.initially.isNone <&&> keyword? "INITIALLY" then
    if ← keyword? "DEFERRED" then return some { c with initially := some "INITIALLY DEFERRED" }
    else if ← keyword? "IMMEDIATE" then
      return some { c with initially := some "INITIALLY IMMEDIATE" }
    else expected "one of DEFERRED or IMMEDIATE"
  else if ← pure c.enforced.isNone <&&> keyword? "ENFORCED" then
    return some { c with enforced := some "ENFORCED" }
  else if ← pure c.enforced.isNone <&&> keywords? ["NOT", "ENFORCED"] then
    return some { c with enforced := some "NOT ENFORCED" }
  else return none

/-- When a constraint is checked, behind a blank. -/
def characteristics : Parser String := do
  return (← loop moreCharacteristics {}).text

/-- What happens to rows that refer to a row that changes. -/
def referentialAction : Parser String := do
  if ← keyword? "RESTRICT" then return "RESTRICT"
  else if ← keyword? "CASCADE" then return "CASCADE"
  else if ← keywords? ["SET", "NULL"] then return "SET NULL"
  else if ← keywords? ["NO", "ACTION"] then return "NO ACTION"
  else if ← keywords? ["SET", "DEFAULT"] then return "SET DEFAULT"
  else expected "one of RESTRICT, CASCADE, SET NULL, NO ACTION or SET DEFAULT"

/-- What happens to rows that refer to a row that goes or changes, behind blanks. -/
def referentialActions : Parser String := do
  let (onDelete, onUpdate) ← loop (fun ((onDelete : Option String), (onUpdate : Option String)) => do
    if ← pure onDelete.isNone <&&> keywords? ["ON", "DELETE"] then
      return some (some (" ON DELETE " ++ (← referentialAction)), onUpdate)
    else if ← pure onUpdate.isNone <&&> keywords? ["ON", "UPDATE"] then
      return some (onDelete, some (" ON UPDATE " ++ (← referentialAction)))
    else return none) (none, none)
  return onDelete.getD "" ++ onUpdate.getD ""

def namesText (names : List Ident) : String :=
  "(" ++ commas (names.map Ident.text) ++ ")"

/-! ## Sequences -/

/-- A clause of a sequence with a number, behind a blank; a filler word may stand before the
number. -/
def sequenceNumber? (word filler : String) : Parser (Option String) := do
  if ← keyword? word then
    let filled ← if filler = "" then pure false else keyword? filler
    return some (" " ++ word ++ (if filled then " " ++ filler else "") ++ " " ++ (← signedNumber))
  else return none

/-- A bound of a sequence, behind a blank. -/
def sequenceBound? (word : String) : Parser String := do
  match ← sequenceNumber? word "" with
  | some text => return text
  | none => if ← keywords? ["NO", word] then return " NO " ++ word else return ""

/-- The clauses of a sequence, each behind a blank. -/
def sequenceClauses : Parser String := do
  let increment := (← sequenceNumber? "INCREMENT" "BY").getD ""
  let minimum ← sequenceBound? "MINVALUE"
  let maximum ← sequenceBound? "MAXVALUE"
  let start := (← sequenceNumber? "START" "WITH").getD ""
  let cache := (← sequenceNumber? "CACHE" "").getD ""
  let cycle := (← valueOf? [(["NO", "CYCLE"], " NO CYCLE"), (["CYCLE"], " CYCLE")]).getD ""
  return increment ++ minimum ++ maximum ++ start ++ cache ++ cycle

/-! ## Columns -/

/-- The sequence of an identity column, behind a blank. -/
def identitySequence? : Parser String := do
  if ← atSymbol "(" then
    let clauses ← parenthesized sequenceClauses
    return if clauses = "" then "" else " (" ++ clauses ++ " )"
  else return ""

/-- How the values of a column are made, behind `GENERATED`. -/
def generated? (g : Grammar) : Parser (Option String) := do
  if ← keywords? ["ALWAYS", "AS", "IDENTITY"] then
    return some ("GENERATED ALWAYS AS IDENTITY" ++ (← identitySequence?))
  else if ← keywords? ["BY", "DEFAULT", "AS", "IDENTITY"] then
    return some ("GENERATED BY DEFAULT AS IDENTITY" ++ (← identitySequence?))
  else if ← keywords? ["ALWAYS", "AS"] then
    if ← atSymbol "(" then
      let e ← parenthesized g.whole
      keyword "STORED"
      return some ("GENERATED ALWAYS AS (" ++ e.text ++ ") STORED")
    else return none
  else return none

/-- The column of another table that a column refers to, behind `REFERENCES`. -/
def columnReference : Parser String := do
  let table ← objectName
  let columns ← columnNames?
  let actions ← referentialActions
  return "REFERENCES " ++ table.text ++ (if columns.isEmpty then "" else " " ++ namesText columns) ++
    actions ++ (← characteristics)

/-- Words behind a column that are read over. -/
def skippedWords (words : List (List String)) : Parser Unit :=
  match words with
  | [] => return ()
  | ks :: rest => do
    let _ ← keywords? ks
    skippedWords rest

/-- What is said about a column, if anything is. -/
def columnOption? (g : Grammar) : Parser (Option String) := do
  if ← keywords? ["CHARACTER", "SET"] then return some ("CHARACTER SET " ++ (← objectName).text)
  else if ← keywords? ["NOT", "NULL"] then return some "NOT NULL"
  else if ← keyword? "COMMENT" then
    match ← next with
    | some (.text s) => return some ("COMMENT " ++ quoted '\'' s)
    | found => throw (.expected "string" found)
  else if ← keyword? "NULL" then return some "NULL"
  else if ← keyword? "DEFAULT" then return some ("DEFAULT " ++ (← g.whole).text)
  else if ← keywords? ["PRIMARY", "KEY"] then return some ("PRIMARY KEY" ++ (← characteristics))
  else if ← keyword? "UNIQUE" then return some ("UNIQUE" ++ (← characteristics))
  else if ← keyword? "REFERENCES" then return some (← columnReference)
  else if ← keyword? "CHECK" then return some ("CHECK (" ++ (← parenthesized g.whole).text ++ ")")
  else
    skippedWords [["AUTO_INCREMENT"], ["AUTOINCREMENT"], ["ASC"], ["DESC"], ["ON", "UPDATE"]]
    if ← keyword? "GENERATED" then generated? g
    else
      skippedWords [["AS"], ["IDENTITY"]]
      return none

/-- What is said about a column behind its type, each text perhaps with the name of a
constraint. -/
def columnOptions (g : Grammar) : Parser (List String) := do
  let read ← loop (fun (read : List String) => do
    let name ← behind? "CONSTRAINT" ident
    match name, ← columnOption? g with
    | some n, some text => return some (("CONSTRAINT " ++ n.text ++ " " ++ text) :: read)
    | none, some text => return some (text :: read)
    | some _, none => expected "constraint details after CONSTRAINT <name>"
    | none, none => return none) []
  return read.reverse

def columnDefinition (g : Grammar) : Parser ColumnDefinition := do
  let name ← ident
  let type ← dataType
  let collation ← behind? "COLLATE" objectName
  return { name, type, collation, options := ← columnOptions g }

/-! ## Constraints of tables -/

/-- The kind of an index, behind `USING`. -/
def indexKind : Parser String := do
  if ← keyword? "BTREE" then return "BTREE"
  else if ← keyword? "HASH" then return "HASH"
  else expected "index type \x7bBTREE | HASH\x7d"

/-- The kind of an index behind a blank, if it is said. -/
def indexKind? : Parser String := do
  if ← keyword? "USING" then return " USING " ++ (← indexKind) else return ""

/-- What is said about an index behind its columns. -/
def indexOptions : Parser String :=
  loop (fun (read : String) => do
    if ← keyword? "USING" then return some (read ++ " USING " ++ (← indexKind))
    else if ← keyword? "COMMENT" then
      return some (read ++ " COMMENT '" ++ (← literalString) ++ "'")
    else return none) ""

/-- The columns of a key with the name and the kind of its index. -/
def keyColumns (head : String) : Parser String := do
  let name := ((← attempt? ident).map (" " ++ ·.text)).getD ""
  let kind ← indexKind?
  let columns ← columnNames
  let options ← indexOptions
  return head ++ name ++ kind ++ " " ++ namesText columns ++ options ++ (← characteristics)

/-- Whether nulls differ from each other, behind a blank. -/
def nullsDistinct? : Parser String := do
  if ← keyword? "NULLS" then
    let negated ← keyword? "NOT"
    keyword "DISTINCT"
    return if negated then " NULLS NOT DISTINCT" else " NULLS DISTINCT"
  else return ""

/-- The columns that refer to another table, behind `FOREIGN`. -/
def foreignKey : Parser String := do
  keyword "KEY"
  let columns ← columnNames
  keyword "REFERENCES"
  let table ← objectName
  let referred ← columnNames
  let actions ← referentialActions
  return "FOREIGN KEY " ++ namesText columns ++ " REFERENCES " ++ table.text ++
    namesText referred ++ actions ++ (← characteristics)

/-- A constraint of a table, if one starts here. -/
def tableConstraint? (g : Grammar) : Parser (Option String) := do
  let name ← behind? "CONSTRAINT" ident
  let head := (name.map fun n => "CONSTRAINT " ++ n.text ++ " ").getD ""
  if ← keyword? "UNIQUE" then
    if (← oneOf? ["KEY", "INDEX"]).isSome then
      expected "\x60index_name\x60 or \x60(column_name [, ...])\x60"
    let nulls ← nullsDistinct?
    return some (head ++ (← keyColumns ("UNIQUE" ++ nulls)))
  else if ← keyword? "PRIMARY" then
    keyword "KEY"
    return some (head ++ (← keyColumns "PRIMARY KEY"))
  else if ← keyword? "FOREIGN" then return some (head ++ (← foreignKey))
  else if ← keyword? "CHECK" then
    return some (head ++ "CHECK (" ++ (← parenthesized g.whole).text ++ ")")
  else if name.isSome then throw (.expected "PRIMARY, UNIQUE, FOREIGN, or CHECK" (← next))
  else return none

def tableElement (g : Grammar) : Parser (ColumnDefinition ⊕ String) := do
  match ← tableConstraint? g with
  | some text => return .inr text
  | none =>
    match ← peek with
    | some (.word _) => return .inl (← columnDefinition g)
    | _ => expected "column name or constraint definition"

/-- The columns and constraints of a table in parentheses, if there are any. -/
def tableElements? (g : Grammar) : Parser (List (ColumnDefinition ⊕ String)) := do
  if ← symbol? "(" then
    if ← symbol? ")" then return []
    let elements ← commaList (tableElement g)
    if ← symbol? ")" then return elements else expected "',' or ')' after column definition"
  else return []

/-! ## Tables -/

def storageOption (g : Grammar) : Parser String := do
  let key ← ident
  symbol "="
  return key.text ++ " = " ++ (← g.whole).text

/-- Storage options behind a keyword, if there are any. -/
def storageOptions? (g : Grammar) (k : String) : Parser (List String) := do
  if ← keyword? k then parenthesized (commaList (storageOption g)) else return []

/-- The cluster that keeps a table, if it is said. -/
def cluster? : Parser (Option Ident) := do
  if ← keywords? ["ON", "CLUSTER"] then return some (← ident) else return none

/-- A table that another one is made like, behind one of the given words. A name that cannot be
read is left alone. -/
def template? (words : List String) (printed : String) : Parser (List String) := do
  if (← oneOf? words).isSome then
    let name ← recover (do return some (← objectName)) (return none)
    return (name.map fun n => printed ++ " " ++ n.text).toList
  else return []

/-- What happens to the rows of a table at the end of a transaction. -/
def onCommit? : Parser (List String) := do
  if ← keywords? ["ON", "COMMIT"] then
    if ← keywords? ["PRESERVE", "ROWS"] then return ["ON COMMIT PRESERVE ROWS"]
    else if ← keywords? ["DELETE", "ROWS"] then return ["ON COMMIT DELETE ROWS"]
    else if ← keyword? "DROP" then return ["ON COMMIT DROP"]
    else throw (.remark "Expecting DELETE ROWS, PRESERVE ROWS or DROP")
  else return []

/-- How the fields of a row are told from each other, behind `DELIMITED`. -/
def rowDelimiters : Parser (List String) := do
  let kinds := [["FIELDS", "TERMINATED", "BY"], ["ESCAPED", "BY"],
    ["COLLECTION", "ITEMS", "TERMINATED", "BY"], ["MAP", "KEYS", "TERMINATED", "BY"],
    ["LINES", "TERMINATED", "BY"], ["NULL", "DEFINED", "AS"]]
  let read ← loop (fun (read : List String) => do
    match ← kinds.findM? keywords? with
    | none => return none
    | some words => return some ((" ".intercalate words ++ " " ++ (← ident).text) :: read)) []
  return read.reverse

/-- How the files of a table are made up. -/
structure FileLayout where
  row : List String := []
  storage : List String := []
  properties : List String := []
  location : List String := []

/-- How rows are written in files, behind `ROW`. -/
def rowFormat : Parser String := do
  keyword "FORMAT"
  if ← keyword? "SERDE" then return "ROW FORMAT SERDE '" ++ (← literalString) ++ "'"
  else
    let _ ← keyword? "DELIMITED"
    return "ROW FORMAT DELIMITED" ++ afterBlanks (← rowDelimiters)

/-- The format of files, behind `STORED`. -/
def storedAs (g : Grammar) : Parser String := do
  keyword "AS"
  if ← keyword? "INPUTFORMAT" then
    let input ← g.whole
    keyword "OUTPUTFORMAT"
    return "STORED AS INPUTFORMAT " ++ input.text ++ " OUTPUTFORMAT " ++ (← g.whole).text
  else return "STORED AS " ++ (← fileFormat)

/-- What is said about the files of a table. -/
def fileLayout (g : Grammar) : Parser FileLayout :=
  loop (fun (l : FileLayout) => do
    if ← keyword? "ROW" then return some { l with row := [← rowFormat] }
    else if ← keyword? "STORED" then return some { l with storage := [← storedAs g] }
    else if ← keyword? "LOCATION" then
      return some { l with location := ["LOCATION '" ++ (← literalString) ++ "'"] }
    else if ← keywords? ["WITH", "SERDEPROPERTIES"] then
      let properties ← parenthesized (commaList (storageOption g))
      return some { l with properties := [optionsText "WITH SERDEPROPERTIES" properties] }
    else return none) {}

/-- The columns by which files are told from each other. -/
def partitionedBy? (g : Grammar) : Parser (List String) := do
  if ← keywords? ["PARTITIONED", "BY"] then
    let columns ← parenthesized (commaList (columnDefinition g))
    return [optionsText "PARTITIONED BY" (columns.map ColumnDefinition.text)]
  else return []

def wordSetting : Parser String := do
  symbol "="
  match ← next with
  | some (.word w) => return w.value
  | found => throw (.expected "identifier" found)

/-- What keeps the rows, behind `ENGINE`. -/
def engine : Parser String := do
  let name ← wordSetting
  if ← atSymbol "(" then return "ENGINE=" ++ name ++ namesText (← parenthesized (commaList ident))
  else return "ENGINE=" ++ name

/-- The first value of a counter, behind its keyword. -/
def counterStart : Parser String := do
  let _ ← symbol? "="
  return "AUTO_INCREMENT " ++ (← wholeNumberOf "u32" 4294967295)

/-- The order in which rows are kept, behind its keywords. -/
def storageOrder (g : Grammar) : Parser String := do
  if ← symbol? "(" then
    let keys ← if ← atSymbol ")" then pure [] else commaList g.whole
    symbol ")"
    return "ORDER BY (" ++ commas (keys.map Expr.text) ++ ")"
  else return "ORDER BY " ++ (← g.whole).text

/-- A remark about the table, behind its keyword. -/
def tableComment : Parser String := do
  let equals ← symbol? "="
  let found ← next
  match found with
  | some (.text s) => return "COMMENT " ++ (if equals then "= " else "") ++ "'" ++ s ++ "'"
  | _ => throw (.expected "comment" found)

/-- A clause behind keywords, if they are there. -/
def clause? (ks : List String) (p : Parser String) : Parser (List String) := do
  if ← keywords? ks then return [← p] else return []

/-- The clauses behind the columns of a table, in the order in which they are printed. -/
def tableClauses (g : Grammar) : Parser (List String) := do
  let partitionedBy ← partitionedBy? g
  let files ← fileLayout g
  let options ← storageOptions? g "WITH"
  let properties ← storageOptions? g "TBLPROPERTIES"
  let engine ← clause? ["ENGINE"] engine
  let counter ← clause? ["AUTO_INCREMENT"] counterStart
  let order ← clause? ["ORDER", "BY"] (storageOrder g)
  let partitionBy ← clause? ["PARTITION", "BY"] do return "PARTITION BY " ++ (← g.whole).text
  let charset ← clause? ["DEFAULT", "CHARSET"] do return "DEFAULT CHARSET=" ++ (← wordSetting)
  let collation ← clause? ["COLLATE"] do return "COLLATE=" ++ (← wordSetting)
  let commit ← onCommit?
  let strict ← clause? ["STRICT"] do return "STRICT"
  let comment ← clause? ["COMMENT"] tableComment
  return partitionedBy ++ files.row ++ files.storage ++ files.properties ++ files.location ++
    [optionsText "TBLPROPERTIES" properties, optionsText "WITH" options].filter (· ≠ "") ++
    engine ++ comment ++ counter ++ order ++ partitionBy ++ charset ++ collation ++ commit ++ strict

/-- The words before `TABLE`. -/
structure TableWords where
  /-- Whether a table of that name is replaced. -/
  orReplace : Bool
  /-- Whether `GLOBAL` or `LOCAL` is written. -/
  isGlobal : Option Bool
  transient : Bool
  /-- Whether the table ends with the session. -/
  temporary : Bool

def createTable (g : Grammar) (words : TableWords) : Parser CreateTable := do
  let ifNotExists ← keywords? ["IF", "NOT", "EXISTS"]
  let name ← objectName
  let cluster ← cluster?
  let like ← template? ["LIKE", "ILIKE"] "LIKE"
  let clone ← template? ["CLONE"] "CLONE"
  let elements ← tableElements? g
  let withoutRowid ← keywords? ["WITHOUT", "ROWID"]
  let clauses ← tableClauses g
  let query ← behind? "AS" g.query
  return { orReplace := words.orReplace, external := false, isGlobal := words.isGlobal,
           temporary := words.temporary, transient := words.transient, ifNotExists, name, cluster,
           columns := elements.filterMap (·.getLeft?), constraints := elements.filterMap (·.getRight?),
           withoutRowid, templates := like ++ clone, clauses, query }

/-- `CREATE EXTERNAL TABLE` behind `EXTERNAL`. -/
def createExternalTable (g : Grammar) (orReplace : Bool) : Parser CreateTable := do
  keyword "TABLE"
  let ifNotExists ← keywords? ["IF", "NOT", "EXISTS"]
  let name ← objectName
  let elements ← tableElements? g
  let partitionedBy ← partitionedBy? g
  let files ← fileLayout g
  let properties ← storageOptions? g "TBLPROPERTIES"
  return { orReplace, external := true, isGlobal := none, temporary := false, transient := false,
           ifNotExists, name, cluster := none, columns := elements.filterMap (·.getLeft?),
           constraints := elements.filterMap (·.getRight?), withoutRowid := false, templates := [],
           clauses := partitionedBy ++ files.row ++ files.properties ++ files.storage ++
             files.location ++ [optionsText "TBLPROPERTIES" properties].filter (· ≠ ""),
           query := none }

/-! ## Views -/

/-- The names of the columns of a view, if they are given; the list may be empty. -/
def viewColumns? : Parser (List Ident) := do
  match ← get with
  | .symbol "(" :: .symbol ")" :: rest =>
    set rest
    return []
  | _ => columnNames?

def createView (g : Grammar) (orReplace temporary materialized : Bool) : Parser CreateView := do
  let name ← objectName
  let columns ← viewColumns?
  let options ← storageOptions? g "WITH"
  let clusterBy ←
    if ← keyword? "CLUSTER" then
      keyword "BY"
      columnNames?
    else pure []
  keyword "AS"
  let query ← g.query
  return { orReplace, temporary, materialized, name, clusterBy, columns, options, query }

end ColumnLineage.Parser
