import ColumnLineage.Parser.Alteration

/-!
# Reading statements

A statement starts with a keyword that tells its kind, or is a query. Statements follow each
other with semicolons between them.
-/

namespace ColumnLineage.Parser

/-! ## Lists of statements -/

/-- Reads over semicolons, and says whether there were any. -/
def semicolons : Parser Bool := do
  loop (fun _ => do if ← symbol? ";" then return some true else return none) false

/-- The statements so far in reverse, and whether a semicolon must come before the next one. -/
def nextStatement (p : Parser Statement) (read : List Statement × Bool) :
    Parser (Option (List Statement × Bool)) := do
  let (statements, open?) := read
  let separated ← semicolons
  let open? := open? && !separated
  match ← peek with
  | none => return none
  | some t =>
    if open? && t.isKeyword "END" then return none
    else if open? then expected "end of statement"
    else return some ((← p) :: statements, true)

/-- Statements with semicolons between them, each read by `p`. What follows an `END` behind a
statement is left alone. -/
def statementsOf (p : Parser Statement) : Parser (List Statement) := do
  let (read, _) ← loop (nextStatement p) ([], false)
  return read.reverse

/-! ## The kinds of statements -/

/-- The words between `CREATE` and the kind of thing, and whether `OR ALTER` is one of them. -/
def createWords : Parser (TableWords × Bool) := do
  let orReplace ← keywords? ["OR", "REPLACE"]
  let orAlter ← keywords? ["OR", "ALTER"]
  let isLocal ← keyword? "LOCAL"
  let isGlobal ← keyword? "GLOBAL"
  let transient ← keyword? "TRANSIENT"
  let temporary := (← oneOf? ["TEMP", "TEMPORARY"]).isSome
  return ({ orReplace, transient, temporary,
            isGlobal := if isGlobal then some true else if isLocal then some false else none }, orAlter)

/-- `CREATE` behind its keyword and the words before the kind of thing, which nothing can replace.
Statements within it are read by `inner`. -/
def createNew (g : Grammar) (inner : Parser Statement) (temporary orAlter : Bool) :
    Parser String := do
  if ← keyword? "EXTENSION" then createExtension
  else if ← keyword? "INDEX" then createIndex g false
  else if ← keywords? ["UNIQUE", "INDEX"] then createIndex g true
  else if ← keyword? "VIRTUAL" then createVirtualTable
  else if ← keyword? "SCHEMA" then createSchema
  else if ← keyword? "DATABASE" then createDatabase
  else if ← keyword? "ROLE" then createRole
  else if ← keyword? "SEQUENCE" then createSequence temporary
  else if ← keyword? "TYPE" then createType
  else if ← keyword? "PROCEDURE" then createProcedure orAlter (statementsOf inner)
  else expected "an object type after CREATE"

/-- `CREATE` behind its keyword. Statements within it are read by `inner`. -/
def create (g : Grammar) (inner : Parser Statement) : Parser Statement := do
  let (words, orAlter) ← createWords
  if ← keyword? "TABLE" then return .createTable (← createTable g words)
  else if ← keyword? "VIEW" then
    return .createView (← createView g words.orReplace words.temporary false)
  else if ← keyword? "MATERIALIZED" then
    keyword "VIEW"
    return .createView (← createView g words.orReplace words.temporary true)
  else if ← keyword? "POLICY" then return .other (← createPolicy g)
  else if ← keyword? "EXTERNAL" then
    return .createTable (← createExternalTable g words.orReplace)
  else if ← keyword? "FUNCTION" then return .other (← createFunction g words)
  else if ← keyword? "TRIGGER" then return .other (← createTrigger g words.orReplace false)
  else if ← keywords? ["CONSTRAINT", "TRIGGER"] then
    return .other (← createTrigger g words.orReplace true)
  else if ← atKeyword ["MACRO"] then expected "an object type after CREATE"
  else if ← keyword? "SECRET" then return .other (← createSecret words.orReplace words.temporary)
  else if words.orReplace then
    expected "[EXTERNAL] TABLE or [MATERIALIZED] VIEW or FUNCTION after CREATE OR REPLACE"
  else return .other (← createNew g inner words.temporary orAlter)

def insertion (g : Grammar) : Parser Statement := do
  let words ← insertWords
  if ← keyword? "DIRECTORY" then return .other (← fileInsertion g words)
  else return .insert (← tableInsertion g words)

/-- The statement behind a keyword that starts one, if the keyword is one; only those that are read
as their texts. Statements within it are read by `inner`. -/
def textBehind? (g : Grammar) (inner : Parser Statement) (keyword : String) :
    Option (Parser String) :=
  match keyword with
  | "KILL" => some kill
  | "FLUSH" => some (throw (.remark "Unsupported statement FLUSH"))
  | "EXPLAIN" | "DESCRIBE" | "DESC" => some (explain g keyword inner)
  | "ANALYZE" => some (analyze g)
  | "TRUNCATE" => some (truncation g)
  | "ATTACH" => some (attach g)
  | "MSCK" => some repair
  | "CACHE" => some (cache g)
  | "DROP" => some (drop g)
  | "DISCARD" => some discard
  | "DECLARE" => some (declaration g)
  | "FETCH" => some fetching
  | "DELETE" => some (deletion g)
  | "REPLACE" => some (throw (.remark "Unsupported statement REPLACE"))
  | "UNCACHE" => some uncache
  | "UPDATE" => some do return (← update g).text
  | "ALTER" => some (alter g)
  | "CALL" => some (callStatement g)
  | "COPY" => some (copy g)
  | "CLOSE" => some closing
  | "SHOW" => some (shown g)
  | "USE" => some do return "USE " ++ (← objectName).text
  | "GRANT" => some grant
  | "REVOKE" => some revoke
  | "START" => some startTransaction
  | "BEGIN" => some beginTransaction
  | "END" | "COMMIT" => some do return "COMMIT" ++ (← chain)
  | "SAVEPOINT" => some do return "SAVEPOINT " ++ (← ident).text
  | "RELEASE" => some release
  | "ROLLBACK" => some rollback
  | "ASSERT" => some (assertion g)
  | "DEALLOCATE" => some deallocate
  | "EXECUTE" | "EXEC" => some (execute g)
  | "PREPARE" => some (prepare inner)
  | "MERGE" => some (merge g)
  | "LISTEN" => some do return "LISTEN " ++ (← ident).text
  | "UNLISTEN" => some unlisten
  | "NOTIFY" => some notify
  | "PRAGMA" => some pragma
  | "UNLOAD" => some (unload g)
  | "LOAD" => some do return "LOAD " ++ (← ident).text
  | "COMMENT" => some remark
  | _ => none

/-- The statement behind a keyword that starts one, if the keyword is one. Statements within it are
read by `inner`. -/
def statementBehind? (g : Grammar) (inner : Parser Statement) (keyword : String) :
    Option (Parser Statement) :=
  match keyword with
  | "CREATE" => some (create g inner)
  | "INSERT" => some (insertion g)
  | "SET" => some (setting g)
  | _ => (textBehind? g inner keyword).map fun p => do return .other (← p)

/-- A statement, given the rules for what stands in it. -/
def statementForm (g : Grammar) (inner : Parser Statement) : Parser Statement := do
  match ← get with
  | .symbol "(" :: _ => return .query (← g.query)
  | .word w :: rest =>
    if ["SELECT", "WITH", "VALUES"].contains w.keyword then return .query (← g.query)
    else
      match statementBehind? g inner w.keyword with
      | some p =>
        set rest
        p
      | none => expected "an SQL statement"
  | _ => expected "an SQL statement"

/-- A statement with at most the given number of levels. -/
def statement : Nat → Parser Statement
  | 0 => throw .nesting
  | n + 1 => statementForm (grammar n) (statement n)

def statements : Parser (List Statement) :=
  statementsOf (statement nestingLimit)

def parseStatements (tokens : List Token) : Except ParseError (List Statement) :=
  match statements (tokens.filter fun t => !t.isBlank) with
  | .ok read _ => .ok read
  | .error e _ => .error e

end ColumnLineage.Parser
