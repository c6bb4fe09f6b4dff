import ColumnLineage.Parser.Routine

/-!
# Reading roles, policies and rights

Who may do what changes no rows, so these statements are read as their texts.
-/

namespace ColumnLineage.Parser

/-! ## Roles -/

def password : Parser String := do
  if ← keyword? "NULL" then return "NULL" else return (← constant).print

/-- What is said about a new role; each thing is said at most once. -/
structure RoleClauses where
  flags : List String := []
  /-- The clauses that give a value or roles, each with the words that it starts with. -/
  clauses : List (String × String) := []

/-- What a role may do or not, in the order in which it is printed. -/
def roleFlags : List String :=
  ["SUPERUSER", "CREATEDB", "CREATEROLE", "INHERIT", "LOGIN", "REPLICATION", "BYPASSRLS"]

/-- The words that the other clauses of a role start with, in the order in which they are
printed. -/
def roleClauses : List String :=
  ["CONNECTION LIMIT", "PASSWORD", "VALID UNTIL", "IN ROLE", "IN GROUP", "ROLE", "USER", "ADMIN"]

def RoleClauses.text (c : RoleClauses) : String :=
  let flags := roleFlags.filterMap fun flag => c.flags.find? fun said =>
    said = flag || said = "NO" ++ flag
  let clauses := roleClauses.filterMap fun head =>
    (c.clauses.lookup head).map fun value => head ++ " " ++ value
  afterBlanks (flags ++ clauses)

/-- A word for what a role may do or not, if one comes next. -/
def roleFlag? : Parser (Option String) :=
  oneOf? (roleFlags.flatMap fun flag => [flag, "NO" ++ flag])

/-- Adds a word for what a role may do, unless that is known. -/
def addRoleFlag (c : RoleClauses) (word : String) : Parser RoleClauses := do
  let positive := (roleFlags.find? fun flag => word = "NO" ++ flag).getD word
  if c.flags.any fun said => said = positive || said = "NO" ++ positive then
    throw (.remark ("Found multiple " ++ positive ++ " or NO" ++ positive))
  return { c with flags := word :: c.flags }

/-- Adds a clause of a role, unless there is one that starts with the same words. -/
def addRoleClause (c : RoleClauses) (head : String) (value : Parser String) :
    Parser RoleClauses := do
  if (c.clauses.lookup head).isSome then throw (.remark ("Found multiple " ++ head))
  return { c with clauses := (head, ← value) :: c.clauses }

def roleNames : Parser String := do
  return commas ((← commaList ident).map Ident.text)

/-- The next thing that is said about a new role, if anything is. -/
def roleClause? (c : RoleClauses) : Parser (Option RoleClauses) := do
  if let some word ← roleFlag? then return some (← addRoleFlag c word)
  else if ← keyword? "PASSWORD" then return some (← addRoleClause c "PASSWORD" password)
  else if ← keyword? "CONNECTION" then
    keyword "LIMIT"
    return some (← addRoleClause c "CONNECTION LIMIT" numberValue)
  else if ← keyword? "VALID" then
    keyword "UNTIL"
    return some (← addRoleClause c "VALID UNTIL" do return (← constant).print)
  else if ← keyword? "IN" then
    match ← oneOf? ["ROLE", "GROUP"] with
    | some word => return some (← addRoleClause c ("IN " ++ word) roleNames)
    | none => expected "ROLE or GROUP after IN"
  else if let some word ← oneOf? ["ROLE", "USER", "ADMIN"] then
    return some (← addRoleClause c word roleNames)
  else return none

def createRole : Parser String := do
  let ifNotExists ← keywords? ["IF", "NOT", "EXISTS"]
  let names ← commaList objectName
  let _ ← keyword? "WITH"
  let clauses ← loop roleClause? {}
  return "CREATE ROLE " ++ flagText ifNotExists "IF NOT EXISTS" ++
    commas (names.map ObjectName.text) ++ clauses.text

def roleOption : Parser String := do
  if let some word ← roleFlag? then return word
  else if ← keyword? "CONNECTION" then
    keyword "LIMIT"
    return "CONNECTION LIMIT " ++ (← numberValue)
  else if ← keyword? "PASSWORD" then return "PASSWORD " ++ (← password)
  else if ← keyword? "VALID" then
    keyword "UNTIL"
    return "VALID UNTIL " ++ (← constant).print
  else expected "option"

/-- A setting of a role, behind `SET`. -/
def roleSetting (g : Grammar) : Parser String := do
  let name ← objectName
  if ← keywords? ["FROM", "CURRENT"] then return "SET " ++ name.text ++ " FROM CURRENT"
  else if ← symbol? "=" <||> keyword? "TO" then
    if ← keyword? "DEFAULT" then return "SET " ++ name.text ++ " TO DEFAULT"
    else return "SET " ++ name.text ++ " TO " ++ (← recover g.whole (expected "config value")).text
  else expected "'TO' or '=' or 'FROM CURRENT'"

/-- `ALTER ROLE` behind its keywords. A database is printed only with settings. -/
def alterRole (g : Grammar) : Parser String := do
  let name ← ident
  let database ←
    if ← keywords? ["IN", "DATABASE"] then
      recover (do return "IN DATABASE " ++ (← objectName).text ++ " ") (return "")
    else pure ""
  let head := "ALTER ROLE " ++ name.text ++ " "
  if ← keyword? "RENAME" then
    unless ← keyword? "TO" do expected "TO after RENAME"
    return head ++ "RENAME TO " ++ (← ident).text
  else if ← keyword? "SET" then return head ++ database ++ (← roleSetting g)
  else if ← keyword? "RESET" then
    let what ← if ← keyword? "ALL" then pure "ALL" else pure (← objectName).text
    return head ++ database ++ "RESET " ++ what
  else
    let _ ← keyword? "WITH"
    let options ← many roleOption
    if options.isEmpty then expected "option"
    return head ++ "WITH" ++ afterBlanks options

/-! ## Policies -/

def owner : Parser String := do
  match ← oneOf? ["CURRENT_USER", "CURRENT_ROLE", "SESSION_USER"] with
  | some word => return word
  | none =>
    let tokens ← get
    match ident tokens with
    | .ok name rest =>
      set rest
      return name.text
    | .error e _ =>
      throw (.remark ("Expected: CURRENT_USER, CURRENT_ROLE, SESSION_USER or identifier after " ++
        "OWNER TO. " ++ e.message))

/-- A condition in parentheses behind keywords, if they are there, behind a blank. -/
def policyCondition? (g : Grammar) (ks : List String) : Parser String := do
  if ← keywords? ks then
    return " " ++ " ".intercalate ks ++ " (" ++ (← parenthesized g.whole).text ++ ")"
  else return ""

/-- Whom a policy is for and which rows it allows, each behind a blank. -/
def policyRule (g : Grammar) : Parser String := do
  let owners ← behind? "TO" (commaList owner)
  let used ← policyCondition? g ["USING"]
  let checked ← policyCondition? g ["WITH", "CHECK"]
  return clause " TO " (owners.getD []) ++ used ++ checked

def createPolicy (g : Grammar) : Parser String := do
  let name ← ident
  keyword "ON"
  let table ← objectName
  let kind ← behind? "AS" (oneOf ["PERMISSIVE", "RESTRICTIVE"])
  let command ← behind? "FOR" (oneOf ["ALL", "SELECT", "INSERT", "UPDATE", "DELETE"])
  return "CREATE POLICY " ++ name.text ++ " ON " ++ table.text ++ (kind.map (" AS " ++ ·)).getD "" ++
    (command.map (" FOR " ++ ·)).getD "" ++ (← policyRule g)

def alterPolicy (g : Grammar) : Parser String := do
  let name ← ident
  keyword "ON"
  let table ← objectName
  let head := "ALTER POLICY " ++ name.text ++ " ON " ++ table.text
  if ← keyword? "RENAME" then
    keyword "TO"
    return head ++ " RENAME TO " ++ (← ident).text
  else return head ++ (← policyRule g)

/-! ## Rights -/

def privilege : Parser String := do
  if let some word ← oneOf? ["CONNECT", "CREATE", "DELETE", "EXECUTE", "TEMPORARY", "TRIGGER",
      "TRUNCATE", "USAGE"] then return word
  else if let some word ← oneOf? ["INSERT", "REFERENCES", "SELECT", "UPDATE"] then
    return word ++ optionsText "" ((← columnNames?).map Ident.text)
  else expected "a privilege keyword"

/-- The rights of a `GRANT` or a `REVOKE` and what they are about. -/
def privileges : Parser String := do
  let rights ←
    if ← keyword? "ALL" then pure ("ALL" ++ (if ← keyword? "PRIVILEGES" then " PRIVILEGES" else ""))
    else pure (commas (← commaList privilege))
  keyword "ON"
  let kind ← valueOf? [(["ALL", "TABLES", "IN", "SCHEMA"], "ALL TABLES IN SCHEMA "),
    (["ALL", "SEQUENCES", "IN", "SCHEMA"], "ALL SEQUENCES IN SCHEMA "),
    (["SEQUENCE"], "SEQUENCE "), (["SCHEMA"], "SCHEMA "), (["TABLE"], "")]
  return rights ++ " ON " ++ kind.getD "" ++ commas ((← commaList objectName).map ObjectName.text)

/-- Who gives or takes rights, behind a blank. -/
def grantor? : Parser String := do
  if ← keywords? ["GRANTED", "BY"] then return " GRANTED BY " ++ (← ident).text else return ""

def grant : Parser String := do
  let rights ← privileges
  keyword "TO"
  let grantees ← commaList ident
  let option ← keywords? ["WITH", "GRANT", "OPTION"]
  return "GRANT " ++ rights ++ " TO " ++ commas (grantees.map Ident.text) ++
    (if option then " WITH GRANT OPTION" else "") ++ (← grantor?)

/-- `REVOKE` behind its keyword. What depends on a right keeps it from being taken, unless something
else is said. -/
def revoke : Parser String := do
  let rights ← privileges
  keyword "FROM"
  let grantees ← commaList ident
  let grantor ← grantor?
  let cascade ← keyword? "CASCADE"
  let restrict ← keyword? "RESTRICT"
  if cascade && restrict then throw (.remark "Cannot specify both CASCADE and RESTRICT in REVOKE")
  return "REVOKE " ++ rights ++ " FROM " ++ commas (grantees.map Ident.text) ++ grantor ++
    (if cascade then " CASCADE" else " RESTRICT")

end ColumnLineage.Parser
