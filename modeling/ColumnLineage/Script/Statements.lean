import ColumnLineage.Parser.Statement
import ColumnLineage.Script.Dialect
import ColumnLineage.Script.Distribution
import ColumnLineage.Syntax.Equality
import ColumnLineage.Token.Scan

/-!
# Scripts

A script is cut into groups of tokens at the semicolons outside parentheses. Each group is read
by itself. In a dialect that knows distributions, a group that starts with `CREATE` may end in
such a clause.
-/

namespace ColumnLineage

/-- A statement of a script, with the distribution of its table. -/
structure ScriptStatement where
  statement : Statement
  /-- How the rows of its table are spread, if it says so. -/
  distribution : Option Distribution := none

namespace ScriptStatement

/-- The statement as it is printed, with its clause behind it. -/
def text (s : ScriptStatement) : String :=
  match s.distribution with
  | none => s.statement.text
  | some d => s.statement.text ++ " " ++ d.text

/-- Whether two statements are the same tree. -/
def same (a b : ScriptStatement) : Bool :=
  a.statement.same b.statement &&
    match a.distribution, b.distribution with
    | none, none => true
    | some d, some e => d.columns = e.columns && OrderItem.sameList d.orderBy e.orderBy
    | _, _ => false

end ScriptStatement

/-- Why a script cannot be read. -/
inductive ScriptError
  | scan (e : ScanError)
  | parse (e : ParseError)
  | distribution (e : Distribution.Fault)
deriving DecidableEq, Repr

def ScriptError.message : ScriptError → String
  | .scan e => e.message
  | .parse e => e.message
  | .distribution e => e.message

namespace Script

/-! ## Groups of tokens -/

/-- The number of open parentheses behind a token. One that closes nothing does not count. -/
def depthAfter (depth : Nat) (t : Token) : Nat :=
  if t.isSymbol "(" then depth + 1
  else if t.isSymbol ")" then depth - 1
  else depth

/-- The groups between semicolons outside parentheses; `depth` parentheses are open. -/
def cut (depth : Nat) : List Token → List (List Token)
  | [] => [[]]
  | t :: rest =>
    if t.isSymbol ";" && depth = 0 then [] :: cut 0 rest
    else match cut (depthAfter depth t) rest with
      | [] => [[t]]
      | group :: groups => (t :: group) :: groups

/-- The groups of a script that hold more than blanks. -/
def groups (tokens : List Token) : List (List Token) :=
  (cut 0 tokens).filter fun group => !group.all Token.isBlank

/-! ## The clause of a group -/

/-- Whether a group starts with `CREATE`. -/
def isCreate (group : List Token) : Bool :=
  (group.find? fun t => !t.isBlank).any (·.isKeyword "CREATE")

/-- Splits a group at its last `DISTRIBUTED` outside parentheses; `depth` are open. -/
def splitClause? (depth : Nat) : List Token → Option (List Token × List Token)
  | [] => none
  | t :: rest =>
    match splitClause? (depthAfter depth t) rest with
    | some (before, behind) => some (t :: before, behind)
    | none =>
      if depth = 0 && Distribution.isWord "DISTRIBUTED" t then some ([], rest) else none

/-! ## Reading -/

/-- Gives the last statement a distribution. -/
def attach (distribution : Distribution) : List ScriptStatement → List ScriptStatement
  | [] => []
  | [s] => [{ s with distribution := some distribution }]
  | s :: rest => s :: attach distribution rest

/-- The statements of a group without a clause. -/
def readPlain (group : List Token) : Except ScriptError (List ScriptStatement) :=
  match Parser.parseStatements group with
  | .ok statements => .ok (statements.map (⟨·, none⟩))
  | .error e => .error (.parse e)

/-- The place of the clause that a dialect sees in a group. -/
def clause? (dialect : Dialect) (group : List Token) : Option (List Token × List Token) :=
  if dialect.supportsDistribution && isCreate group then splitClause? 0 group else none

/-- The statements of a group. What looks like a clause but is none may be part of the statement;
if it is not, the failure of the clause counts. -/
def readGroup (dialect : Dialect) (group : List Token) :
    Except ScriptError (List ScriptStatement) :=
  match clause? dialect group with
  | none => readPlain group
  | some (before, behind) =>
    match Distribution.ofTokens behind with
    | .ok distribution => (readPlain before).map (attach distribution)
    | .error e =>
      match readPlain group with
      | .ok statements => .ok statements
      | .error _ => .error (.distribution e)

/-- The statements of groups, one group after another; the first failure counts. -/
def readGroups (dialect : Dialect) : List (List Token) → Except ScriptError (List ScriptStatement)
  | [] => .ok []
  | group :: rest => do
    let first ← readGroup dialect group
    let more ← readGroups dialect rest
    return first ++ more

def ofTokens (dialect : Dialect) (tokens : List Token) :
    Except ScriptError (List ScriptStatement) :=
  readGroups dialect (groups tokens)

/-- The statements of a text. If `folding` is set, words without quotes are read in small
letters. -/
def parse (dialect : Dialect) (folding : Bool) (sql : String) :
    Except ScriptError (List ScriptStatement) :=
  match Token.scan sql with
  | .error e => .error (.scan e)
  | .ok tokens => ofTokens dialect (if folding then tokens.map Token.fold else tokens)

/-- The text of statements, each closed by a semicolon on a line of its own. -/
def generate (statements : List ScriptStatement) : String :=
  "\n".intercalate (statements.map fun s => s.text ++ ";")

end Script

end ColumnLineage
