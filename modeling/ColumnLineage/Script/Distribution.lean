import ColumnLineage.Parser.Query

/-!
# The distribution of a table

`DISTRIBUTED BY (column, ...)` or `DISTRIBUTED RANDOMLY`, each with an order behind it if there
is one. The clause ends its statement.
-/

namespace ColumnLineage

/-- How the rows of a table are spread. -/
structure Distribution where
  /-- The columns that decide; none if rows are spread at random. -/
  columns : Option (List Ident)
  /-- The order of the rows, if the clause gives one. -/
  orderBy : List OrderItem

namespace Distribution

def byColumns (columns : List Ident) : Distribution :=
  ⟨some columns, []⟩

def randomly : Distribution :=
  ⟨none, []⟩

def text (d : Distribution) : String :=
  (match d.columns with
    | none => "DISTRIBUTED RANDOMLY"
    | some columns => "DISTRIBUTED BY (" ++ commas (columns.map Ident.text) ++ ")") ++
  (match d.orderBy with
    | [] => ""
    | items => " ORDER BY " ++ commas (OrderItem.texts items))

/-- Why a clause cannot be read. -/
inductive Fault
  /-- Neither columns nor `RANDOMLY` follow. -/
  | policy (found : Option Token)
  | trailing (found : Token)
  /-- The columns or the order cannot be read. -/
  | syntaxError (e : ParseError)
deriving DecidableEq, Repr

def Fault.message : Fault → String
  | .policy found => "Expected: BY or RANDOMLY after DISTRIBUTED, found: " ++ foundText found
  | .trailing found => "Unexpected token after DISTRIBUTED clause: " ++ found.render
  | .syntaxError e => e.message

/-- Whether a token is the given word without quotes, in any case. -/
def isWord (word : String) : Token → Bool
  | .word w => !w.quoted && Text.equalIgnoringCase w.value word
  | _ => false

/-- The order behind a clause, and what follows it. -/
def order (tokens : List Token) : Except Fault (List OrderItem × List Token) :=
  match Parser.orderBy? (Parser.grammar Parser.nestingLimit) tokens with
  | .ok items rest => .ok (items, rest)
  | .error e _ => .error (.syntaxError e)

/-- The policy at the front of the tokens, and what follows it. -/
def policy : List Token → Except Fault (Option (List Ident) × List Token)
  | [] => .error (.policy none)
  | t :: rest =>
    if t.isKeyword "BY" then
      match Parser.columnNames rest with
      | .ok columns rest' => .ok (some columns, rest')
      | .error e _ => .error (.syntaxError e)
    else if isWord "RANDOMLY" t then .ok (none, rest)
    else .error (.policy (some t))

/-- The clause that the tokens behind `DISTRIBUTED` say. -/
def ofTokens (tokens : List Token) : Except Fault Distribution := do
  let (columns, rest) ← policy (tokens.filter fun t => !t.isBlank)
  let (orderBy, rest) ← order rest
  match rest with
  | [] => return ⟨columns, orderBy⟩
  | t :: _ => throw (.trailing t)

end Distribution

end ColumnLineage
