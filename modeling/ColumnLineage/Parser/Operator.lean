import ColumnLineage.Parser.Basic

/-!
# How tightly operators bind

Each token that may follow an expression and go on with it has a power. The larger power binds
tighter; a token that cannot go on with an expression has the power zero.
-/

namespace ColumnLineage.Parser

/-! ## The powers -/

/-- `OR` -/
def orPower : Nat := 10

/-- `AND` -/
def andPower : Nat := 20

/-- `NOT` before its operand -/
def notPower : Nat := 30

/-- `IS NULL` and its kin -/
def isPower : Nat := 40

/-- `=`, `<` and their kin, and the matches with `~` -/
def comparisonPower : Nat := 50

/-- `BETWEEN`, `IN`, `LIKE` and their kin, and `OPERATOR(...)` -/
def betweenPower : Nat := 60

/-- Operators without a place of their own -/
def otherPower : Nat := 70

/-- `XOR` -/
def xorPower : Nat := 75

/-- `+` and `-` between two operands -/
def sumPower : Nat := 80

/-- `*`, `/`, `%`, `DIV`, and a sign before its operand -/
def productPower : Nat := 90

/-- `^` -/
def caretPower : Nat := 100

/-- `AT TIME ZONE` -/
def timeZonePower : Nat := 110

/-- `COLLATE` -/
def collatePower : Nat := 120

/-- `e[i]` -/
def subscriptPower : Nat := 130

/-- `e::type` -/
def castPower : Nat := 140

/-! ## The tokens -/

def comparisons : List String :=
  ["=", "<>", "<", ">", "<=", ">="]

/-- The characters that other operators start with. -/
def operatorStarts : List Char :=
  ['-', '<', '>', '|', '&', '~', '#', '@', '%', '?']

def symbolPower (s : String) : Nat :=
  if s = "::" then castPower
  else if s = "[" then subscriptPower
  else if s = "^" then caretPower
  else if ["*", "/", "%"].contains s then productPower
  else if ["+", "-"].contains s then sumPower
  else if comparisons.contains s ||
      ["==", "<=>", "~", "~*", "!~", "!~*", "~~", "~~*", "!~~", "!~~*"].contains s then
    comparisonPower
  else if ["|/", "||/", "@"].contains s then 0
  else if ["^@", "!"].contains s || s.toList.head?.any operatorStarts.contains then otherPower
  else 0

/-- The keywords that may stand behind a `NOT` that follows its left operand. -/
def negatable : List String :=
  ["IN", "BETWEEN", "LIKE", "ILIKE", "SIMILAR", "REGEXP", "RLIKE"]

def powerOf : List Token → Nat
  | .symbol s :: _ => symbolPower s
  | .word w :: rest =>
    if w.keyword = "OR" then orPower
    else if w.keyword = "AND" then andPower
    else if w.keyword = "IS" then isPower
    else if w.keyword = "XOR" then xorPower
    else if w.keyword = "OPERATOR" then betweenPower
    else if w.keyword = "DIV" then productPower
    else if negatable.contains w.keyword then betweenPower
    else if w.keyword = "NOT" && rest.head?.any (fun t => negatable.any t.isKeyword) then
      betweenPower
    else if w.keyword = "AT" then
      match rest with
      | t :: u :: _ => if t.isKeyword "TIME" && u.isKeyword "ZONE" then timeZonePower else 0
      | _ => 0
    else if w.keyword = "COLLATE" then collatePower
    else 0
  | _ => 0

end ColumnLineage.Parser
