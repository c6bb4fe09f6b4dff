import ColumnLineage.Token.Basic

/-!
# Reading trees from tokens

A parser reads tokens from the front of a list and gives a value, or the reason why it cannot, and
in both cases the rest: where it stopped. Blanks are gone before parsing starts. Loops run at most
once per token that is left, so they end by themselves.
-/

namespace ColumnLineage

/-- Why tokens cannot be read. -/
inductive ParseError
  /-- Something is missing at a token; no token means the end. -/
  | expected (what : String) (found : Option Token)
  /-- Statements, queries and expressions are nested too deeply. -/
  | nesting
  | remark (words : String)
deriving DecidableEq, Repr

/-- A token as messages show it, or the end. -/
def foundText : Option Token → String
  | some t => t.render
  | none => "EOF"

def ParseError.message : ParseError → String
  | .expected what found => "sql parser error: Expected: " ++ what ++ ", found: " ++ foundText found
  | .nesting => "sql parser error: recursion limit exceeded"
  | .remark words => "sql parser error: " ++ words

/-- A parser of values of a type. A failure keeps the tokens that were not read. -/
abbrev Parser := EStateM ParseError (List Token)

namespace Parser

/-! ## Single tokens -/

def peek : Parser (Option Token) := do
  return (← get).head?

def next : Parser (Option Token) := do
  let tokens ← get
  set tokens.tail
  return tokens.head?

def expected {α : Type} (what : String) : Parser α := do
  throw (.expected what (← peek))

/-- Whether the next token is the given symbol; if so it is read. -/
def symbol? (s : String) : Parser Bool := do
  match ← get with
  | t :: rest => if t.isSymbol s then set rest; return true else return false
  | [] => return false

def symbol (s : String) : Parser Unit := do
  unless ← symbol? s do expected s

/-- Whether the next token is the given symbol. -/
def atSymbol (s : String) : Parser Bool := do
  return (← peek).any (·.isSymbol s)

/-- Whether the next token is one of the given keywords. -/
def atKeyword (ks : List String) : Parser Bool := do
  return (← peek).any fun t => ks.any t.isKeyword

/-- Whether the next tokens are the given keywords; if so they are read. -/
def keywords? (ks : List String) : Parser Bool := do
  let tokens ← get
  if (tokens.take ks.length).length = ks.length &&
      (tokens.zip ks).all fun (t, k) => t.isKeyword k then
    set (tokens.drop ks.length)
    return true
  else return false

/-- Whether the next token is the given keyword; if so it is read. -/
def keyword? (k : String) : Parser Bool :=
  keywords? [k]

def keyword (k : String) : Parser Unit := do
  unless ← keyword? k do expected k

/-- The next token if it is one of the given keywords; then it is read. -/
def oneOf? (ks : List String) : Parser (Option String) := do
  match ks with
  | [] => return none
  | k :: more => if ← keyword? k then return some k else oneOf? more

/-- The value beside the keywords that come next, which are read; the first pair that fits counts. -/
def valueOf? {α : Type} : List (List String × α) → Parser (Option α)
  | [] => return none
  | (ks, a) :: more => do if ← keywords? ks then return some a else valueOf? more

/-- The next token, which must be one of the given keywords. -/
def oneOf (ks : List String) : Parser String := do
  match ← oneOf? ks with
  | some k => return k
  | none => expected ("one of " ++ " or ".intercalate ks)

/-! ## Choice -/

/-- Tries a parser. If it fails nothing is read, but nesting that is too deep stays a failure. -/
def attempt? {α : Type} (p : Parser α) : Parser (Option α) := fun tokens =>
  match p tokens with
  | .ok a rest => .ok (some a) rest
  | .error .nesting _ => .error .nesting tokens
  | .error _ _ => .ok none tokens

/-- Tries a parser and, if it fails, another one; if that fails too the first failure counts, and
nothing is read. -/
def orElse {α : Type} (p q : Parser α) : Parser α := fun tokens =>
  match p tokens with
  | .ok a rest => .ok a rest
  | .error e _ =>
    match q tokens with
    | .ok a rest => .ok a rest
    | .error _ _ => .error e tokens

/-- Tries a parser and, if it fails, goes on from where it stopped. -/
def recover {α : Type} (p : Parser α) (q : Parser α) : Parser α := fun tokens =>
  match p tokens with
  | .ok a rest => .ok a rest
  | .error _ rest => q rest

/-- Reads once what several ways to go on start with: `k` is given a parser with the result, which
it may use only where it starts itself. -/
def sharing {α β : Type} (p : Parser α) (k : Parser α → Parser β) : Parser β := fun tokens =>
  let result := p tokens
  k (fun _ => result) tokens

/-! ## Repetition -/

/-- Goes on as long as `step` gives a new value, at most as often as the number says. -/
def iterate {α : Type} (step : α → Parser (Option α)) : Nat → α → Parser α
  | 0, a => return a
  | n + 1, a => do
    match ← step a with
    | none => return a
    | some b => iterate step n b

/-- Goes on as long as `step` gives a new value; each step reads a token. -/
def loop {α : Type} (step : α → Parser (Option α)) (a : α) : Parser α := do
  iterate step (← get).length a

/-- One or more values with the given test between them. -/
def separated {α : Type} (separator : Parser Bool) (p : Parser α) : Parser (List α) := do
  let first ← p
  let more ← loop (fun (acc : List α) => do
    if ← separator then return some ((← p) :: acc) else return none) []
  return first :: more.reverse

/-- One or more values with commas between them. -/
def commaList {α : Type} (p : Parser α) : Parser (List α) :=
  separated (symbol? ",") p

/-- As many values as can be read one behind the other. What fails is not read. -/
def many {α : Type} (p : Parser α) : Parser (List α) := do
  let read ← loop (fun (acc : List α) => do return (← attempt? p).map (· :: acc)) []
  return read.reverse

def parenthesized {α : Type} (p : Parser α) : Parser α := do
  symbol "("
  let a ← p
  symbol ")"
  return a

/-- A value behind a keyword, if the keyword is there. -/
def behind? {α : Type} (k : String) (p : Parser α) : Parser (Option α) := do
  if ← keyword? k then return some (← p) else return none

/-! ## Names -/

/-- A name: any word, or a text in single quotes. -/
def ident : Parser Ident := do
  match ← next with
  | some (.word w) => return w.ident
  | some (.text s) => return ⟨s, some .single⟩
  | found => throw (.expected "identifier" found)

def objectName : Parser ObjectName := do
  return ⟨← separated (symbol? ".") ident⟩

def columnNames : Parser (List Ident) := do
  if ← atSymbol "(" then parenthesized (commaList ident)
  else expected "a list of columns in parentheses"

/-- Names in parentheses, if a parenthesis opens. -/
def columnNames? : Parser (List Ident) := do
  if ← atSymbol "(" then columnNames else return []

/-- An alias: any word behind `AS`, and without it a word that is not reserved. -/
def alias? (reserved : List String) : Parser (Option Ident) := do
  let behindAs ← keyword? "AS"
  match ← peek with
  | some (.word w) =>
    if behindAs || !reserved.contains w.keyword then
      let _ ← next
      return some w.ident
    else return none
  | some (.text s) =>
    let _ ← next
    return some ⟨s, some .single⟩
  | found => if behindAs then throw (.expected "an identifier after AS" found) else return none

end Parser

end ColumnLineage
