import ColumnLineage.Parser.Call
import ColumnLineage.Parser.DataType
import ColumnLineage.Parser.Operator

/-!
# Reading primary expressions

A primary expression is one without operators behind it: a constant, a column, a call, something
in parentheses, or one of the forms that start with a keyword. Where such a form does not fit,
its keyword is read as a plain name. A text behind the name of a type is a constant of that type;
any word that is no keyword counts as such a text.
-/

namespace ColumnLineage.Parser

/-! ## Names -/

/-- The parts of a name behind its first one, in reverse. A star ends it. -/
def nameParts (read : List Ident) : Parser (List Ident × Bool) :=
  loop (fun (parts, star) => do
    if ← pure !star <&&> symbol? "." then
      match ← dottedPart with
      | some part => return some (part :: parts, false)
      | none => return some (parts, true)
    else return none) (read, false)

/-- A column or a call whose name starts with a word that is already read. A word that starts with
an underscore before a text names its character set. -/
def nameOrCall (g : Grammar) (w : Word) : Parser Expr := do
  match w.value.toList.head?, ← get with
  | some '_', .text s :: rest =>
    set rest
    return .literal (.introduced w.value false s)
  | some '_', .marked .hex s :: rest =>
    set rest
    return .literal (.introduced w.value true s)
  | _, _ =>
    let (parts, star) ← nameParts [w.ident]
    if star then return .rowOf ⟨parts.reverse⟩
    if ← symbol? "(" then call g ⟨parts.reverse⟩
    else match parts with
      | [name] => return .column name
      | _ => return .path parts.reverse

/-! ## Forms that start with a keyword -/

def atQuery : Parser Bool :=
  atKeyword ["SELECT", "WITH"]

/-- An interval behind its keyword; `inner` reads its amount. -/
def interval (inner : Parser Expr) : Parser Expr := do
  let e ← inner
  return .unary (.interval (← unitsBehind)) e

/-- The branches of a `CASE`: conditions and results in reverse. -/
def caseBranches (g : Grammar) : Parser (List Expr × List Expr) := do
  let condition ← g.whole
  keyword "THEN"
  let result ← g.whole
  loop (fun (conditions, results) => do
    if ← keyword? "WHEN" then
      let condition ← g.whole
      keyword "THEN"
      return some (condition :: conditions, (← g.whole) :: results)
    else return none) ([condition], [result])

/-- A `CASE` behind its keyword. -/
def caseForm (g : Grammar) : Parser Expr := do
  let operand ←
    if ← keyword? "WHEN" then pure none
    else
      let e ← g.whole
      keyword "WHEN"
      pure (some e)
  let (conditions, results) ← caseBranches g
  let otherwise ← behind? "ELSE" g.whole
  keyword "END"
  return .cases operand conditions.reverse results.reverse otherwise

def convertForm (g : Grammar) : Parser Expr :=
  parenthesized do
    let e ← g.whole
    if ← keyword? "USING" then return .unary (.convert none (some (← objectName))) e
    symbol ","
    let type ← dataType
    let charset ←
      if ← keywords? ["CHARACTER", "SET"] then pure (some (← objectName)) else pure none
    return .unary (.convert (some type) charset) e

/-- The format of a cast, if there is one. -/
def castFormat? : Parser (Option CastFormat) := do
  if ← keyword? "FORMAT" then
    let value ← constant
    let zone ← if ← keywords? ["AT", "TIME", "ZONE"] then pure (some (← constant)) else pure none
    return some ⟨value, zone⟩
  else return none

def castForm (g : Grammar) (kind : CastKind) : Parser Expr :=
  parenthesized do
    let e ← g.whole
    keyword "AS"
    let type ← dataType
    return .unary (.cast kind type (← castFormat?)) e

def existsForm (g : Grammar) (negated : Bool) : Parser Expr :=
  parenthesized do return .existence negated (← g.query)

def extractForm (g : Grammar) : Parser Expr :=
  parenthesized do
    let field ← dateField
    unless ← keyword? "FROM" do
      let _ ← symbol? ","
      throw (.remark "Expected 'FROM' or ','")
    return .unary (.extract field) (← g.whole)

/-- `CEIL` or `FLOOR` behind its keyword. -/
def roundForm (g : Grammar) (name : String) : Parser Expr :=
  parenthesized do
    let e ← g.whole
    if ← keyword? "TO" then return .unary (.round name (.field (← dateField))) e
    else if ← symbol? "," then
      match ← constant with
      | .number s => return .unary (.round name (.places s)) e
      | _ => throw (.remark "Scale field can only be of number type")
    else return .unary (.round name .whole) e

/-- `POSITION` behind its keyword: with `IN` between two operands, or an ordinary call. -/
def positionForm (g : Grammar) (w : Word) : Parser Expr := do
  let position ← attempt? <| parenthesized do
    let e ← g.expr betweenPower
    keyword "IN"
    return Expr.binary .position e (← g.whole)
  match position with
  | some e => return e
  | none =>
    symbol "("
    call g ⟨[w.ident]⟩

def substringForm (g : Grammar) : Parser Expr :=
  parenthesized do
    let e ← g.whole
    let commaStyle ← symbol? ","
    let start ←
      if commaStyle then pure (some (← g.whole)) else behind? "FROM" g.whole
    let length ←
      if ← symbol? "," then pure (some (← g.whole)) else behind? "FOR" g.whole
    return .substring commaStyle e start length

def overlayForm (g : Grammar) : Parser Expr :=
  parenthesized do
    let e ← g.whole
    keyword "PLACING"
    let new ← g.whole
    keyword "FROM"
    let start ← g.whole
    return .overlay e new start (← behind? "FOR" g.whole)

/-- The side of a `TRIM`. -/
def trimSide? : Parser (Option TrimSide) := do
  if ← keyword? "BOTH" then return some .both
  else if ← keyword? "LEADING" then return some .leading
  else if ← keyword? "TRAILING" then return some .trailing
  else return none

/-- `TRIM` behind its keyword. A comma behind the operand is read over. -/
def trimForm (g : Grammar) : Parser Expr :=
  parenthesized do
    let side ← trimSide?
    let e ← g.whole
    if ← keyword? "FROM" then return .trim side (← g.whole) (some e)
    let _ ← symbol? ","
    return .trim side e none

/-- The items of an array behind its bracket. -/
def arrayItems (g : Grammar) (named : Bool) : Parser Expr := do
  if ← symbol? "]" then return .array named []
  let items ← commaList g.whole
  symbol "]"
  return .array named items

def notForm (g : Grammar) : Parser Expr := do
  if ← keyword? "EXISTS" then existsForm g true
  else return .unary .not (← g.expr notPower)

/-- A function of the time, which may stand without parentheses. Nothing may follow its
arguments. -/
def timeCall (g : Grammar) (w : Word) : Parser Expr := do
  if ← symbol? "(" then return plainCall w.ident (← callArguments g)
  else return plainCall w.ident .absent

/-- The form that a keyword starts, behind it; `inner` reads the amount of an interval. -/
def keywordForm? (g : Grammar) (inner : Parser Expr) (w : Word) (rest : List Token) :
    Option (Parser Expr) :=
  let opens (s : String) : Bool := rest.head?.any (·.isSymbol s)
  match w.keyword with
  | "TRUE" => some (return .literal (.boolean true))
  | "FALSE" => some (return .literal (.boolean false))
  | "NULL" => some (return .literal .null)
  | "CURRENT_CATALOG" | "CURRENT_USER" | "SESSION_USER" | "USER" =>
    some (return plainCall w.ident .absent)
  | "CURRENT_TIMESTAMP" | "CURRENT_TIME" | "CURRENT_DATE" | "LOCALTIME" | "LOCALTIMESTAMP" =>
    some (timeCall g w)
  | "CASE" => some (caseForm g)
  | "CONVERT" => some (convertForm g)
  | "CAST" => some (castForm g .strict)
  | "TRY_CAST" => some (castForm g .attempt)
  | "SAFE_CAST" => some (castForm g .safe)
  | "EXISTS" => some (existsForm g false)
  | "EXTRACT" => some (extractForm g)
  | "CEIL" => some (roundForm g "CEIL")
  | "FLOOR" => some (roundForm g "FLOOR")
  | "POSITION" => if opens "(" then some (positionForm g w) else none
  | "SUBSTRING" => some (substringForm g)
  | "OVERLAY" => some (overlayForm g)
  | "TRIM" => some (trimForm g)
  | "INTERVAL" => some (interval inner)
  | "ARRAY" =>
    if opens "[" then some do
      symbol "["
      arrayItems g true
    else if opens "(" then some do
      let query ← parenthesized g.query
      return plainCall w.ident (.query query)
    else none
  | "NOT" => some (notForm g)
  | _ => none

/-- The keywords that are never plain names. -/
def neverNames : List String :=
  ["EXISTS", "INTERVAL", "STRUCT", "TRIM"]

/-- The name of a collation behind an expression, if it is there. -/
def collated (e : Expr) : Parser Expr := do
  if ← keyword? "COLLATE" then return .unary (.collate (← objectName)) e else return e

/-- An expression that starts with a word that is already read. A keyword that turns out to be a
plain name has no collation. -/
def wordForm (g : Grammar) (inner : Parser Expr) (w : Word) : Parser Expr := do
  match keywordForm? g inner w (← get) with
  | none => collated (← nameOrCall g w)
  | some form =>
    let (e, isForm) ←
      if neverNames.contains w.keyword then pure (← form, true)
      else orElse (do return (← form, true)) (do return (← nameOrCall g w, false))
    if isForm then collated e else return e

/-! ## Other primary expressions -/

def typedConstant (inner : Parser Expr) : Parser Expr := do
  match ← dataType with
  | .builtin "INTERVAL" _ _ => interval inner
  | .custom _ _ => expected "a type of the language"
  | type => return .literal (.typed type (← literalString))

/-- The operators that may stand before their operand, with the power of the operand. -/
def signPower? (s : String) : Option Nat :=
  if ["+", "-"].contains s then some productPower
  else if ["!!", "|/", "||/", "@", "~"].contains s then some sumPower
  else none

/-- What stands behind an opening parenthesis, and the closing one. -/
def parens (g : Grammar) : Parser Expr := do
  let e ←
    if ← atQuery then pure (.scalar (← g.query))
    else match ← commaList g.whole with
      | [e] => pure (.unary .parens e)
      | items => pure (.tuple items)
  symbol ")"
  if ← symbol? "." then
    match ← next with
    | some (.word w) => return .unary (.field w.ident) e
    | found => throw (.remark ("Expected identifier, found: " ++ foundText found))
  else return e

/-- A call in braces behind the opening one. -/
def bracedCall (g : Grammar) : Parser Expr := do
  let read ← attempt? do
    keyword "FN"
    let name ← objectName
    symbol "("
    call g name
  match read with
  | some e =>
    symbol "\x7d"
    return .unary .braced e
  | none => throw (.expected "an expression" (some (.symbol "\x7b")))

/-- A primary expression that is no typed constant and starts with no word. -/
def symbolForm (g : Grammar) : Parser Expr := do
  let tokens ← get
  match ← next with
  | some (.symbol "(") => parens g
  | some (.symbol "[") => arrayItems g false
  | some (.symbol "\x7b") => bracedCall g
  | some (.symbol s) =>
    match signPower? s with
    | some power => return .unary (.sign s) (← g.expr power)
    | none =>
      if s = ":" then
        set tokens
        return .literal (← constant)
      else throw (.expected "an expression" (some (.symbol s)))
  | none => throw (.expected "an expression" none)
  | some _ =>
    set tokens
    return .literal (← constant)

/-- A primary expression; `inner` reads the amount of an interval. -/
def primaryForm (g : Grammar) (inner : Parser Expr) : Parser Expr := do
  match ← attempt? (typedConstant inner) with
  | some e => return e
  | none =>
    match ← get with
    | .word w :: rest =>
      set rest
      wordForm g inner w
    | _ => collated (← symbolForm g)

/-- A primary expression in which at most the given number of intervals stand in one another. -/
def primaryWithin (g : Grammar) : Nat → Parser Expr
  | 0 => throw .nesting
  | n + 1 => primaryForm g (primaryWithin g n)

def primary (g : Grammar) : Parser Expr := do
  primaryWithin g ((← get).length + 1)

end ColumnLineage.Parser
