import ColumnLineage.Parser.Constant

/-!
# Reading data types

The types of the language have a spelling of their own, with their sizes in parentheses. Any other
name is a type of its own and prints as it is written.
-/

namespace ColumnLineage.Parser

/-! ## What follows a name -/

/-- What may follow the name of a type. -/
inductive TypeShape
  | plain
  | sized
  /-- One size, and whether the numbers have no sign. -/
  | whole
  | characters
  | exact
  | time
  /-- A list of names, perhaps with numbers. -/
  | enumeration
deriving DecidableEq, Repr

/-- The types of the language by their keywords. -/
def typeShapes : List (TypeShape × List String) :=
  [(.plain, ["BOOLEAN", "BOOL", "REAL", "FLOAT4", "FLOAT8", "FLOAT64", "INT64", "UUID", "DATE",
      "JSON", "JSONB", "REGCLASS", "TEXT", "TINYTEXT", "MEDIUMTEXT", "LONGTEXT", "BYTEA",
      "TINYBLOB", "MEDIUMBLOB", "LONGBLOB", "TRIGGER", "INTERVAL"]),
    (.sized, ["FLOAT", "CLOB", "BINARY", "VARBINARY", "BLOB", "BYTES", "DATETIME", "STRING",
      "TIMESTAMPTZ", "TIMETZ"]),
    (.whole, ["TINYINT", "INT2", "SMALLINT", "MEDIUMINT", "INT", "INT4", "INT8", "INTEGER",
      "BIGINT"]),
    (.characters, ["VARCHAR", "NVARCHAR"]),
    (.exact, ["NUMERIC", "DECIMAL", "DEC", "BIGNUMERIC", "BIGDECIMAL"]),
    (.time, ["TIMESTAMP", "TIME"]),
    (.enumeration, ["ENUM", "ENUM8", "ENUM16"])]

/-- The shape of the type that a keyword names. -/
def typeShape? (keyword : String) : Option TypeShape :=
  (typeShapes.find? fun (_, keywords) => keywords.contains keyword).map Prod.fst

/-- The types whose names are not written in capitals. -/
def mixedCaseTypes : List (String × String) :=
  [("FLOAT32", "Float32"), ("INT16", "Int16"), ("INT32", "Int32"), ("INT128", "Int128"),
    ("INT256", "Int256"), ("UINT8", "UInt8"), ("UINT16", "UInt16"), ("UINT32", "UInt32"),
    ("UINT64", "UInt64"), ("UINT128", "UInt128"), ("UINT256", "UInt256"), ("DATE32", "Date32")]

/-- One size in parentheses, if a parenthesis opens. -/
def size? : Parser (List String) := do
  return (← precision?).toList

/-- A number of characters, with its unit. -/
def characterCount : Parser String := do
  if ← keyword? "MAX" then return "MAX"
  let n ← wholeNumber
  if ← keyword? "CHARACTERS" then return n ++ " CHARACTERS"
  else if ← keyword? "OCTETS" then return n ++ " OCTETS"
  else return n

/-- A number of characters in parentheses, if a parenthesis opens. -/
def characterCount? : Parser (List String) := do
  if ← atSymbol "(" then return [← parenthesized characterCount] else return []

def zone? : Parser TypeSuffix := do
  if ← keyword? "WITH" then
    keyword "TIME"
    keyword "ZONE"
    return .withZone
  else if ← keyword? "WITHOUT" then
    keyword "TIME"
    keyword "ZONE"
    return .withoutZone
  else return .absent

/-- A name in an enumeration, perhaps with its number. -/
def enumerator : Parser String := do
  let name := quoted '\'' (← literalString)
  if ← symbol? "=" then return name ++ " = " ++ (← signedNumber) else return name

/-- What follows the name of a type of the language. -/
def builtinType (name : String) : TypeShape → Parser DataType
  | .plain => return .builtin name [] .absent
  | .sized => return .builtin name (← size?) .absent
  | .whole => do
    let sizes ← size?
    return .builtin name sizes (if ← keyword? "UNSIGNED" then .unsigned else .absent)
  | .characters => return .builtin name (← characterCount?) .absent
  | .exact => do
    let (precision, scale) ← precisionAndScale?
    return .builtin name (precision.toList ++ scale.toList) .absent
  | .time => return .builtin name (← size?) (← zone?)
  | .enumeration => return .listed name (← parenthesized (commaList enumerator))

/-- What follows `CHAR` or `CHARACTER`. -/
def characterType (name : String) : Parser DataType := do
  if ← keyword? "VARYING" then builtinType (name ++ " VARYING") .characters
  else if ← keywords? ["LARGE", "OBJECT"] then builtinType (name ++ " LARGE OBJECT") .sized
  else builtinType name .characters

/-- The values of a `SET` type behind the opening parenthesis, and the closing one. -/
def setValues : Parser (List String) := do
  let value : Parser (String × Bool) := do
    let value ← match ← next with
      | some (.text s) => pure (quoted '\'' s)
      | found => throw (.expected "a string" found)
    match ← next with
    | some (.symbol ",") => return (value, true)
    | some (.symbol ")") => return (value, false)
    | found => throw (.expected ", or \x7d" found)
  let (values, _) ← loop (fun (values, more) => do
    if more then
      let (v, more) ← value
      return some (v :: values, more)
    else return none) ([], true)
  return values.reverse

/-- The modifiers of a type behind the opening parenthesis, and the closing one. Commas between
them do not count. -/
def typeModifiers : Parser (List String) := do
  let (modifiers, _) ← loop (fun ((modifiers : List String), closed) => do
    if closed then return none
    match ← next with
    | some (.word w) => return some (w.render :: modifiers, false)
    | some (.number s) => return some (digitsOf s :: modifiers, false)
    | some (.text s) => return some (s :: modifiers, false)
    | some (.symbol ",") => return some (modifiers, false)
    | some (.symbol ")") => return some (modifiers, true)
    | found => throw (.expected "type modifiers" found)) ([], false)
  return modifiers.reverse

def customType : Parser DataType := do
  let name ← objectName
  if ← symbol? "(" then return .custom name (← typeModifiers) else return .custom name []

/-! ## Types -/

/-- A type with a keyword that is already read, other than an array in angle brackets. -/
def keywordType? (keyword : String) : Option (Parser DataType) :=
  match keyword with
  | "DOUBLE" => some do
    return .builtin (if ← keyword? "PRECISION" then "DOUBLE PRECISION" else "DOUBLE") [] .absent
  | "CHARACTER" | "CHAR" => some (characterType keyword)
  | "BIT" => some do
    builtinType (if ← keyword? "VARYING" then "BIT VARYING" else "BIT") .sized
  | "DATETIME64" => some do
    symbol "("
    let precision ← wholeNumber
    let zone ← if ← symbol? "," then pure [quoted '\'' (← literalString)] else pure []
    symbol ")"
    return .listed "DateTime64" (precision :: zone)
  | "FIXEDSTRING" => some do return .builtin "FixedString" [← parenthesized wholeNumber] .absent
  | "SET" => some do
    symbol "("
    return .listed "SET" (← setValues)
  | _ =>
    match mixedCaseTypes.lookup keyword, typeShape? keyword with
    | some name, _ => some (builtinType name .plain)
    | none, some shape => some (builtinType keyword shape)
    | none, none => none

/-- Reads the `>` behind the elements of an array, unless the one behind them closed two arrays.
Says whether the sign that is read closes another array. -/
def closeAngle (closed : Bool) : Parser Bool := do
  if closed then return false
  else if ← symbol? ">" then return false
  else if ← symbol? ">>" then return true
  else expected ">"

/-- A type without brackets behind it, and whether the sign behind its elements closes another
array; `inner` reads the elements. -/
def elementType (inner : Parser (DataType × Bool)) : Parser (DataType × Bool) := do
  match ← get with
  | .word w :: rest =>
    match keywordType? w.keyword with
    | some type =>
      set rest
      return (← type, false)
    | none =>
      if w.keyword = "ARRAY" then
        set rest
        symbol "<"
        let (element, closed) ← inner
        return (.arrayOf element, ← closeAngle closed)
      else return (← customType, false)
  | tokens =>
    set tokens.tail
    throw (.expected "a data type name" tokens.head?)

/-- A type with the brackets behind it, each pair of which makes an array, and whether the sign
behind its elements closes another array. At most as many arrays in angle brackets as the number
says may stand in one another. -/
def typeWithin : Nat → Parser (DataType × Bool)
  | 0 => throw .nesting
  | n + 1 => do
    let (type, closed) ← elementType (typeWithin n)
    let type ← loop (fun type => do
      if ← symbol? "[" then
        let size ← attempt? wholeNumber
        symbol "]"
        return some (.array type size)
      else return none) type
    return (type, closed)

def dataType : Parser DataType := do
  let (type, closed) ← typeWithin ((← get).length + 1)
  if closed then
    throw (.remark ("unmatched > after parsing data type " ++ type.text ++ foundText (← peek)))
  else return type

end ColumnLineage.Parser
