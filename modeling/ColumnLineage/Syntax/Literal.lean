import ColumnLineage.Syntax.Ident

/-!
# Types, literals and the forms of expressions

The parts of an expression that hold no expression themselves: data types, constants, and the
forms that say what an expression with one or two operands means. Each comes with its text.
-/

namespace ColumnLineage

/-! ## Data types -/

/-- What may follow the name and the sizes of a type. -/
inductive TypeSuffix
  | absent
  | withZone
  | withoutZone
  | unsigned
deriving DecidableEq, Repr

def TypeSuffix.text : TypeSuffix → String
  | .absent => ""
  | .withZone => " WITH TIME ZONE"
  | .withoutZone => " WITHOUT TIME ZONE"
  | .unsigned => " UNSIGNED"

/-- The type of a column or of a cast. -/
inductive DataType
  /-- A type of the language, with its sizes in parentheses. -/
  | builtin (name : String) (sizes : List String) (suffix : TypeSuffix)
  /-- A type that lists its values, as they are printed. -/
  | listed (name : String) (values : List String)
  | custom (name : ObjectName) (modifiers : List String)
  /-- An array; the number of elements may be given. -/
  | array (element : DataType) (size : Option String)
  | arrayOf (element : DataType)
deriving DecidableEq, Repr

def DataType.text : DataType → String
  | .builtin name [] suffix => name ++ suffix.text
  | .builtin name sizes suffix => name ++ "(" ++ ",".intercalate sizes ++ ")" ++ suffix.text
  | .listed name values => name ++ "(" ++ commas values ++ ")"
  | .custom name [] => name.text
  | .custom name modifiers => name.text ++ "(" ++ commas modifiers ++ ")"
  | .array element none => element.text ++ "[]"
  | .array element (some n) => element.text ++ "[" ++ n ++ "]"
  | .arrayOf element => "ARRAY<" ++ element.text ++ ">"

/-! ## Constants -/

/-- A constant. -/
inductive Literal
  | number (spelling : String)
  | text (value : String)
  | boolean (value : Bool)
  | null
  /-- A text read as a value of a type, such as `DATE '2020-01-01'`. -/
  | typed (type : DataType) (value : String)
  /-- A text of another kind, such as `E'a'`. -/
  | marked (kind : TextKind) (value : String)
  /-- A text behind the name of its character set, such as `_utf8 'a'`. -/
  | introduced (introducer : String) (hex : Bool) (value : String)
  /-- A name in double quotes that stands where only a constant may stand. -/
  | doubleQuoted (value : String)
  | placeholder (name : String)
deriving DecidableEq, Repr

def Literal.print : Literal → String
  | .number s => s
  | .text s => quoted '\'' s
  | .boolean true => "true"
  | .boolean false => "false"
  | .null => "NULL"
  | .typed type s => type.text ++ " " ++ quoted '\'' s
  | .marked kind s => kind.print s
  | .introduced introducer hex s =>
    introducer ++ " " ++ (if hex then TextKind.hex.print s else quoted '\'' s)
  | .doubleQuoted s => quoted '"' s
  | .placeholder name => name

/-- A part of a date or time: one of the language's own, in capitals, or a name. -/
inductive DateField
  | unit (name : String)
  | custom (name : Ident)
deriving DecidableEq, Repr

def DateField.text : DateField → String
  | .unit name => name
  | .custom name => name.text

/-- What may stand behind the amount of an interval. -/
structure IntervalUnits where
  leading : Option DateField := none
  /-- The number of digits of the leading unit. -/
  precision : Option String := none
  last : Option DateField := none
  /-- The number of digits of fractions of a second. -/
  fraction : Option String := none
deriving DecidableEq, Repr

/-- The units as they are printed. Seconds have both numbers of digits in one parenthesis. -/
def IntervalUnits.text (u : IntervalUnits) : String :=
  match u.leading, u.precision, u.fraction with
  | some (.unit "SECOND"), some precision, some fraction =>
    " SECOND (" ++ precision ++ ", " ++ fraction ++ ")"
  | leading, precision, fraction =>
    let behind (lead trail : String) : Option String → String
      | none => ""
      | some s => lead ++ s ++ trail
    behind " " "" (leading.map DateField.text) ++ behind " (" ")" precision ++
      behind " TO " "" (u.last.map DateField.text) ++ behind " (" ")" fraction

/-! ## Expressions with one operand -/

/-- How a value that cannot be converted is treated. -/
inductive CastKind
  | strict
  | attempt
  | safe
deriving DecidableEq, Repr

def CastKind.word : CastKind → String
  | .strict => "CAST"
  | .attempt => "TRY_CAST"
  | .safe => "SAFE_CAST"

/-- The format of a cast, and the time zone behind it. -/
structure CastFormat where
  value : Literal
  zone : Option Literal
deriving DecidableEq, Repr

/-- The format as it is printed, behind a blank. -/
def CastFormat.text (f : CastFormat) : String :=
  " FORMAT " ++ f.value.print ++
    (match f.zone with
      | none => ""
      | some z => " AT TIME ZONE " ++ z.print)

/-- To what a number or a date is rounded. -/
inductive RoundTo
  | whole
  | places (number : String)
  | field (field : DateField)
deriving DecidableEq, Repr

/-- What stands behind the operand of a rounding. -/
def RoundTo.text : RoundTo → String
  | .whole => ""
  | .places number => ", " ++ number
  | .field part => " TO " ++ part.text

/-- What an expression with one operand does with it. -/
inductive UnaryForm
  | parens
  /-- `+e`, `-e`, `~e` and the other operators written before their operand -/
  | sign (operator : String)
  | factorial
  | not
  | isNull (negated : Bool)
  /-- `e IS TRUE`, `e IS NOT UNKNOWN`, ...; the words after `IS` -/
  | isTruth (words : String)
  | cast (kind : CastKind) (type : DataType) (format : Option CastFormat)
  | castSuffix (type : DataType)
  /-- `CONVERT(e, type CHARACTER SET name)` or `CONVERT(e USING name)` -/
  | convert (type : Option DataType) (charset : Option ObjectName)
  | collate (name : ObjectName)
  | extract (field : DateField)
  /-- `CEIL(e)` or `FLOOR(e)`, with what it rounds to -/
  | round (name : String) (extent : RoundTo)
  | field (name : Ident)
  | interval (units : IntervalUnits)
  /-- `fn e` in braces, where the operand is a call -/
  | braced
deriving DecidableEq, Repr

/-- The text of the expression, given that of its operand. -/
def UnaryForm.print (operand : String) : UnaryForm → String
  | .parens => "(" ++ operand ++ ")"
  | .sign operator => operator ++ operand
  | .factorial => operand ++ "!"
  | .not => "NOT " ++ operand
  | .isNull false => operand ++ " IS NULL"
  | .isNull true => operand ++ " IS NOT NULL"
  | .isTruth words => operand ++ " IS " ++ words
  | .cast kind type format =>
    kind.word ++ "(" ++ operand ++ " AS " ++ type.text ++
      (match format with
        | none => ""
        | some f => f.text) ++ ")"
  | .castSuffix type => operand ++ "::" ++ type.text
  | .convert type charset =>
    "CONVERT(" ++ operand ++
      (match type, charset with
        | some t, some c => ", " ++ t.text ++ " CHARACTER SET " ++ c.text
        | some t, none => ", " ++ t.text
        | none, some c => " USING " ++ c.text
        | none, none => "") ++ ")"
  | .collate name => operand ++ " COLLATE " ++ name.text
  | .extract part => "EXTRACT(" ++ part.text ++ " FROM " ++ operand ++ ")"
  | .round name extent => name ++ "(" ++ operand ++ extent.text ++ ")"
  | .field name => operand ++ "." ++ name.text
  | .interval units => "INTERVAL " ++ operand ++ units.text
  | .braced => "\x7bfn " ++ operand ++ "\x7d"

/-! ## Expressions with two operands -/

/-- How two texts are matched. -/
inductive Pattern
  | like
  | ilike
  | similar
  | regexp
  | rlike
deriving DecidableEq, Repr

def Pattern.words : Pattern → String
  | .like => "LIKE"
  | .ilike => "ILIKE"
  | .similar => "SIMILAR TO"
  | .regexp => "REGEXP"
  | .rlike => "RLIKE"

/-- The word between a comparison and the array or query it ranges over. -/
inductive Range
  | any
  | some
  | all
deriving DecidableEq, Repr

def Range.word : Range → String
  | .any => "ANY"
  | .some => "SOME"
  | .all => "ALL"

/-- What an expression with two operands does with them. -/
inductive BinaryForm
  /-- `l op r` for an operator of symbols or for `AND` and `OR` -/
  | operator (op : String)
  | ranged (op : String) (range : Range)
  | isDistinct (negated : Bool)
  /-- `l LIKE r` and its kin; `any` for `LIKE ANY`, `escape` for `ESCAPE '..'` -/
  | matching (negated : Bool) (pattern : Pattern) (any : Bool) (escape : Option String)
  | inUnnest (negated : Bool)
  | atTimeZone
  | position
  | subscript
deriving DecidableEq, Repr

/-- The text of the expression, given those of its operands; `bare` says that the right operand
brings its own parentheses. -/
def BinaryForm.print (left right : String) (bare : Bool) : BinaryForm → String
  | .operator op => left ++ " " ++ op ++ " " ++ right
  | .ranged op range =>
    left ++ " " ++ op ++ " " ++ range.word ++ (if bare then right else "(" ++ right ++ ")")
  | .isDistinct negated =>
    left ++ (if negated then " IS NOT DISTINCT FROM " else " IS DISTINCT FROM ") ++ right
  | .matching negated pattern any escape =>
    left ++ (if negated then " NOT " else " ") ++ pattern.words ++ (if any then " ANY " else " ") ++
      right ++ (match escape with
        | none => ""
        | some e => " ESCAPE '" ++ e ++ "'")
  | .inUnnest negated =>
    left ++ (if negated then " NOT IN UNNEST(" else " IN UNNEST(") ++ right ++ ")"
  | .atTimeZone => left ++ " AT TIME ZONE " ++ right
  | .position => "POSITION(" ++ left ++ " IN " ++ right ++ ")"
  | .subscript => left ++ "[" ++ right ++ "]"

end ColumnLineage
