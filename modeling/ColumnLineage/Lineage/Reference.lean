import ColumnLineage.Syntax.Query

/-!
# What an expression reads

An item of a select reads columns and scalar queries. They are listed in the order in which they
are met. Inside the less common kinds of expressions only columns count, and queries that stand
in a condition are not entered.
-/

namespace ColumnLineage

/-- What an expression reads. -/
inductive Reference
  /-- A column, behind its qualifier if it has one. -/
  | column (qualifier : Option String) (name : String)
  /-- A query that stands for its one value. -/
  | scalar (query : Query)

/-- The column that the last two parts of a path name. -/
def pathReference (parts : List Ident) : List Reference :=
  match parts.reverse with
  | column :: qualifier :: _ => [.column (some qualifier.value) column.value]
  | _ => []

/-! ## Columns only -/

mutual

/-- The columns in an expression, outside the queries in it. -/
def Expr.columns : Expr → List Reference
  | .column name => [.column none name.value]
  | .path parts => pathReference parts
  | .rowOf _ => []
  | .literal _ => []
  | .unary _ operand => operand.columns
  | .binary _ left right => left.columns ++ right.columns
  | .between _ e low high => e.columns ++ low.columns ++ high.columns
  | .substring _ e start length =>
    e.columns ++ Expr.columnsOption start ++ Expr.columnsOption length
  | .trim _ e characters => e.columns ++ Expr.columnsOption characters
  | .overlay e new start length =>
    e.columns ++ new.columns ++ start.columns ++ Expr.columnsOption length
  | .cases operand conditions results otherwise =>
    Expr.columnsOption operand ++ Expr.columnsList conditions ++ Expr.columnsList results ++
      Expr.columnsOption otherwise
  | .tuple items => Expr.columnsList items
  | .slice e lower upper stride =>
    e.columns ++ Expr.columnsOption lower ++ Expr.columnsOption upper ++ Expr.columnsOption stride
  | .array _ items => Expr.columnsList items
  | .grouping _ sets => Expr.columnsLists sets
  | .inList _ e items => e.columns ++ Expr.columnsList items
  | .inQuery _ e _ => e.columns
  | .existence _ _ => []
  | .scalar _ => []
  | .call _ arguments filter _ window withinGroup =>
    arguments.columns ++ Expr.columnsOption filter ++ window.columns ++
      OrderItem.columnsList withinGroup
termination_by structural e => e

def Expr.columnsList : List Expr → List Reference
  | [] => []
  | e :: es => e.columns ++ Expr.columnsList es
termination_by structural es => es

def Expr.columnsLists : List (List Expr) → List Reference
  | [] => []
  | es :: ess => Expr.columnsList es ++ Expr.columnsLists ess
termination_by structural ess => ess

/-- The columns in an expression that may be absent. -/
def Expr.columnsOption : Option Expr → List Reference
  | none => []
  | some e => e.columns
termination_by structural e => e

/-- The columns in the arguments of a call. -/
def Arguments.columns : Arguments → List Reference
  | .absent => []
  | .query _ => []
  | .list _ items orderBy limit _ filler _ =>
    Argument.columnsList items ++ OrderItem.columnsList orderBy ++ Expr.columnsOption limit ++
      Expr.columnsOption filler
termination_by structural a => a

/-- The columns in an argument, its name included. -/
def Argument.columns : Argument → List Reference
  | .positional value => value.columns
  | .named name _ value => name.columns ++ value.columns
termination_by structural a => a

def Argument.columnsList : List Argument → List Reference
  | [] => []
  | a :: as => a.columns ++ Argument.columnsList as
termination_by structural as => as

/-- The columns in the value of an argument. -/
def ArgumentValue.columns : ArgumentValue → List Reference
  | .expr e => e.columns
  | .star => []
  | .starOf _ => []
termination_by structural v => v

def OrderItem.columns : OrderItem → List Reference
  | .mk e _ _ => e.columns
termination_by structural o => o

def OrderItem.columnsList : List OrderItem → List Reference
  | [] => []
  | o :: os => o.columns ++ OrderItem.columnsList os
termination_by structural os => os

def Window.columns : Window → List Reference
  | .absent => []
  | .named _ => []
  | .spec _ partitionBy orderBy frame =>
    Expr.columnsList partitionBy ++ OrderItem.columnsList orderBy ++ frame.columns
termination_by structural w => w

def Frame.columns : Frame → List Reference
  | .absent => []
  | .start _ first => first.columns
  | .span _ first last => first.columns ++ last.columns
termination_by structural f => f

def Bound.columns : Bound → List Reference
  | .currentRow => []
  | .preceding rows => Expr.columnsOption rows
  | .following rows => Expr.columnsOption rows
termination_by structural b => b

end

/-! ## Columns and scalar queries -/

/-- Whether scalar queries count inside an expression with one operand. -/
def UnaryForm.isOpen : UnaryForm → Bool
  | .parens | .braced | .sign _ | .factorial | .not | .isNull _ | .cast _ _ _ | .castSuffix _
  | .collate _ => true
  | _ => false

/-- Whether scalar queries count inside an expression with two operands. -/
def BinaryForm.isOpen : BinaryForm → Bool
  | .operator _ => true
  | .matching _ .like _ _ => true
  | .matching _ .ilike _ _ => true
  | _ => false

mutual

def Expr.references : Expr → List Reference
  | .column name => [.column none name.value]
  | .path parts => pathReference parts
  | .scalar query => [.scalar query]
  | .unary form operand => if form.isOpen then operand.references else operand.columns
  | .binary form left right =>
    if form.isOpen then left.references ++ right.references else left.columns ++ right.columns
  | .between _ e low high => e.references ++ low.references ++ high.references
  | .cases operand conditions results otherwise =>
    Expr.referencesOption operand ++ Expr.referencesList conditions ++
      Expr.referencesList results ++ Expr.referencesOption otherwise
  | .tuple items => Expr.referencesList items
  | .inList _ e items => e.references ++ Expr.referencesList items
  | .inQuery _ e _ => e.references
  | .existence _ _ => []
  | .call _ arguments filter _ window _ =>
    arguments.references ++ Expr.referencesOption filter ++ window.references
  | .rowOf _ => []
  | .literal _ => []
  | .substring _ e start length =>
    e.columns ++ Expr.columnsOption start ++ Expr.columnsOption length
  | .trim _ e characters => e.columns ++ Expr.columnsOption characters
  | .overlay e new start length =>
    e.columns ++ new.columns ++ start.columns ++ Expr.columnsOption length
  | .slice e lower upper stride =>
    e.columns ++ Expr.columnsOption lower ++ Expr.columnsOption upper ++ Expr.columnsOption stride
  | .array _ items => Expr.columnsList items
  | .grouping _ sets => Expr.columnsLists sets
termination_by structural e => e

def Expr.referencesList : List Expr → List Reference
  | [] => []
  | e :: es => e.references ++ Expr.referencesList es
termination_by structural es => es

/-- What an expression that may be absent reads. -/
def Expr.referencesOption : Option Expr → List Reference
  | none => []
  | some e => e.references
termination_by structural e => e

/-- What the arguments of a call read. The order and the bound in a list of arguments do not
count. -/
def Arguments.references : Arguments → List Reference
  | .absent => []
  | .query _ => []
  | .list _ items _ _ _ _ _ => Argument.referencesList items
termination_by structural a => a

def Argument.references : Argument → List Reference
  | .positional value => value.references
  | .named _ _ value => value.references
termination_by structural a => a

def Argument.referencesList : List Argument → List Reference
  | [] => []
  | a :: as => a.references ++ Argument.referencesList as
termination_by structural as => as

def ArgumentValue.references : ArgumentValue → List Reference
  | .expr e => e.references
  | .star => []
  | .starOf _ => []
termination_by structural v => v

def OrderItem.references : OrderItem → List Reference
  | .mk e _ _ => e.references
termination_by structural o => o

def OrderItem.referencesList : List OrderItem → List Reference
  | [] => []
  | o :: os => o.references ++ OrderItem.referencesList os
termination_by structural os => os

/-- What a window reads; its frame does not count. -/
def Window.references : Window → List Reference
  | .absent => []
  | .named _ => []
  | .spec _ partitionBy orderBy _ =>
    Expr.referencesList partitionBy ++ OrderItem.referencesList orderBy
termination_by structural w => w

end

/-- What an item of a select reads; a star reads nothing by itself. -/
def SelectItem.references : SelectItem → List Reference
  | .expr e _ => e.references
  | .star => []
  | .starOf _ => []

end ColumnLineage
