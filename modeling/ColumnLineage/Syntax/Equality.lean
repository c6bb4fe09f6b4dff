import ColumnLineage.Syntax.Statement

/-!
# Equality of trees

Whether two trees are the same, part by part. Names count with their quotes.
-/

namespace ColumnLineage

mutual

def Expr.same : Expr → Expr → Bool
  | .column a, e => match e with | .column b => a = b | _ => false
  | .path a, e => match e with | .path b => a = b | _ => false
  | .rowOf a, e => match e with | .rowOf b => a = b | _ => false
  | .literal a, e => match e with | .literal b => a = b | _ => false
  | .unary f a, e => match e with | .unary g b => f = g && a.same b | _ => false
  | .binary f a c, e => match e with | .binary g b d => f = g && a.same b && c.same d | _ => false
  | .between n a c x, e => match e with
    | .between m b d y => n = m && a.same b && c.same d && x.same y
    | _ => false
  | .substring s a c x, e => match e with
    | .substring t b d y => s = t && a.same b && Expr.sameOption c d && Expr.sameOption x y
    | _ => false
  | .trim s a c, e => match e with
    | .trim t b d => s = t && a.same b && Expr.sameOption c d
    | _ => false
  | .overlay a c x v, e => match e with
    | .overlay b d y w => a.same b && c.same d && x.same y && Expr.sameOption v w
    | _ => false
  | .cases a c x v, e => match e with
    | .cases b d y w =>
      Expr.sameOption a b && Expr.sameList c d && Expr.sameList x y && Expr.sameOption v w
    | _ => false
  | .tuple a, e => match e with | .tuple b => Expr.sameList a b | _ => false
  | .slice a c x v, e => match e with
    | .slice b d y w =>
      a.same b && Expr.sameOption c d && Expr.sameOption x y && Expr.sameOption v w
    | _ => false
  | .array n a, e => match e with | .array m b => n = m && Expr.sameList a b | _ => false
  | .grouping k a, e => match e with | .grouping l b => k = l && Expr.sameLists a b | _ => false
  | .inList n a c, e => match e with
    | .inList m b d => n = m && a.same b && Expr.sameList c d
    | _ => false
  | .inQuery n a c, e => match e with
    | .inQuery m b d => n = m && a.same b && c.same d
    | _ => false
  | .existence n a, e => match e with | .existence m b => n = m && a.same b | _ => false
  | .scalar a, e => match e with | .scalar b => a.same b | _ => false
  | .call n a f s o w, e => match e with
    | .call m b g t p v =>
      n = m && a.same b && Expr.sameOption f g && s = t && o.same p && OrderItem.sameList w v
    | _ => false
termination_by structural a => a

def Expr.sameList : List Expr → List Expr → Bool
  | [], [] => true
  | a :: as, b :: bs => a.same b && Expr.sameList as bs
  | _, _ => false
termination_by structural a => a

/-- Equality of lists of lists of expressions. -/
def Expr.sameLists : List (List Expr) → List (List Expr) → Bool
  | [], [] => true
  | a :: as, b :: bs => Expr.sameList a b && Expr.sameLists as bs
  | _, _ => false
termination_by structural a => a

/-- Equality of expressions that may be absent. -/
def Expr.sameOption : Option Expr → Option Expr → Bool
  | none, none => true
  | some a, some b => a.same b
  | _, _ => false
termination_by structural a => a

def Arguments.same : Arguments → Arguments → Bool
  | .absent, .absent => true
  | .query a, .query b => a.same b
  | .list d a o l v f n, .list e b p m w g k =>
    d = e && Argument.sameList a b && OrderItem.sameList o p && Expr.sameOption l m && v = w &&
      Expr.sameOption f g && n = k
  | _, _ => false
termination_by structural a => a

def Argument.same : Argument → Argument → Bool
  | .positional a, .positional b => a.same b
  | .named n s a, .named m t b => n.same m && s = t && a.same b
  | _, _ => false
termination_by structural a => a

def Argument.sameList : List Argument → List Argument → Bool
  | [], [] => true
  | a :: as, b :: bs => a.same b && Argument.sameList as bs
  | _, _ => false
termination_by structural a => a

def ArgumentValue.same : ArgumentValue → ArgumentValue → Bool
  | .expr a, .expr b => a.same b
  | .star, .star => true
  | .starOf a, .starOf b => a = b
  | _, _ => false
termination_by structural a => a

/-- Equality of `ORDER BY` items. -/
def OrderItem.same : OrderItem → OrderItem → Bool
  | .mk a s n, .mk b t m => a.same b && s = t && n = m
termination_by structural a => a

/-- Equality of lists of `ORDER BY` items. -/
def OrderItem.sameList : List OrderItem → List OrderItem → Bool
  | [], [] => true
  | a :: as, b :: bs => a.same b && OrderItem.sameList as bs
  | _, _ => false
termination_by structural a => a

def Window.same : Window → Window → Bool
  | .absent, .absent => true
  | .named a, .named b => a = b
  | .spec n a o f, .spec m b p g =>
    n = m && Expr.sameList a b && OrderItem.sameList o p && f.same g
  | _, _ => false
termination_by structural a => a

def Frame.same : Frame → Frame → Bool
  | .absent, .absent => true
  | .start u a, .start v b => u = v && a.same b
  | .span u a c, .span v b d => u = v && a.same b && c.same d
  | _, _ => false
termination_by structural a => a

def Bound.same : Bound → Bound → Bool
  | .currentRow, .currentRow => true
  | .preceding a, .preceding b => Expr.sameOption a b
  | .following a, .following b => Expr.sameOption a b
  | _, _ => false
termination_by structural a => a

def Query.same : Query → Query → Bool
  | ⟨r, c, b, o, l, s, w, f, k⟩, ⟨r', c', b', o', l', s', w', f', k'⟩ =>
    r = r' && Cte.sameList c c' && b.same b' && OrderItem.sameList o o' && Expr.sameOption l l' &&
      Expr.sameOption s s' && w = w' && f = f' && k = k'
termination_by structural a => a

def Cte.same : Cte → Cte → Bool
  | .mk a m q s, .mk b n r t => a = b && m = n && q.same r && s = t
termination_by structural a => a

def Cte.sameList : List Cte → List Cte → Bool
  | [], [] => true
  | a :: as, b :: bs => a.same b && Cte.sameList as bs
  | _, _ => false
termination_by structural a => a

def Body.same : Body → Body → Bool
  | .select a, .select b => a.same b
  | .parens a, .parens b => a.same b
  | .setOperation o q a c, .setOperation p r b d => o = p && q = r && a.same b && c.same d
  | .values r a, .values s b => r = s && Expr.sameLists a b
  | .defaultValues, .defaultValues => true
  | .table a, .table b => a = b
  | .insert a, .insert b => a.same b
  | .update a, .update b => a.same b
  | _, _ => false
termination_by structural a => a

def Insert.same : Insert → Insert → Bool
  | ⟨a, o, i, n, t, l, c, s, p, k, v, f, r⟩, ⟨a', o', i', n', t', l', c', s', p', k', v', f', r'⟩ =>
    a = a' && o = o' && i = i' && n = n' && t = t' && l = l' && c = c' && s.same s' &&
      Expr.sameList p p' && k = k' && Assignment.sameList v v' && Expr.sameOption f f' &&
      SelectItem.sameList r r'
termination_by structural a => a

def Assignment.same : Assignment → Assignment → Bool
  | .mk t a, .mk u b => t = u && a.same b
termination_by structural a => a

def Assignment.sameList : List Assignment → List Assignment → Bool
  | [], [] => true
  | a :: as, b :: bs => a.same b && Assignment.sameList as bs
  | _, _ => false
termination_by structural a => a

def Update.same : Update → Update → Bool
  | ⟨a, t, v, s, f, r⟩, ⟨a', t', v', s', f', r'⟩ =>
    a = a' && t.same t' && Assignment.sameList v v' && TableTree.sameList s s' &&
      Expr.sameOption f f' && SelectItem.sameList r r'
termination_by structural a => a

def Select.same : Select → Select → Bool
  | ⟨d, t, e, i, n, s, l, r, f, g, c, b, o, h, w, q, k⟩,
    ⟨d', t', e', i', n', s', l', r', f', g', c', b', o', h', w', q', k'⟩ =>
    d.same d' && t = t' && Expr.sameOption e e' && SelectItem.sameList i i' && n = n' &&
      TableTree.sameList s s' && l = l' && Expr.sameList r r' && Expr.sameOption f f' &&
      g.same g' && Expr.sameList c c' && Expr.sameList b b' && Expr.sameList o o' &&
      Expr.sameOption h h' && NamedWindow.sameList w w' && Expr.sameOption q q' && k = k'
termination_by structural a => a

/-- Equality of what is said about equal rows. -/
def Distinct.same : Distinct → Distinct → Bool
  | .unsaid, .unsaid => true
  | .rows, .rows => true
  | .on a, .on b => Expr.sameList a b
  | _, _ => false
termination_by structural a => a

def SelectItem.same : SelectItem → SelectItem → Bool
  | .expr a n, .expr b m => a.same b && n = m
  | .star, .star => true
  | .starOf a, .starOf b => a = b
  | _, _ => false
termination_by structural a => a

def SelectItem.sameList : List SelectItem → List SelectItem → Bool
  | [], [] => true
  | a :: as, b :: bs => a.same b && SelectItem.sameList as bs
  | _, _ => false
termination_by structural a => a

def GroupBy.same : GroupBy → GroupBy → Bool
  | .keys a, .keys b => Expr.sameList a b
  | .all, .all => true
  | _, _ => false
termination_by structural a => a

def NamedWindow.same : NamedWindow → NamedWindow → Bool
  | .mk n a, .mk m b => n = m && a.same b
termination_by structural a => a

def NamedWindow.sameList : List NamedWindow → List NamedWindow → Bool
  | [], [] => true
  | a :: as, b :: bs => a.same b && NamedWindow.sameList as bs
  | _, _ => false
termination_by structural a => a

def TableTree.same : TableTree → TableTree → Bool
  | .mk a j, .mk b k => a.same b && Join.sameList j k
termination_by structural a => a

def TableTree.sameList : List TableTree → List TableTree → Bool
  | [], [] => true
  | a :: as, b :: bs => a.same b && TableTree.sameList as bs
  | _, _ => false
termination_by structural a => a

def Join.same : Join → Join → Bool
  | .mk g k a m c, .mk h l b n d =>
    g = h && k = l && a.same b && Expr.sameOption m n && c.same d
termination_by structural a => a

def Join.sameList : List Join → List Join → Bool
  | [], [] => true
  | a :: as, b :: bs => a.same b && Join.sameList as bs
  | _, _ => false
termination_by structural a => a

def JoinCondition.same : JoinCondition → JoinCondition → Bool
  | .absent, .absent => true
  | .on a, .on b => a.same b
  | .using a, .using b => a = b
  | .natural, .natural => true
  | _, _ => false
termination_by structural a => a

def TableFactor.same : TableFactor → TableFactor → Bool
  | .table n o a h, .table m p b k => n = m && o = p && a = b && Expr.sameList h k
  | .tableFunction n x o a h, .tableFunction m y p b k =>
    n = m && Argument.sameList x y && o = p && a = b && Expr.sameList h k
  | .lateralFunction n x a, .lateralFunction m y b => n = m && Argument.sameList x y && a = b
  | .tableOf x a, .tableOf y b => x.same y && a = b
  | .unnest x o a s, .unnest y p b t => Expr.sameList x y && o = p && a = b && s = t
  | .derived l x a, .derived k y b => l = k && x.same y && a = b
  | .nested x a, .nested y b => x.same y && a = b
  | .document o x r a, .document p y s b => o = p && x.same y && r = s && a = b
  | .pivot x g c v o a, .pivot y h d w p b =>
    x.same y && SelectItem.sameList g h && c = d && v.same w && Expr.sameOption o p && a = b
  | .unpivot x v n c a, .unpivot y w m d b => x.same y && v = w && n = m && c = d && a = b
  | _, _ => false
termination_by structural a => a

/-- Equality of the values of `PIVOT` clauses. -/
def PivotValues.same : PivotValues → PivotValues → Bool
  | .list a, .list b => SelectItem.sameList a b
  | .any a, .any b => OrderItem.sameList a b
  | .query a, .query b => a.same b
  | _, _ => false
termination_by structural a => a

end

/-! ## Statements -/

/-- Equality of queries that may be absent. -/
def Query.sameOption : Option Query → Option Query → Bool
  | none, none => true
  | some a, some b => a.same b
  | _, _ => false

/-- Equality of `CREATE TABLE` statements. -/
def CreateTable.same (a b : CreateTable) : Bool :=
  a.orReplace = b.orReplace && a.external = b.external && a.isGlobal = b.isGlobal &&
    a.temporary = b.temporary && a.transient = b.transient && a.ifNotExists = b.ifNotExists &&
    a.name = b.name && a.cluster = b.cluster && a.columns = b.columns &&
    a.constraints = b.constraints && a.withoutRowid = b.withoutRowid && a.templates = b.templates &&
    a.clauses = b.clauses &&
    Query.sameOption a.query b.query

/-- Equality of `CREATE VIEW` statements. -/
def CreateView.same (a b : CreateView) : Bool :=
  a.orReplace = b.orReplace && a.temporary = b.temporary && a.materialized = b.materialized &&
    a.name = b.name && a.clusterBy = b.clusterBy && a.columns = b.columns &&
    a.options = b.options && a.query.same b.query

def Statement.same : Statement → Statement → Bool
  | .query a, .query b => a.same b
  | .createTable a, .createTable b => a.same b
  | .createView a, .createView b => a.same b
  | .insert a, .insert b => a.same b
  | .setVariable a, .setVariable b =>
    a.hivevar = b.hivevar && a.isLocal = b.isLocal && a.name = b.name &&
      Expr.sameList a.values b.values
  | .other a, .other b => a = b
  | _, _ => false

end ColumnLineage
