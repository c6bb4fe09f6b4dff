import ColumnLineage.Proofs.StarCalls

/-!
# The arguments of calls

`Expr.callArguments` lists the arguments of all calls in an expression, those of calls inside
arguments included, without entering queries. A change of arguments changes them one by one and
leaves everything else at its place.
-/

namespace ColumnLineage

/-! ## The lists -/

mutual

/-- The arguments of the calls in an expression. -/
def Expr.callArguments : Expr → List Argument
  | .column _ => []
  | .path _ => []
  | .rowOf _ => []
  | .literal _ => []
  | .unary _ operand => operand.callArguments
  | .binary _ left right => left.callArguments ++ right.callArguments
  | .between _ e low high => e.callArguments ++ low.callArguments ++ high.callArguments
  | .substring _ e start length =>
    e.callArguments ++ Expr.callArgumentsOption start ++ Expr.callArgumentsOption length
  | .trim _ e characters => e.callArguments ++ Expr.callArgumentsOption characters
  | .overlay e new start length =>
    e.callArguments ++ new.callArguments ++ start.callArguments ++ Expr.callArgumentsOption length
  | .cases operand conditions results otherwise =>
    Expr.callArgumentsOption operand ++ Expr.callArgumentsList conditions ++
      Expr.callArgumentsList results ++ Expr.callArgumentsOption otherwise
  | .tuple items => Expr.callArgumentsList items
  | .slice e lower upper stride =>
    e.callArguments ++ Expr.callArgumentsOption lower ++ Expr.callArgumentsOption upper ++
      Expr.callArgumentsOption stride
  | .array _ items => Expr.callArgumentsList items
  | .grouping _ sets => Expr.callArgumentsLists sets
  | .inList _ e items => e.callArguments ++ Expr.callArgumentsList items
  | .inQuery _ e _ => e.callArguments
  | .existence _ _ => []
  | .scalar _ => []
  | .call _ arguments filter _ window withinGroup =>
    arguments.callArguments ++ Expr.callArgumentsOption filter ++ window.callArguments ++
      OrderItem.callArgumentsList withinGroup
termination_by structural e => e

/-- The arguments of the calls in expressions. -/
def Expr.callArgumentsList : List Expr → List Argument
  | [] => []
  | e :: es => e.callArguments ++ Expr.callArgumentsList es
termination_by structural es => es

/-- The arguments of the calls in lists of expressions. -/
def Expr.callArgumentsLists : List (List Expr) → List Argument
  | [] => []
  | es :: ess => Expr.callArgumentsList es ++ Expr.callArgumentsLists ess
termination_by structural ess => ess

/-- The arguments of the calls in an expression that may be absent. -/
def Expr.callArgumentsOption : Option Expr → List Argument
  | none => []
  | some e => e.callArguments
termination_by structural e => e

/-- The arguments of a call and those of the calls inside them. -/
def Arguments.callArguments : Arguments → List Argument
  | .absent => []
  | .query _ => []
  | .list _ items orderBy limit _ filler _ =>
    items ++ Argument.callArgumentsList items ++ OrderItem.callArgumentsList orderBy ++
      Expr.callArgumentsOption limit ++ Expr.callArgumentsOption filler
termination_by structural a => a

/-- The arguments of the calls inside an argument. -/
def Argument.callArguments : Argument → List Argument
  | .positional value => value.callArguments
  | .named name _ value => name.callArguments ++ value.callArguments
termination_by structural a => a

/-- The arguments of the calls inside arguments. -/
def Argument.callArgumentsList : List Argument → List Argument
  | [] => []
  | a :: as => a.callArguments ++ Argument.callArgumentsList as
termination_by structural as => as

/-- The arguments of the calls inside an argument's value. -/
def ArgumentValue.callArguments : ArgumentValue → List Argument
  | .expr e => e.callArguments
  | .star => []
  | .starOf _ => []
termination_by structural v => v

/-- The arguments of the calls in an item of an order. -/
def OrderItem.callArguments : OrderItem → List Argument
  | .mk e _ _ => e.callArguments
termination_by structural o => o

/-- The arguments of the calls in an order. -/
def OrderItem.callArgumentsList : List OrderItem → List Argument
  | [] => []
  | o :: os => o.callArguments ++ OrderItem.callArgumentsList os
termination_by structural os => os

/-- The arguments of the calls in a window. -/
def Window.callArguments : Window → List Argument
  | .absent => []
  | .named _ => []
  | .spec _ partitionBy orderBy frame =>
    Expr.callArgumentsList partitionBy ++ OrderItem.callArgumentsList orderBy ++ frame.callArguments
termination_by structural w => w

/-- The arguments of the calls in a frame. -/
def Frame.callArguments : Frame → List Argument
  | .absent => []
  | .start _ first => first.callArguments
  | .span _ first last => first.callArguments ++ last.callArguments
termination_by structural x => x

/-- The arguments of the calls in a bound. -/
def Bound.callArguments : Bound → List Argument
  | .currentRow => []
  | .preceding rows => Expr.callArgumentsOption rows
  | .following rows => Expr.callArgumentsOption rows
termination_by structural b => b

end

/-- The arguments of the calls in an item of a select. -/
def SelectItem.callArguments : SelectItem → List Argument
  | .expr e _ => e.callArguments
  | .star => []
  | .starOf _ => []

/-- The arguments of the calls in the items of a select. -/
def Select.callArguments (s : Select) : List Argument :=
  s.items.flatMap SelectItem.callArguments

/-! ## A change of arguments -/

/-- A change of arguments keeps the calls inside each of them. -/
def KeepsCalls (f : Argument → Argument) : Prop :=
  ∀ a, (f a).callArguments = a.callArguments

/-- What becomes of an argument: first those inside it are changed. -/
def Argument.changed (f : Argument → Argument) (a : Argument) : Argument :=
  f (a.mapArguments f)

variable {f : Argument → Argument}

section expressions

theorem Argument.map_mapArgumentsList (items : List Argument) :
    (Argument.mapArgumentsList f items).map f = items.map (Argument.changed f) := by
  induction items with
  | nil => rfl
  | cons a rest ih => exact congrArg (_ :: ·) ih

theorem Argument.callArgumentsList_map (hf : KeepsCalls f) (items : List Argument) :
    Argument.callArgumentsList (items.map f) = Argument.callArgumentsList items := by
  induction items with
  | nil => rfl
  | cons a rest ih =>
    change (f a).callArguments ++ Argument.callArgumentsList (rest.map f) =
      a.callArguments ++ Argument.callArgumentsList rest
    rw [hf a, ih]

mutual

theorem Expr.callArguments_mapArguments (hf : KeepsCalls f) : (e : Expr) →
    (e.mapArguments f).callArguments = e.callArguments.map (Argument.changed f)
  | .column _ => rfl
  | .path _ => rfl
  | .rowOf _ => rfl
  | .literal _ => rfl
  | .unary _ operand => operand.callArguments_mapArguments hf
  | .binary _ left right =>
      append_eq_map (left.callArguments_mapArguments hf) (right.callArguments_mapArguments hf)
  | .between _ e low high =>
      append_eq_map (append_eq_map (e.callArguments_mapArguments hf)
        (low.callArguments_mapArguments hf)) (high.callArguments_mapArguments hf)
  | .substring _ e start length =>
      append_eq_map (append_eq_map (e.callArguments_mapArguments hf)
        (Expr.callArgumentsOption_mapArguments hf start))
        (Expr.callArgumentsOption_mapArguments hf length)
  | .trim _ e characters =>
      append_eq_map (e.callArguments_mapArguments hf)
        (Expr.callArgumentsOption_mapArguments hf characters)
  | .overlay e new start length =>
      append_eq_map (append_eq_map (append_eq_map (e.callArguments_mapArguments hf)
        (new.callArguments_mapArguments hf)) (start.callArguments_mapArguments hf))
        (Expr.callArgumentsOption_mapArguments hf length)
  | .cases operand conditions results otherwise =>
      append_eq_map (append_eq_map (append_eq_map
        (Expr.callArgumentsOption_mapArguments hf operand)
        (Expr.callArgumentsList_mapArguments hf conditions))
        (Expr.callArgumentsList_mapArguments hf results))
        (Expr.callArgumentsOption_mapArguments hf otherwise)
  | .tuple items => Expr.callArgumentsList_mapArguments hf items
  | .slice e lower upper stride =>
      append_eq_map (append_eq_map (append_eq_map (e.callArguments_mapArguments hf)
        (Expr.callArgumentsOption_mapArguments hf lower))
        (Expr.callArgumentsOption_mapArguments hf upper))
        (Expr.callArgumentsOption_mapArguments hf stride)
  | .array _ items => Expr.callArgumentsList_mapArguments hf items
  | .grouping _ sets => Expr.callArgumentsLists_mapArguments hf sets
  | .inList _ e items =>
      append_eq_map (e.callArguments_mapArguments hf) (Expr.callArgumentsList_mapArguments hf items)
  | .inQuery _ e _ => e.callArguments_mapArguments hf
  | .existence _ _ => rfl
  | .scalar _ => rfl
  | .call _ arguments filter _ window withinGroup =>
      append_eq_map (append_eq_map (append_eq_map (arguments.callArguments_mapArguments hf)
        (Expr.callArgumentsOption_mapArguments hf filter)) (window.callArguments_mapArguments hf))
        (OrderItem.callArgumentsList_mapArguments hf withinGroup)

theorem Expr.callArgumentsList_mapArguments (hf : KeepsCalls f) : (es : List Expr) →
    Expr.callArgumentsList (Expr.mapArgumentsList f es) =
      (Expr.callArgumentsList es).map (Argument.changed f)
  | [] => rfl
  | e :: es =>
      append_eq_map (e.callArguments_mapArguments hf) (Expr.callArgumentsList_mapArguments hf es)

theorem Expr.callArgumentsLists_mapArguments (hf : KeepsCalls f) : (ess : List (List Expr)) →
    Expr.callArgumentsLists (Expr.mapArgumentsLists f ess) =
      (Expr.callArgumentsLists ess).map (Argument.changed f)
  | [] => rfl
  | es :: ess =>
      append_eq_map (Expr.callArgumentsList_mapArguments hf es)
        (Expr.callArgumentsLists_mapArguments hf ess)

theorem Expr.callArgumentsOption_mapArguments (hf : KeepsCalls f) : (e : Option Expr) →
    Expr.callArgumentsOption (Expr.mapArgumentsOption f e) =
      (Expr.callArgumentsOption e).map (Argument.changed f)
  | none => rfl
  | some e => e.callArguments_mapArguments hf

theorem Arguments.callArguments_mapArguments (hf : KeepsCalls f) : (a : Arguments) →
    (a.mapArguments f).callArguments = a.callArguments.map (Argument.changed f)
  | .absent => rfl
  | .query _ => rfl
  | .list _ items orderBy limit _ filler _ => by
      have hinner : Argument.callArgumentsList ((Argument.mapArgumentsList f items).map f) =
          (Argument.callArgumentsList items).map (Argument.changed f) := by
        rw [Argument.callArgumentsList_map hf, Argument.callArgumentsList_mapArguments hf items]
      exact append_eq_map (append_eq_map (append_eq_map
        (append_eq_map (Argument.map_mapArgumentsList items) hinner)
        (OrderItem.callArgumentsList_mapArguments hf orderBy))
        (Expr.callArgumentsOption_mapArguments hf limit))
        (Expr.callArgumentsOption_mapArguments hf filler)

theorem Argument.callArguments_mapArguments (hf : KeepsCalls f) : (a : Argument) →
    (a.mapArguments f).callArguments = a.callArguments.map (Argument.changed f)
  | .positional value => value.callArguments_mapArguments hf
  | .named name _ value =>
      append_eq_map (name.callArguments_mapArguments hf) (value.callArguments_mapArguments hf)

theorem Argument.callArgumentsList_mapArguments (hf : KeepsCalls f) : (as : List Argument) →
    Argument.callArgumentsList (Argument.mapArgumentsList f as) =
      (Argument.callArgumentsList as).map (Argument.changed f)
  | [] => rfl
  | a :: as =>
      append_eq_map (a.callArguments_mapArguments hf)
        (Argument.callArgumentsList_mapArguments hf as)

theorem ArgumentValue.callArguments_mapArguments (hf : KeepsCalls f) : (v : ArgumentValue) →
    (v.mapArguments f).callArguments = v.callArguments.map (Argument.changed f)
  | .expr e => e.callArguments_mapArguments hf
  | .star => rfl
  | .starOf _ => rfl

theorem OrderItem.callArguments_mapArguments (hf : KeepsCalls f) : (o : OrderItem) →
    (o.mapArguments f).callArguments = o.callArguments.map (Argument.changed f)
  | .mk e _ _ => e.callArguments_mapArguments hf

theorem OrderItem.callArgumentsList_mapArguments (hf : KeepsCalls f) : (os : List OrderItem) →
    OrderItem.callArgumentsList (OrderItem.mapArgumentsList f os) =
      (OrderItem.callArgumentsList os).map (Argument.changed f)
  | [] => rfl
  | o :: os =>
      append_eq_map (o.callArguments_mapArguments hf)
        (OrderItem.callArgumentsList_mapArguments hf os)

theorem Window.callArguments_mapArguments (hf : KeepsCalls f) : (w : Window) →
    (w.mapArguments f).callArguments = w.callArguments.map (Argument.changed f)
  | .absent => rfl
  | .named _ => rfl
  | .spec _ partitionBy orderBy frame =>
      append_eq_map (append_eq_map (Expr.callArgumentsList_mapArguments hf partitionBy)
        (OrderItem.callArgumentsList_mapArguments hf orderBy)) (frame.callArguments_mapArguments hf)

theorem Frame.callArguments_mapArguments (hf : KeepsCalls f) : (x : Frame) →
    (x.mapArguments f).callArguments = x.callArguments.map (Argument.changed f)
  | .absent => rfl
  | .start _ first => first.callArguments_mapArguments hf
  | .span _ first last =>
      append_eq_map (first.callArguments_mapArguments hf) (last.callArguments_mapArguments hf)

theorem Bound.callArguments_mapArguments (hf : KeepsCalls f) : (b : Bound) →
    (b.mapArguments f).callArguments = b.callArguments.map (Argument.changed f)
  | .currentRow => rfl
  | .preceding rows => Expr.callArgumentsOption_mapArguments hf rows
  | .following rows => Expr.callArgumentsOption_mapArguments hf rows

end

end expressions

/-- The arguments in the items of a select are changed one by one. -/
theorem Select.callArguments_mapArguments (hf : KeepsCalls f) (s : Select) :
    (s.mapArguments f).callArguments = s.callArguments.map (Argument.changed f) := by
  obtain ⟨distinct, top, topCount, items, into, sources, lateralViews, lateralRows, filter, groupBy,
    clusterBy, distributeBy, sortBy, having, windows, windowFilter, windowsFirst⟩ := s
  change (SelectItem.mapArgumentsList f items).flatMap SelectItem.callArguments =
    (items.flatMap SelectItem.callArguments).map (Argument.changed f)
  induction items with
  | nil => rfl
  | cons i rest ih =>
    have hitem : (i.mapArguments f).callArguments =
        i.callArguments.map (Argument.changed f) := by
      cases i with
      | expr e label => exact e.callArguments_mapArguments hf
      | star => rfl
      | starOf name => rfl
    exact append_eq_map hitem ih

/-! ## Queries and selects -/

section queries

mutual

theorem TableTree.factors_mapArguments : (t : TableTree) →
    (t.mapArguments f).factors = t.factors.map (TableFactor.mapArguments f)
  | .mk first joins =>
      append_eq_map first.factors_mapArguments (Join.factorsList_mapArguments joins)

theorem Join.factorsList_mapArguments : (js : List Join) →
    Join.factorsList (Join.mapArgumentsList f js) =
      (Join.factorsList js).map (TableFactor.mapArguments f)
  | [] => rfl
  | j :: js => append_eq_map j.factors_mapArguments (Join.factorsList_mapArguments js)

theorem Join.factors_mapArguments : (j : Join) →
    (j.mapArguments f).factors = j.factors.map (TableFactor.mapArguments f)
  | .mk _ _ factor _ _ => factor.factors_mapArguments

theorem TableFactor.factors_mapArguments : (x : TableFactor) →
    (x.mapArguments f).factors = x.factors.map (TableFactor.mapArguments f)
  | .nested tables _ => tables.factors_mapArguments
  | .table _ _ _ _ => rfl
  | .tableFunction _ _ _ _ _ => rfl
  | .lateralFunction _ _ _ => rfl
  | .tableOf _ _ => rfl
  | .unnest _ _ _ _ => rfl
  | .derived _ _ _ => rfl
  | .document _ _ _ _ => rfl
  | .pivot _ _ _ _ _ _ => rfl
  | .unpivot _ _ _ _ _ => rfl

end

mutual

theorem TableTree.conditionQueries_mapArguments (hf : KeepsQueries f) : (t : TableTree) →
    Atom.queries (t.mapArguments f).conditionAtoms = Atom.changedQueries f t.conditionAtoms
  | .mk first joins =>
      Atom.changed_append (first.conditionQueries_mapArguments hf)
        (Join.conditionQueriesList_mapArguments hf joins)

theorem Join.conditionQueriesList_mapArguments (hf : KeepsQueries f) : (js : List Join) →
    Atom.queries (Join.conditionAtomsList (Join.mapArgumentsList f js)) =
      Atom.changedQueries f (Join.conditionAtomsList js)
  | [] => rfl
  | j :: js =>
      Atom.changed_append (j.conditionQueries_mapArguments hf)
        (Join.conditionQueriesList_mapArguments hf js)

theorem Join.conditionQueries_mapArguments (hf : KeepsQueries f) : (j : Join) →
    Atom.queries (j.mapArguments f).conditionAtoms = Atom.changedQueries f j.conditionAtoms
  | .mk _ _ factor _ condition =>
      Atom.changed_append (factor.conditionQueries_mapArguments hf)
        (condition.queries_mapArguments hf)

theorem TableFactor.conditionQueries_mapArguments (hf : KeepsQueries f) : (x : TableFactor) →
    Atom.queries (x.mapArguments f).conditionAtoms = Atom.changedQueries f x.conditionAtoms
  | .nested tables _ => tables.conditionQueries_mapArguments hf
  | .table _ _ _ _ => rfl
  | .tableFunction _ _ _ _ _ => rfl
  | .lateralFunction _ _ _ => rfl
  | .tableOf _ _ => rfl
  | .unnest _ _ _ _ => rfl
  | .derived _ _ _ => rfl
  | .document _ _ _ _ => rfl
  | .pivot _ _ _ _ _ _ => rfl
  | .unpivot _ _ _ _ _ => rfl

end

theorem TableFactor.query?_mapArguments (x : TableFactor) :
    (x.mapArguments f).query? = x.query?.map (Query.mapArguments f) := by
  cases x <;> rfl

theorem Select.factors_mapArguments (s : Select) :
    (s.mapArguments f).factors = s.factors.map (TableFactor.mapArguments f) := by
  obtain ⟨distinct, top, topCount, items, into, sources, lateralViews, lateralRows, filter, groupBy,
    clusterBy, distributeBy, sortBy, having, windows, windowFilter, windowsFirst⟩ := s
  change (TableTree.mapArgumentsList f sources).flatMap TableTree.factors =
    (sources.flatMap TableTree.factors).map (TableFactor.mapArguments f)
  induction sources with
  | nil => rfl
  | cons t rest ih => exact append_eq_map t.factors_mapArguments ih

theorem Select.conditionQueries_mapArguments (hf : KeepsQueries f) (sources : List TableTree) :
    Atom.queries ((TableTree.mapArgumentsList f sources).flatMap TableTree.conditionAtoms) =
      Atom.changedQueries f (sources.flatMap TableTree.conditionAtoms) := by
  induction sources with
  | nil => rfl
  | cons t rest ih => exact Atom.changed_append (t.conditionQueries_mapArguments hf) ih

theorem Select.queries_mapArguments (hf : KeepsQueries f) (s : Select) :
    (s.mapArguments f).queries = s.queries.map (Query.mapArguments f) := by
  have hfactors : (s.mapArguments f).factors.filterMap TableFactor.query? =
      (s.factors.filterMap TableFactor.query?).map (Query.mapArguments f) := by
    rw [s.factors_mapArguments, List.filterMap_map, List.map_filterMap]
    congr 1
    funext x
    exact x.query?_mapArguments
  rw [Select.queries, hfactors, Select.queries, List.map_append]
  congr 1
  obtain ⟨distinct, top, topCount, items, into, sources, lateralViews, lateralRows, filter, groupBy,
    clusterBy, distributeBy, sortBy, having, windows, windowFilter, windowsFirst⟩ := s
  refine append_eq_map (SelectItem.queries_mapArguments hf items) ?_
  refine append_eq_map (Select.conditionQueries_mapArguments hf sources) ?_
  refine append_eq_map (distinct.queries_mapArguments hf) ?_
  refine append_eq_map (Expr.queries_mapArgumentsOption hf filter) ?_
  refine append_eq_map (groupBy.queries_mapArguments hf) ?_
  exact append_eq_map (Expr.queries_mapArgumentsOption hf having) rfl

theorem Body.queries_mapArguments (hf : KeepsQueries f) : (b : Body) →
    (b.mapArguments f).queries = b.queries.map (Query.mapArguments f)
  | .select s => s.queries_mapArguments hf
  | .parens _ => rfl
  | .setOperation _ _ left right =>
      append_eq_map (left.queries_mapArguments hf) (right.queries_mapArguments hf)
  | .values _ _ => rfl
  | .defaultValues => rfl
  | .table _ => rfl
  | .insert _ => rfl
  | .update _ => rfl

theorem Body.selects_mapArguments : (b : Body) →
    (b.mapArguments f).selects = b.selects.map (Select.mapArguments f)
  | .select _ => rfl
  | .parens _ => rfl
  | .setOperation _ _ left right =>
      append_eq_map left.selects_mapArguments right.selects_mapArguments
  | .values _ _ => rfl
  | .defaultValues => rfl
  | .table _ => rfl
  | .insert _ => rfl
  | .update _ => rfl

theorem Query.body_mapArguments (q : Query) :
    (q.mapArguments f).body = q.body.mapArguments f := by
  cases q
  rfl

theorem Query.queries_mapArguments (hf : KeepsQueries f) (q : Query) :
    (q.mapArguments f).queries = q.queries.map (Query.mapArguments f) := by
  obtain ⟨isRecursive, ctes, body, orderBy, limit, offset, offsetWord, fetch, locks⟩ := q
  have hctes : (Cte.mapArgumentsList f ctes).map Cte.query =
      (ctes.map Cte.query).map (Query.mapArguments f) := by
    induction ctes with
    | nil => rfl
    | cons c rest ih =>
      obtain ⟨label, materialized, query, source⟩ := c
      exact congrArg (_ :: ·) ih
  exact append_eq_map hctes (append_eq_map (body.queries_mapArguments hf)
    (OrderItem.queries_mapArgumentsList hf orderBy))

end queries

/-! ## Places -/

section places

variable {x : Qualifier} {v : Visible}

mutual

theorem TableTree.length_starts : (t : TableTree) → (scope : Scope) →
    (t.starts x v scope).length = t.factors.length
  | .mk first joins, _ => by
      rw [TableTree.starts, TableTree.factors, List.length_append, List.length_append,
        first.length_starts, Join.length_startsList joins]

theorem Join.length_startsList : (js : List Join) → {start : Nat} → (scope : Scope) →
    (Join.startsList x v start scope js).length = (Join.factorsList js).length
  | [], _, _ => rfl
  | j :: js, _, _ => by
      rw [Join.startsList, Join.factorsList, List.length_append, List.length_append,
        j.length_starts, Join.length_startsList js]

theorem Join.length_starts : (j : Join) → (scope : Scope) →
    (j.starts x v scope).length = j.factors.length
  | .mk _ _ factor _ _, scope => factor.length_starts scope

theorem TableFactor.length_starts : (factor : TableFactor) → (scope : Scope) →
    (factor.starts x v scope).length = factor.factors.length
  | .nested tables _, scope => tables.length_starts scope
  | .table _ _ _ _, _ => rfl
  | .tableFunction _ _ _ _ _, _ => rfl
  | .lateralFunction _ _ _, _ => rfl
  | .tableOf _ _, _ => rfl
  | .unnest _ _ _ _, _ => rfl
  | .derived _ _ _, _ => rfl
  | .document _ _ _ _, _ => rfl
  | .pivot _ _ _ _ _ _, _ => rfl
  | .unpivot _ _ _ _ _, _ => rfl

end

theorem TableTree.length_startsList : (ts : List TableTree) → (scope : Scope) →
    (TableTree.startsList x v scope ts).length = (ts.flatMap TableTree.factors).length
  | [], _ => rfl
  | t :: ts, _ => by
      rw [TableTree.startsList, List.flatMap_cons, List.length_append, List.length_append,
        t.length_starts, TableTree.length_startsList ts]

theorem reduceOption_nested? : (factors : List TableFactor) → {starts : List Scope} →
    starts.length = factors.length →
      (List.zipWith (TableFactor.nested? v) starts factors).reduceOption.map Prod.snd =
        factors.filterMap TableFactor.query?
  | [], [], _ => rfl
  | factor :: factors, start :: starts, h => by
      have hrest := reduceOption_nested? factors (Nat.succ.inj h)
      rw [List.zipWith_cons_cons, List.filterMap_cons]
      cases factor with
      | derived lateral query label => exact congrArg (query :: ·) hrest
      | _ => exact hrest

theorem Body.map_snd_nested : (b : Body) → (b.nested x v).map Prod.snd = b.queries
  | .select s => by
      rw [Body.nested, Body.queries, Select.nested, Select.queries, List.map_append, map_snd_seen,
        reduceOption_nested? s.factors (TableTree.length_startsList s.sources {})]
  | .parens _ => rfl
  | .setOperation _ _ left right => by
      rw [Body.nested, Body.queries, List.map_append, left.map_snd_nested, right.map_snd_nested]
  | .values _ _ => rfl
  | .defaultValues => rfl
  | .table _ => rfl
  | .insert _ => rfl
  | .update _ => rfl

/-- No query inside a query is left out, even if not all of them can be qualified. -/
theorem Query.map_snd_nested (q : Query) : (q.nested x v).map Prod.snd = q.queries := by
  rw [Query.nested, Query.queries, List.map_append, List.map_append, Cte.nestedList_queries,
    q.body.map_snd_nested, map_snd_seen]

/-- Whatever stands in a query, its changed form stands at the same place in the changed query. -/
theorem Qualifier.Run.eq_mapArguments (hf : KeepsQueries f) {root q q' : Query}
    (h : x.Run root (root.mapArguments f) v q q') : q' = q.mapArguments f := by
  induction h with
  | root => rfl
  | @nested v w q q' r r' i _ h₀ hr ih =>
    have hplace : q.queries[i]? = some r := by
      rw [← q.map_snd_nested (x := x) (v := v), List.getElem?_map, h₀]
      rfl
    rw [ih, q.queries_mapArguments hf, List.getElem?_map, hplace] at hr
    exact (Option.some.inj hr).symm

end places

end ColumnLineage
