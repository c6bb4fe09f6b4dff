import ColumnLineage.Lineage.Stars
import ColumnLineage.Proofs.Standing

/-!
# Stars in calls and the tables of a query

Before a query is qualified, parentheses around it go and the stars in its calls give way to tuples
of columns. Neither touches a table: a change of arguments that keeps the queries in each argument
keeps all that stands in a query.
-/

namespace ColumnLineage

/-- A change of arguments keeps the queries in each of them. -/
def KeepsQueries (f : Argument → Argument) : Prop :=
  ∀ a, Atom.queries (f a).atoms = Atom.queries a.atoms

variable {f : Argument → Argument}

theorem append_eq_map {α β : Type} {g : α → β} {xs ys : List α} {xs' ys' : List β}
    (h : xs' = xs.map g) (h' : ys' = ys.map g) : xs' ++ ys' = (xs ++ ys).map g := by
  rw [List.map_append, h, h']

/-! ## Expressions -/

section expressions

/-- The queries among atoms after a change of arguments. -/
def Atom.changedQueries (f : Argument → Argument) (atoms : List Atom) : List Query :=
  (Atom.queries atoms).map (Query.mapArguments f)

@[simp] theorem changedQueries_append (as bs : List Atom) :
    Atom.changedQueries f (as ++ bs) = Atom.changedQueries f as ++ Atom.changedQueries f bs := by
  unfold Atom.changedQueries
  rw [Atom.queries_append, List.map_append]

theorem Atom.changed_append {as as' bs bs' : List Atom}
    (h : Atom.queries as' = Atom.changedQueries f as)
    (h' : Atom.queries bs' = Atom.changedQueries f bs) :
    Atom.queries (as' ++ bs') = Atom.changedQueries f (as ++ bs) := by
  rw [Atom.queries_append, changedQueries_append, h, h']

theorem Argument.queries_map (hf : KeepsQueries f) (items : List Argument) :
    Atom.queries (Argument.atomsList (items.map f)) = Atom.queries (Argument.atomsList items) := by
  induction items with
  | nil => rfl
  | cons a rest ih =>
    rw [List.map_cons, Argument.atomsList, Argument.atomsList, Atom.queries_append,
      Atom.queries_append, hf a, ih]

mutual

theorem Expr.queries_mapArguments (hf : KeepsQueries f) : (e : Expr) →
    Atom.queries (e.mapArguments f).atoms = Atom.changedQueries f e.atoms
  | .column _ => rfl
  | .path _ => rfl
  | .rowOf _ => rfl
  | .literal _ => rfl
  | .unary _ operand => operand.queries_mapArguments hf
  | .binary _ left right =>
      Atom.changed_append (left.queries_mapArguments hf) (right.queries_mapArguments hf)
  | .between _ e low high =>
      Atom.changed_append (Atom.changed_append (e.queries_mapArguments hf)
        (low.queries_mapArguments hf)) (high.queries_mapArguments hf)
  | .substring _ e start length =>
      Atom.changed_append (Atom.changed_append (e.queries_mapArguments hf)
        (Expr.queries_mapArgumentsOption hf start)) (Expr.queries_mapArgumentsOption hf length)
  | .trim _ e characters =>
      Atom.changed_append (e.queries_mapArguments hf)
        (Expr.queries_mapArgumentsOption hf characters)
  | .overlay e new start length =>
      Atom.changed_append (Atom.changed_append (Atom.changed_append (e.queries_mapArguments hf)
        (new.queries_mapArguments hf)) (start.queries_mapArguments hf))
        (Expr.queries_mapArgumentsOption hf length)
  | .cases operand conditions results otherwise =>
      Atom.changed_append (Atom.changed_append (Atom.changed_append
        (Expr.queries_mapArgumentsOption hf operand) (Expr.queries_mapArgumentsList hf conditions))
        (Expr.queries_mapArgumentsList hf results)) (Expr.queries_mapArgumentsOption hf otherwise)
  | .tuple items => Expr.queries_mapArgumentsList hf items
  | .slice e lower upper stride =>
      Atom.changed_append (Atom.changed_append (Atom.changed_append (e.queries_mapArguments hf)
        (Expr.queries_mapArgumentsOption hf lower)) (Expr.queries_mapArgumentsOption hf upper))
        (Expr.queries_mapArgumentsOption hf stride)
  | .array _ items => Expr.queries_mapArgumentsList hf items
  | .grouping _ sets => Expr.queries_mapArgumentsLists hf sets
  | .inList _ e items =>
      Atom.changed_append (e.queries_mapArguments hf) (Expr.queries_mapArgumentsList hf items)
  | .inQuery _ e _ =>
      Atom.changed_append (e.queries_mapArguments hf) (rfl : Atom.queries [.query _] = _)
  | .existence _ _ => rfl
  | .scalar _ => rfl
  | .call _ arguments filter _ window withinGroup =>
      Atom.changed_append (Atom.changed_append (Atom.changed_append
        (arguments.queries_mapArguments hf) (Expr.queries_mapArgumentsOption hf filter))
        (window.queries_mapArguments hf)) (OrderItem.queries_mapArgumentsList hf withinGroup)

theorem Expr.queries_mapArgumentsList (hf : KeepsQueries f) : (es : List Expr) →
    Atom.queries (Expr.atomsList (Expr.mapArgumentsList f es)) =
      Atom.changedQueries f (Expr.atomsList es)
  | [] => rfl
  | e :: es =>
      Atom.changed_append (e.queries_mapArguments hf) (Expr.queries_mapArgumentsList hf es)

theorem Expr.queries_mapArgumentsLists (hf : KeepsQueries f) : (ess : List (List Expr)) →
    Atom.queries (Expr.atomsLists (Expr.mapArgumentsLists f ess)) =
      Atom.changedQueries f (Expr.atomsLists ess)
  | [] => rfl
  | es :: ess =>
      Atom.changed_append (Expr.queries_mapArgumentsList hf es)
        (Expr.queries_mapArgumentsLists hf ess)

theorem Expr.queries_mapArgumentsOption (hf : KeepsQueries f) : (e : Option Expr) →
    Atom.queries (Expr.atomsOption (Expr.mapArgumentsOption f e)) =
      Atom.changedQueries f (Expr.atomsOption e)
  | none => rfl
  | some e => e.queries_mapArguments hf

theorem Arguments.queries_mapArguments (hf : KeepsQueries f) : (a : Arguments) →
    Atom.queries (a.mapArguments f).atoms = Atom.changedQueries f a.atoms
  | .absent => rfl
  | .query _ => rfl
  | .list _ items orderBy limit _ filler _ => by
      have hitems : Atom.queries (Argument.atomsList ((Argument.mapArgumentsList f items).map f)) =
          Atom.changedQueries f (Argument.atomsList items) := by
        rw [Argument.queries_map hf, Argument.queries_mapArgumentsList hf items]
      exact Atom.changed_append (Atom.changed_append (Atom.changed_append hitems
        (OrderItem.queries_mapArgumentsList hf orderBy)) (Expr.queries_mapArgumentsOption hf limit))
        (Expr.queries_mapArgumentsOption hf filler)

theorem Argument.queries_mapArguments (hf : KeepsQueries f) : (a : Argument) →
    Atom.queries (a.mapArguments f).atoms = Atom.changedQueries f a.atoms
  | .positional value => value.queries_mapArguments hf
  | .named name _ value =>
      Atom.changed_append (name.queries_mapArguments hf) (value.queries_mapArguments hf)

theorem Argument.queries_mapArgumentsList (hf : KeepsQueries f) : (as : List Argument) →
    Atom.queries (Argument.atomsList (Argument.mapArgumentsList f as)) =
      Atom.changedQueries f (Argument.atomsList as)
  | [] => rfl
  | a :: as =>
      Atom.changed_append (a.queries_mapArguments hf) (Argument.queries_mapArgumentsList hf as)

theorem ArgumentValue.queries_mapArguments (hf : KeepsQueries f) : (v : ArgumentValue) →
    Atom.queries (v.mapArguments f).atoms = Atom.changedQueries f v.atoms
  | .expr e => e.queries_mapArguments hf
  | .star => rfl
  | .starOf _ => rfl

theorem OrderItem.queries_mapArguments (hf : KeepsQueries f) : (o : OrderItem) →
    Atom.queries (o.mapArguments f).atoms = Atom.changedQueries f o.atoms
  | .mk e _ _ => e.queries_mapArguments hf

theorem OrderItem.queries_mapArgumentsList (hf : KeepsQueries f) : (os : List OrderItem) →
    Atom.queries (OrderItem.atomsList (OrderItem.mapArgumentsList f os)) =
      Atom.changedQueries f (OrderItem.atomsList os)
  | [] => rfl
  | o :: os =>
      Atom.changed_append (o.queries_mapArguments hf) (OrderItem.queries_mapArgumentsList hf os)

theorem Window.queries_mapArguments (hf : KeepsQueries f) : (w : Window) →
    Atom.queries (w.mapArguments f).atoms = Atom.changedQueries f w.atoms
  | .absent => rfl
  | .named _ => rfl
  | .spec _ partitionBy orderBy frame =>
      Atom.changed_append (Atom.changed_append (Expr.queries_mapArgumentsList hf partitionBy)
        (OrderItem.queries_mapArgumentsList hf orderBy)) (frame.queries_mapArguments hf)

theorem Frame.queries_mapArguments (hf : KeepsQueries f) : (x : Frame) →
    Atom.queries (x.mapArguments f).atoms = Atom.changedQueries f x.atoms
  | .absent => rfl
  | .start _ first => first.queries_mapArguments hf
  | .span _ first last =>
      Atom.changed_append (first.queries_mapArguments hf) (last.queries_mapArguments hf)

theorem Bound.queries_mapArguments (hf : KeepsQueries f) : (b : Bound) →
    Atom.queries (b.mapArguments f).atoms = Atom.changedQueries f b.atoms
  | .currentRow => rfl
  | .preceding rows => Expr.queries_mapArgumentsOption hf rows
  | .following rows => Expr.queries_mapArgumentsOption hf rows

end

end expressions

/-! ## Clauses -/

section clauses

theorem SelectItem.queries_mapArguments (hf : KeepsQueries f) (items : List SelectItem) :
    Atom.queries ((SelectItem.mapArgumentsList f items).flatMap SelectItem.atoms) =
      Atom.changedQueries f (items.flatMap SelectItem.atoms) := by
  induction items with
  | nil => rfl
  | cons i rest ih =>
    have hitem : Atom.queries (i.mapArguments f).atoms = Atom.changedQueries f i.atoms := by
      cases i with
      | expr e label => exact e.queries_mapArguments hf
      | star => rfl
      | starOf name => rfl
    exact Atom.changed_append hitem ih

theorem NamedWindow.queries_mapArguments (hf : KeepsQueries f) (windows : List NamedWindow) :
    Atom.queries ((NamedWindow.mapArgumentsList f windows).flatMap NamedWindow.atoms) =
      Atom.changedQueries f (windows.flatMap NamedWindow.atoms) := by
  induction windows with
  | nil => rfl
  | cons w rest ih =>
    obtain ⟨name, window⟩ := w
    have hwindow : Atom.queries (window.mapArguments f).atoms =
        Atom.changedQueries f window.atoms := window.queries_mapArguments hf
    exact Atom.changed_append hwindow ih

theorem Assignment.queries_mapArguments (hf : KeepsQueries f) (assignments : List Assignment) :
    Atom.queries ((Assignment.mapArgumentsList f assignments).flatMap Assignment.atoms) =
      Atom.changedQueries f (assignments.flatMap Assignment.atoms) := by
  induction assignments with
  | nil => rfl
  | cons a rest ih =>
    obtain ⟨target, value⟩ := a
    have hvalue : Atom.queries (value.mapArguments f).atoms = Atom.changedQueries f value.atoms :=
      value.queries_mapArguments hf
    exact Atom.changed_append hvalue ih

theorem Distinct.queries_mapArguments (hf : KeepsQueries f) (d : Distinct) :
    Atom.queries (d.mapArguments f).atoms = Atom.changedQueries f d.atoms := by
  cases d with
  | on keys => exact Expr.queries_mapArgumentsList hf keys
  | _ => rfl

theorem GroupBy.queries_mapArguments (hf : KeepsQueries f) (g : GroupBy) :
    Atom.queries (g.mapArguments f).atoms = Atom.changedQueries f g.atoms := by
  cases g with
  | keys es => exact Expr.queries_mapArgumentsList hf es
  | all => rfl

theorem PivotValues.queries_mapArguments (hf : KeepsQueries f) (v : PivotValues) :
    Atom.queries (v.mapArguments f).atoms = Atom.changedQueries f v.atoms := by
  cases v with
  | list items => exact SelectItem.queries_mapArguments hf items
  | any orderBy => exact OrderItem.queries_mapArgumentsList hf orderBy
  | query q => rfl

theorem JoinCondition.queries_mapArguments (hf : KeepsQueries f) (c : JoinCondition) :
    Atom.queries (c.mapArguments f).atoms = Atom.changedQueries f c.atoms := by
  cases c with
  | on e => exact e.queries_mapArguments hf
  | _ => rfl

theorem Insert.queries_mapArguments (hf : KeepsQueries f) (i : Insert) :
    Atom.queries (i.mapArguments f).atoms = Atom.changedQueries f i.atoms := by
  obtain ⟨alternative, overwrite, into, named, table, label, columns, source, partition, conflict,
    assignments, filter, returning⟩ := i
  have hsource : Atom.queries [.query (source.mapArguments f)] =
      Atom.changedQueries f [.query source] := rfl
  have hpartition := Atom.changed_append hsource (Expr.queries_mapArgumentsList hf partition)
  have hassignments :=
    Atom.changed_append hpartition (Assignment.queries_mapArguments hf assignments)
  have hfilter := Atom.changed_append hassignments (Expr.queries_mapArgumentsOption hf filter)
  exact Atom.changed_append hfilter (SelectItem.queries_mapArguments hf returning)

end clauses

/-! ## What stands in a query -/

/-- What stands at a place after a change of arguments. -/
def Standing.change (f : Argument → Argument) (t : Standing) : Standing :=
  match t.part with
  | .query q => ⟨t.around, .query (q.mapArguments f)⟩
  | .table _ _ => t

theorem Atom.standing_change {as bs : List Atom} (h : Atom.queries bs = Atom.changedQueries f as)
    (s : Surroundings) : Atom.standing s bs = (Atom.standing s as).map (Standing.change f) := by
  unfold Atom.standing
  rw [h, Atom.changedQueries, List.map_map, List.map_map]
  rfl

mutual

theorem TableTree.standing_mapArguments (hf : KeepsQueries f) : (t : TableTree) →
    {s : Surroundings} → (t.mapArguments f).standing s = (t.standing s).map (Standing.change f)
  | .mk first joins, _ =>
      append_eq_map (first.standing_mapArguments hf)
        (Join.standingList_mapArguments hf joins)

theorem Join.standingList_mapArguments (hf : KeepsQueries f) : (js : List Join) →
    {s : Surroundings} → Join.standingList s (Join.mapArgumentsList f js) =
      (Join.standingList s js).map (Standing.change f)
  | [], _ => rfl
  | j :: js, _ =>
      append_eq_map (j.standing_mapArguments hf) (Join.standingList_mapArguments hf js)

theorem Join.standing_mapArguments (hf : KeepsQueries f) : (j : Join) → {s : Surroundings} →
    (j.mapArguments f).standing s = (j.standing s).map (Standing.change f)
  | .mk _ _ factor matching condition, _ =>
      append_eq_map (factor.standing_mapArguments hf)
        (append_eq_map
          (Atom.standing_change (Expr.queries_mapArgumentsOption hf matching) _)
          (Atom.standing_change (condition.queries_mapArguments hf) _))

theorem TableFactor.standing_mapArguments (hf : KeepsQueries f) : (x : TableFactor) →
    {s : Surroundings} → (x.mapArguments f).standing s = (x.standing s).map (Standing.change f)
  | .table _ _ _ hints, _ =>
      congrArg (_ :: ·) (Atom.standing_change (Expr.queries_mapArgumentsList hf hints) _)
  | .tableFunction _ arguments _ _ hints, _ =>
      Atom.standing_change (Atom.changed_append (Argument.queries_mapArgumentsList hf arguments)
        (Expr.queries_mapArgumentsList hf hints)) _
  | .lateralFunction _ arguments _, _ =>
      Atom.standing_change (Argument.queries_mapArgumentsList hf arguments) _
  | .tableOf e _, _ => Atom.standing_change (e.queries_mapArguments hf) _
  | .unnest arrays _ _ _, _ => Atom.standing_change (Expr.queries_mapArgumentsList hf arrays) _
  | .derived _ _ _, _ => rfl
  | .nested tables _, _ => tables.standing_mapArguments hf
  | .document _ e _ _, _ => Atom.standing_change (e.queries_mapArguments hf) _
  | .pivot table aggregates _ values otherwise _, _ =>
      append_eq_map (table.standing_mapArguments hf)
        (Atom.standing_change (Atom.changed_append (Atom.changed_append
          (SelectItem.queries_mapArguments hf aggregates) (values.queries_mapArguments hf))
          (Expr.queries_mapArgumentsOption hf otherwise)) _)
  | .unpivot table _ _ _ _, _ => table.standing_mapArguments hf

end

theorem TableTree.standingList_mapArguments (hf : KeepsQueries f) (trees : List TableTree)
    (s : Surroundings) : TableTree.standingList s (TableTree.mapArgumentsList f trees) =
      (TableTree.standingList s trees).map (Standing.change f) := by
  unfold TableTree.standingList
  induction trees with
  | nil => rfl
  | cons t rest ih =>
    exact append_eq_map (t.standing_mapArguments hf) ih

theorem Select.standing_mapArguments (hf : KeepsQueries f) (select : Select) (s : Surroundings) :
    (select.mapArguments f).standing s = (select.standing s).map (Standing.change f) := by
  obtain ⟨distinct, top, topCount, items, into, sources, lateralViews, lateralRows, filter, groupBy,
    clusterBy, distributeBy, sortBy, having, windows, windowFilter, windowsFirst⟩ := select
  -- Clause by clause, the last one first.
  refine append_eq_map ?_
    (Atom.standing_change (Expr.queries_mapArgumentsOption hf windowFilter) _)
  refine append_eq_map ?_
    (Atom.standing_change (NamedWindow.queries_mapArguments hf windows) _)
  refine append_eq_map ?_
    (Atom.standing_change (Expr.queries_mapArgumentsOption hf having) _)
  refine append_eq_map ?_ (Atom.standing_change (Expr.queries_mapArgumentsList hf sortBy) _)
  refine append_eq_map ?_
    (Atom.standing_change (Expr.queries_mapArgumentsList hf distributeBy) _)
  refine append_eq_map ?_
    (Atom.standing_change (Expr.queries_mapArgumentsList hf clusterBy) _)
  refine append_eq_map ?_ (Atom.standing_change (groupBy.queries_mapArguments hf) _)
  refine append_eq_map ?_
    (Atom.standing_change (Expr.queries_mapArgumentsOption hf filter) _)
  refine append_eq_map ?_
    (Atom.standing_change (Expr.queries_mapArgumentsList hf lateralRows) _)
  refine append_eq_map ?_ (TableTree.standingList_mapArguments hf sources s)
  refine append_eq_map ?_ (Atom.standing_change (SelectItem.queries_mapArguments hf items) _)
  refine append_eq_map ?_
    (Atom.standing_change (Expr.queries_mapArgumentsOption hf topCount) _)
  exact Atom.standing_change (distinct.queries_mapArguments hf) _

theorem Update.standing_mapArguments (hf : KeepsQueries f) (u : Update) (s : Surroundings) :
    (u.mapArguments f).standing s = (u.standing s).map (Standing.change f) := by
  obtain ⟨alternative, table, assignments, sources, filter, returning⟩ := u
  refine append_eq_map ?_
    (Atom.standing_change (SelectItem.queries_mapArguments hf returning) _)
  refine append_eq_map ?_
    (Atom.standing_change (Expr.queries_mapArgumentsOption hf filter) _)
  refine append_eq_map ?_ (TableTree.standingList_mapArguments hf sources s)
  exact append_eq_map (table.standing_mapArguments hf)
    (Atom.standing_change (Assignment.queries_mapArguments hf assignments) _)

theorem Body.standing_mapArguments (hf : KeepsQueries f) : (b : Body) → {s : Surroundings} →
    (b.mapArguments f).standing s = (b.standing s).map (Standing.change f)
  | .select own, _ => own.standing_mapArguments hf _
  | .parens _, _ => rfl
  | .setOperation _ _ left right, _ =>
      append_eq_map (left.standing_mapArguments hf) (right.standing_mapArguments hf)
  | .values _ rows, _ => Atom.standing_change (Expr.queries_mapArgumentsLists hf rows) _
  | .defaultValues, _ => rfl
  | .table _, _ => rfl
  | .insert i, _ => Atom.standing_change (i.queries_mapArguments hf) _
  | .update u, _ => u.standing_mapArguments hf _

theorem Cte.standing_mapArguments (isRecursive : Bool) : (cs : List Cte) → (s : Surroundings) →
    Cte.standing isRecursive s (Cte.mapArgumentsList f cs) =
      (Cte.standing isRecursive s cs).map (Standing.change f)
  | [], _ => rfl
  | .mk _ _ _ _ :: cs, s =>
      congrArg (_ :: ·) (Cte.standing_mapArguments isRecursive cs ⟨_ :: s.ctes, s.visited⟩)

theorem Query.lowerNames_mapArguments (q : Query) :
    (q.mapArguments f).ctes.map Cte.lowerName = q.ctes.map Cte.lowerName := by
  obtain ⟨isRecursive, ctes, body, orderBy, limit, offset, offsetWord, fetch, locks⟩ := q
  change (Cte.mapArgumentsList f ctes).map Cte.lowerName = ctes.map Cte.lowerName
  induction ctes with
  | nil => rfl
  | cons c rest ih =>
    obtain ⟨label, materialized, query, source⟩ := c
    exact congrArg (_ :: ·) ih

theorem Query.standing_mapArguments (hf : KeepsQueries f) (q : Query) (s : Surroundings) :
    (q.mapArguments f).standing s = (q.standing s).map (Standing.change f) := by
  have hwithin : (q.mapArguments f).within s = q.within s := by
    rw [Query.within_eq, Query.within_eq, Query.lowerNames_mapArguments]
  rw [Query.standing, hwithin, Query.standing]
  obtain ⟨isRecursive, ctes, body, orderBy, limit, offset, offsetWord, fetch, locks⟩ := q
  refine append_eq_map ?_
    (Atom.standing_change (Expr.queries_mapArgumentsOption hf offset) _)
  refine append_eq_map ?_
    (Atom.standing_change (Expr.queries_mapArgumentsOption hf limit) _)
  refine append_eq_map ?_
    (Atom.standing_change (OrderItem.queries_mapArgumentsList hf orderBy) _)
  exact append_eq_map (Cte.standing_mapArguments isRecursive ctes s)
    (body.standing_mapArguments hf)

/-- A query and the query with its arguments changed correspond place by place. -/
theorem KeepsQueries.simulation (hf : KeepsQueries f) :
    Simulation (fun _ q₀ q => q = q₀.mapArguments f) TableRead.name where
  names {_ q₀ q} h := by
    rw [h, Query.lowerNames_mapArguments]
  standing {s q₀ q} h := by
    rw [h, q₀.standing_mapArguments hf, List.forall₂_map_right_iff, List.forall₂_same]
    rintro ⟨around, part⟩ -
    cases part with
    | query r => exact .query rfl
    | table name label => exact .table

/-! ## Before qualification -/

theorem keepsQueries_expandStar (sources : OrderedMap String (List String)) :
    KeepsQueries (Argument.expandStar sources) := by
  have htuple : ∀ columns : List Expr, (∀ e ∈ columns, Atom.queries e.atoms = []) →
      Atom.queries (Expr.atomsList columns) = [] := by
    intro columns h
    induction columns with
    | nil => rfl
    | cons e rest ih =>
      have hrest := ih fun e' he' => h e' (List.mem_cons_of_mem _ he')
      rw [Expr.atomsList, Atom.queries_append, h e List.mem_cons_self, hrest, List.append_nil]
  intro a
  unfold Argument.expandStar
  split
  · split
    · rfl
    · split
      · rfl
      · refine htuple _ ?_
        intro e he
        obtain ⟨c, -, rfl⟩ := List.mem_map.mp he
        rfl
  · rfl

/-- The stars in calls play no part for the tables of a query. -/
theorem Query.reads_expandStars (q : Query) (x : StarContext) (s : Surroundings) :
    (q.expandStars x).reads s = q.reads s := by
  have hf := keepsQueries_expandStar (x.sources q)
  have h : (q.mapArguments (Argument.expandStar (x.sources q))).reads s =
      (q.reads s).map (TableRead.rename TableRead.name) := hf.simulation.reads rfl
  rw [Query.expandStars, h]
  exact List.map_id _

theorem Query.cteNames_expandStars (q : Query) (x : StarContext) :
    (q.expandStars x).cteNames = q.cteNames :=
  (keepsQueries_expandStar (x.sources q)).simulation.cteNames (s := .outside) rfl

theorem Query.reads_unwrap (q : Query) (s : Surroundings) : q.unwrap.reads s = q.reads s := by
  fun_induction Query.unwrap q with
  | case1 isRecursive inner offsetWord fetch locks ih =>
    rw [ih, Query.reads_eq s (Query.mk _ _ _ _ _ _ _ _ _)]
    exact (List.flatMap_singleton _ _).symm
  | case2 => rfl

theorem Query.cteNames_unwrap (q : Query) : q.unwrap.cteNames = q.cteNames := by
  fun_induction Query.unwrap q with
  | case1 isRecursive inner offsetWord fetch locks ih =>
    rw [ih, Query.cteNames_standing .outside (Query.mk _ _ _ _ _ _ _ _ _), inner.cteNames_eq]
    exact (List.flatMap_singleton _ _).symm
  | case2 => rfl

end ColumnLineage
