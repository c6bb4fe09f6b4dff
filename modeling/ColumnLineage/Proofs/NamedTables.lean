import ColumnLineage.Analysis.Script
import ColumnLineage.Proofs.Clauses
import ColumnLineage.Proofs.ParserResults

/-!
# Tables in scripts have names

A table in a tree of syntax has a list of names, which might be empty. In a tree that is read from
text it never is: a table is read by its name or not at all. The rules of the grammar keep this, each
given the rules one level deeper.
-/

namespace ColumnLineage

/-! ## Lists of parts -/

@[simp] theorem named_selectItems {items : List SelectItem} :
    Named (SelectItem.partsList items) ↔ ∀ i ∈ items, Named i.parts :=
  named_list (by rw [SelectItem.partsList]) (by intros; rw [SelectItem.partsList])

@[simp] theorem named_trees {trees : List TableTree} :
    Named (TableTree.partsList trees) ↔ ∀ t ∈ trees, Named t.parts :=
  named_list (by rw [TableTree.partsList]) (by intros; rw [TableTree.partsList])

@[simp] theorem named_joins {joins : List Join} :
    Named (Join.partsList joins) ↔ ∀ j ∈ joins, Named j.parts :=
  named_list (by rw [Join.partsList]) (by intros; rw [Join.partsList])

@[simp] theorem named_windows {windows : List NamedWindow} :
    Named (NamedWindow.partsList windows) ↔ ∀ w ∈ windows, Named w.parts :=
  named_list (by rw [NamedWindow.partsList]) (by intros; rw [NamedWindow.partsList])

@[simp] theorem named_assignments {assignments : List Assignment} :
    Named (Assignment.partsList assignments) ↔ ∀ a ∈ assignments, Named a.parts :=
  named_list (by rw [Assignment.partsList]) (by intros; rw [Assignment.partsList])

@[simp] theorem named_ctes {ctes : List Cte} :
    Named (Cte.partsList ctes) ↔ ∀ c ∈ ctes, Named c.parts :=
  named_list (by rw [Cte.partsList]) (by intros; rw [Cte.partsList])

variable {inner : Parser TableTree}

namespace Parser

variable {g : Grammar}

/-! ## Tables -/

theorem yields_derivedTable (hg : g.Named) (lateral : Bool) :
    Yields (derivedTable g lateral) fun f => Named f.parts :=
  .bind hg.query fun q hq => .step fun _ => .step fun _ =>
    .pure (by simpa [TableFactor.parts] using hq)

theorem yields_lateralTable (hg : g.Named) : Yields (lateralTable g) fun f => Named f.parts :=
  .test (yields_derivedTable hg true) (.step fun name => .step fun _ =>
    .bind (yields_arguments hg) fun items hitems => .step fun _ =>
      .pure (by simpa [TableFactor.parts] using hitems))

theorem yields_nestedTables (hinner : Yields inner fun t => Named t.parts) :
    Yields (nestedTables inner) fun f => Named f.parts :=
  .bind hinner fun tables htables => .ite
    (.step fun _ => .step fun _ => .pure (by simpa [TableFactor.parts] using htables)) (.expected _)

theorem yields_hints? (hg : g.Named) : Yields (hints? g) fun es => ∀ e ∈ es, Named e.parts := by
  refine .step fun tokens => ?_
  split
  · exact .ite (.step fun _ => .parenthesized (.commaList hg.whole)) (.pure (by simp))
  · exact .pure (by simp)

theorem yields_aliased {p : Parser Expr} (hp : Yields p fun e => Named e.parts) :
    Yields (aliased p) fun i => Named i.parts :=
  .bind hp fun e he => .step fun _ => .pure (by simpa [SelectItem.parts] using he)

theorem yields_namedCall (hg : g.Named) : Yields (namedCall g) fun e => Named e.parts := by
  refine .step fun found => ?_
  split
  · exact .step fun _ => yields_call hg _
  · exact .expected _

theorem yields_pivotValues (hg : g.Named) : Yields (pivotValues g) fun v => Named v.parts := by
  refine .test ?_ (.test ?_ ?_)
  · exact .bind (yields_orderBy? hg) fun os hos => .pure (by simpa [PivotValues.parts] using hos)
  · exact .bind hg.query fun q hq => .pure (by simpa [PivotValues.parts] using hq)
  · exact .bind (.commaList (yields_aliased hg.whole)) fun items hitems =>
      .pure (by simpa [PivotValues.parts] using hitems)

theorem yields_pivot (hg : g.Named) {table : TableFactor} (htable : Named table.parts) :
    Yields (pivot g table) fun f => Named f.parts := by
  refine .step fun _ => .bind (.commaList (yields_aliased (yields_namedCall hg)))
    fun aggregates haggregates => .step fun _ => .step fun column => .step fun _ =>
    .bind (.parenthesized (yields_pivotValues hg)) fun values hvalues =>
    .shared (P := fun otherwise => ∀ e ∈ otherwise, Named e.parts) ?_ fun hclosed => .test
      (.bind (.parenthesized hg.whole) fun e he => .bind (.pure (by simpa using he)) hclosed)
      (.bind (.pure (by simp)) hclosed)
  intro otherwise hotherwise
  refine .step fun _ => .step fun _ => .pure ?_
  simpa [TableFactor.parts, and_assoc] using ⟨htable, haggregates, hvalues, hotherwise⟩

theorem yields_unpivot {table : TableFactor} (htable : Named table.parts) :
    Yields (unpivot table) fun f => Named f.parts :=
  .step fun _ => .step fun _ => .step fun _ => .step fun _ => .step fun _ => .step fun _ =>
    .step fun _ => .step fun _ => .pure (by simpa [TableFactor.parts] using htable)

theorem yields_pivoted (hg : g.Named) {table : TableFactor} (htable : Named table.parts) :
    Yields (pivoted g table) fun f => Named f.parts := by
  refine .loop (fun table htable => .test ?_ (.test ?_ (.pure (by simp)))) htable
  · exact .bind (yields_pivot hg htable) fun f hf => .pure (by simpa using hf)
  · exact .bind (yields_unpivot htable) fun f hf => .pure (by simpa using hf)

theorem yields_namedTable (hg : g.Named) : Yields (namedTable g) fun f => Named f.parts := by
  refine .bind yields_objectName fun name hname =>
    .shared (P := fun items => ∀ as ∈ items, ∀ a ∈ as, Named a.parts) ?_ fun hlabel => .test
      (.bind (yields_arguments hg) fun as has => .bind (.pure (by simpa using has)) hlabel)
      (.bind (.pure (by simp)) hlabel)
  intro items hitems
  refine .step fun numbered => .step fun label => .bind (yields_hints? hg) fun hints hhints => ?_
  refine yields_pivoted hg ?_
  cases items with
  | none => simpa [TableFactor.parts] using ⟨hname, hhints⟩
  | some items => simpa [TableFactor.parts] using ⟨hitems items rfl, hhints⟩

theorem yields_unnested (hg : g.Named) : Yields (unnested g) fun f => Named f.parts := by
  refine .bind (.parenthesized (.commaList hg.whole)) fun arrays harrays =>
    .step fun numbered => .step fun label => .test (.step ?offset) (.step ?offset)
  refine fun withOffset => .ite (.step fun _ => .step ?last) (.step ?last)
  exact fun offset => .pure (by simpa [TableFactor.parts] using harrays)

theorem yields_documentTable (hg : g.Named) : Yields (documentTable g) fun f => Named f.parts :=
  .bind hg.whole fun e he => .step fun _ => .step fun _ => .step fun _ => .step fun _ =>
    .step fun _ => .step fun _ => .step fun _ => .pure (by simpa [TableFactor.parts] using he)

theorem yields_openedDocument (hg : g.Named) :
    Yields (openedDocument g) fun f => Named f.parts := by
  refine .bind hg.whole fun e he => .test (.step fun _ => .step ?columns) (.step ?columns)
  refine fun path => .step fun _ => .test (.step fun _ => .step ?last) (.step ?last)
  exact fun columns => .step fun _ => .pure (by simpa [TableFactor.parts] using he)

theorem yields_tableFactor (hg : g.Named) (hinner : Yields inner fun t => Named t.parts) :
    Yields (tableFactor g inner) fun f => Named f.parts := by
  refine .test (yields_lateralTable hg) <| .test ?_ <| .test ?_ <| .test (yields_unnested hg) <|
    .test (yields_documentTable hg) <| .test (yields_openedDocument hg) <| yields_namedTable hg
  · exact .bind (.parenthesized hg.whole) fun e he => .step fun _ =>
      .pure (by simpa [TableFactor.parts] using he)
  · refine .bind (.attempt? (yields_derivedTable hg false)) fun factor hfactor => ?_
    cases factor with
    | some factor => exact yields_pivoted hg (hfactor factor rfl)
    | none => exact yields_nestedTables hinner

theorem yields_joinCondition (hg : g.Named) (natural : Bool) :
    Yields (joinCondition g natural) fun c => Named c.parts :=
  .ite (.pure (by simp [JoinCondition.parts])) <|
    .test (.bind hg.whole fun e he => .pure (by simpa [JoinCondition.parts] using he)) <|
    .test (.step fun _ => .pure (by simp [JoinCondition.parts])) <|
    .pure (by simp [JoinCondition.parts])

theorem yields_join? (hg : g.Named) (hinner : Yields inner fun t => Named t.parts) :
    Yields (join? g inner) fun j => ∀ a ∈ j, Named a.parts := by
  have hplain : ∀ isGlobal kind, Yields
      (do return some (plainJoin isGlobal kind (← tableFactor g inner)))
      fun j => ∀ a ∈ j, Named a.parts :=
    fun isGlobal kind => .bind (yields_tableFactor hg hinner) fun factor hfactor =>
      .pure (by simpa [plainJoin, Join.parts, JoinCondition.parts] using hfactor)
  refine .step fun isGlobal => .test (.step fun kind => ?_) <|
    .test (.step fun _ => hplain _ _) <| .test ?_ <| .step fun natural => .step fun kind => ?_
  · split
    · exact hplain _ _
    · exact .expected _
  · exact .step fun _ => .bind (yields_tableFactor hg hinner) fun factor hfactor => .step fun _ =>
      .bind (.parenthesized hg.whole) fun matching hmatching =>
      .bind (yields_joinCondition hg false) fun condition hcondition =>
        .pure (by simpa [Join.parts, and_assoc] using ⟨hfactor, hmatching, hcondition⟩)
  · cases kind with
    | none => exact .pure (by simp)
    | some kind =>
      exact .bind (yields_tableFactor hg hinner) fun factor hfactor =>
        .bind (yields_joinCondition hg natural) fun condition hcondition =>
          .pure (by simpa [Join.parts] using ⟨hfactor, hcondition⟩)

theorem yields_tableTreeForm (hg : g.Named) (hinner : Yields inner fun t => Named t.parts) :
    Yields (tableTreeForm g inner) fun t => Named t.parts := by
  refine .bind (yields_tableFactor hg hinner) fun first hfirst =>
    .bind (P := fun joins => ∀ j ∈ joins, Named j.parts) (.loop ?_ (by simp)) fun joins hjoins => ?_
  · intro joins hjoins
    refine .bind (yields_join? hg hinner) fun j hj => .pure ?_
    cases j with
    | none => simp
    | some j => simpa using ⟨hj j rfl, hjoins⟩
  · exact .pure (by simpa [TableTree.parts] using ⟨hfirst, hjoins⟩)

theorem yields_tableTreeWithin (hg : g.Named) :
    (n : Nat) → Yields (tableTreeWithin g n) fun t => Named t.parts
  | 0 => .throw _
  | n + 1 => yields_tableTreeForm hg (yields_tableTreeWithin hg n)

theorem yields_tableTree (hg : g.Named) : Yields (tableTree g) fun t => Named t.parts :=
  .step fun _ => yields_tableTreeWithin hg _

/-! ## Selects -/

theorem yields_selectItem (hg : g.Named) : Yields (selectItem g) fun i => Named i.parts := by
  refine .bind (yields_starred hg.whole) fun s hs => ?_
  cases s with
  | star => exact .pure (by simp [SelectItem.parts])
  | starOf name => exact .pure (by simp [SelectItem.parts])
  | expr e =>
    have hitem : Yields (do return SelectItem.expr e (← alias? reservedForItems))
        fun i => Named i.parts :=
      .step fun _ => .pure (by simpa [SelectItem.parts, Starred.parts] using hs)
    dsimp only
    split
    · exact .ite (.throw _) hitem
    · exact hitem

theorem yields_distinct? (hg : g.Named) : Yields (distinct? g) fun d => Named d.parts := by
  refine .step fun all => .test (.ite (.throw _) (.test (.parenthesized (.test ?_ ?_)) ?_)) ?_
  · exact .pure (by simp [Distinct.parts])
  · exact .bind (.commaList hg.whole) fun es hes => .pure (by simpa [Distinct.parts] using hes)
  · exact .pure (by simp [Distinct.parts])
  · exact .pure (by simp [Distinct.parts])

theorem yields_groupingSet (hg : g.Named) (alone : Bool) :
    Yields (groupingSet g alone) fun es => ∀ e ∈ es, Named e.parts :=
  .test (.bind hg.whole fun e he => .pure (by simpa using he))
    (.step fun _ => .test (.pure (by simp)) (.bind (.commaList hg.whole) fun es hes =>
      .step fun _ => .pure hes))

theorem yields_groupKey (hg : g.Named) : Yields (groupKey g) fun e => Named e.parts := by
  have hsets : ∀ kind alone, Yields
      (do return Expr.grouping kind (← parenthesized (commaList (groupingSet g alone))))
      fun e => Named e.parts :=
    fun kind alone => .bind (.parenthesized (.commaList (yields_groupingSet hg alone)))
      fun sets hsets => .pure (by simpa [Expr.parts] using hsets)
  refine .test (hsets _ _) <| .test (hsets _ _) <| .test (hsets _ _) <| .step fun tokens => ?_
  split
  · exact .step fun _ => .pure (by simp [Expr.parts])
  · exact hg.whole

theorem yields_groupBy? (hg : g.Named) : Yields (groupBy? g) fun b => Named b.parts :=
  .test (.test (.pure (by simp [GroupBy.parts])) (.bind (.commaList (yields_groupKey hg))
    fun keys hkeys => .pure (by simpa [GroupBy.parts] using hkeys)))
    (.pure (by simp [GroupBy.parts]))

theorem yields_namedWindow (hg : g.Named) : Yields (namedWindow g) fun w => Named w.parts :=
  .step fun _ => .step fun _ => .step fun _ => .bind (yields_windowSpec hg) fun w hw =>
    .pure (by simpa [NamedWindow.parts] using hw)

theorem yields_windows? (hg : g.Named) : Yields (windows? g) fun ws => ∀ w ∈ ws, Named w.parts :=
  .test (.commaList (yields_namedWindow hg)) (.pure (by simp))

theorem yields_windowClauses (hg : g.Named) : Yields (windowClauses g) fun c =>
    (∀ w ∈ c.1, Named w.parts) ∧ ∀ e ∈ c.2.1, Named e.parts :=
  .step fun _ => .bind (yields_windows? hg) fun _ hfirst =>
    .bind (.behind? _ hg.whole) fun _ hfilter =>
      .ite (.bind (yields_windows? hg) fun _ hws => .pure ⟨hws, hfilter⟩) (.pure ⟨hfirst, hfilter⟩)

theorem yields_top? (hg : g.Named) : Yields (top? g) fun t => ∀ e ∈ t.2, Named e.parts := by
  refine .test (.shared (P := fun read => ∀ e ∈ read.2, Named e.parts) ?_ fun hwords => .test
    (.bind (.parenthesized hg.whole) fun e he => .bind (.pure (by simpa using he)) hwords)
    (.step fun _ => .bind (.pure (by simp)) hwords)) (.pure (by simp))
  exact fun read hread => .step fun _ => .step fun _ => .pure hread

theorem yields_lateralViews (hg : g.Named) :
    Yields (lateralViews g) fun read => ∀ e ∈ read.2, Named e.parts := by
  refine .loop ?_ (by simp)
  rintro ⟨views, rows⟩ hrows
  refine .test ?_ (.pure (by simp))
  exact .step fun _ => .bind hg.whole fun e he => .step fun _ => .step fun _ =>
    .pure (by simpa using ⟨he, hrows⟩)

theorem yields_listBehind? (hg : g.Named) (ks : List String) :
    Yields (listBehind? g ks) fun es => ∀ e ∈ es, Named e.parts :=
  .test (.commaList hg.whole) (.pure (by simp))

theorem yields_select (hg : g.Named) : Yields (select g) fun s => Named s.parts := by
  refine .bind (yields_distinct? hg) fun distinct hdistinct =>
    .bind (yields_top? hg) fun top htop =>
    .bind (.commaList (yields_selectItem hg)) fun items hitems => .step fun into =>
    .shared ?_ fun hclauses => .test
      (.bind (.commaList (yields_tableTree hg)) hclauses) (.bind (.pure (by simp)) hclauses)
  intro sources hsources
  refine .bind (yields_lateralViews hg) fun views hviews =>
    .bind (.behind? _ hg.whole) fun filter hfilter =>
    .bind (yields_groupBy? hg) fun groupBy hgroup =>
    .bind (yields_listBehind? hg _) fun clusterBy hcluster =>
    .bind (yields_listBehind? hg _) fun distributeBy hdistribute =>
    .bind (yields_listBehind? hg _) fun sortBy hsort =>
    .bind (.behind? _ hg.whole) fun having hhaving =>
    .bind (yields_windowClauses hg) fun windows hwindows => .pure ?_
  simpa [Select.parts_eq, and_assoc] using ⟨hdistinct, htop, hitems, hsources, hviews, hfilter, hgroup,
    hcluster, hdistribute, hsort, hhaving, hwindows⟩

/-! ## Changes of rows -/

theorem yields_assignment (hg : g.Named) : Yields (assignment g) fun a => Named a.parts :=
  .step fun _ => .step fun _ => .bind hg.whole fun e he =>
    .pure (by simpa [Assignment.parts] using he)

theorem yields_returning? (hg : g.Named) :
    Yields (returning? g) fun items => ∀ i ∈ items, Named i.parts :=
  .test (.commaList (yields_selectItem hg)) (.pure (by simp))

theorem yields_conflict? (hg : g.Named) : Yields (conflict? g) fun c =>
    (∀ a ∈ c.assignments, Named a.parts) ∧ ∀ e ∈ c.filter, Named e.parts := by
  refine .test (.test (.step fun target => .step fun _ => .test (.pure (by simp)) ?_) ?_)
    (.pure (by simp))
  · exact .step fun _ => .step fun _ => .bind (.commaList (yields_assignment hg))
      fun assignments hassignments => .bind (.behind? _ hg.whole) fun filter hfilter =>
        .pure ⟨hassignments, hfilter⟩
  · exact .step fun _ => .step fun _ => .step fun _ => .bind (.commaList (yields_assignment hg))
      fun assignments hassignments => .pure ⟨hassignments, by simp⟩

theorem yields_partition? (hg : g.Named) :
    Yields (partition? g) fun es => ∀ e ∈ es, Named e.parts :=
  .test (.parenthesized (.commaList hg.whole)) (.pure (by simp))

theorem yields_insertedRows (hg : g.Named) : Yields (insertedRows g) fun read =>
    (∀ e ∈ read.2.1, Named e.parts) ∧ Named read.2.2.parts := by
  refine .test (.pure ⟨by simp, ?_⟩) (.test ?_ (.step fun _ => ?_))
  · simp [Query.ofBody, Query.parts, Body.parts]
  · exact .bind hg.query fun q hq => .pure ⟨by simp, hq⟩
  · exact .bind (yields_partition? hg) fun partition hpartition => .bind hg.query fun q hq =>
      .pure ⟨hpartition, hq⟩

theorem yields_tableInsertion (hg : g.Named) (words : InsertWords) :
    Yields (tableInsertion g words) fun i => Named i.parts :=
  .step fun _ => .step fun _ => .step fun _ =>
    .bind (yields_insertedRows hg) fun rows hrows =>
    .bind (yields_conflict? hg) fun conflict hconflict =>
    .bind (yields_returning? hg) fun returning hreturning => .pure (by
      simpa [Insert.parts_eq, and_assoc] using
        ⟨hrows.2, hrows.1, hconflict.1, hconflict.2, hreturning⟩)

theorem yields_update (hg : g.Named) : Yields (update g) fun u => Named u.parts :=
  .step fun _ => .bind (yields_tableTree hg) fun table htable => .step fun _ =>
    .bind (.commaList (yields_assignment hg)) fun assignments hassignments =>
    .bind (.behind? _ (yields_tableTree hg)) fun sources hsources =>
    .bind (.behind? _ hg.whole) fun filter hfilter =>
    .bind (yields_returning? hg) fun returning hreturning => .pure (by
      simpa [Update.parts_eq, and_assoc] using
        ⟨htable, hassignments, hsources, hfilter, hreturning⟩)

/-! ## Queries -/

theorem yields_values (hg : g.Named) : Yields (values g) fun b => Named b.parts := by
  have hrow : Yields (valuesRow g) fun row => ∀ e ∈ row.2, Named e.parts :=
    .step fun _ => .bind (.parenthesized (.commaList hg.whole)) fun _ hes => .pure hes
  refine .bind (.commaList hrow) fun rows hrows => .pure ?_
  rw [Body.parts, named_exprLists]
  exact List.forall_mem_map.mpr hrows

theorem yields_bodyOperand (hg : g.Named) : Yields (bodyOperand g) fun b => Named b.parts :=
  .test (.bind (yields_select hg) fun s hs => .pure (by simpa [Body.parts] using hs)) <|
    .test (.bind hg.query fun q hq => .step fun _ => .pure (by simpa [Body.parts] using hq)) <|
    .test (yields_values hg) <|
    .test (.step fun _ => .pure (by simp [Body.parts])) <| .expected _

theorem yields_setOperations (operators : List (String × SetOperator)) {operand : Parser Body}
    (h : Yields operand fun b => Named b.parts) :
    Yields (setOperations operators operand) fun b => Named b.parts := by
  refine .bind h fun first hfirst => .loop (fun left hleft => .step fun word => ?_) hfirst
  split
  · exact .pure (by simp)
  · exact .step fun _ => .bind h fun right hright =>
      .pure (by simpa [Body.parts] using ⟨hleft, hright⟩)

theorem yields_cte (hg : g.Named) : Yields (cte g) fun c => Named c.parts := by
  refine .step fun name => .test (.step ?query) (.step ?query)
  exact fun columns => .step fun _ => .step fun _ => .bind (.parenthesized hg.query) fun q hq =>
    .step fun _ => .pure (by simpa [Cte.parts] using hq)

theorem yields_ctes? (hg : g.Named) : Yields (ctes? g) fun c => ∀ a ∈ c.2, Named a.parts :=
  .test (.step fun _ => .bind (.commaList (yields_cte hg)) fun _ hcs => .pure hcs)
    (.pure (by simp))

/-- The bounds that are read so far have named tables. -/
def Bounds.Named (b : Bounds) : Prop :=
  (∀ e ∈ b.limit, ColumnLineage.Named e.parts) ∧ ∀ o ∈ b.offset, ColumnLineage.Named o.1.parts

theorem yields_moreBounds (hg : g.Named) {b : Bounds} (hb : b.Named) :
    Yields (moreBounds g b) Bounds.Named := by
  have hlimit : Yields (limitCount g) fun limit => ∀ e ∈ limit, Named e.parts :=
    .test (.pure (by simp)) (.bind hg.whole fun e he => .pure (by simpa using he))
  refine .shared ?_ fun hoffset => .ite
    (.test (.bind hlimit hoffset) (.bind (.pure (by simp)) hoffset)) (.bind (.pure hb.1) hoffset)
  intro limit hlimit
  refine .shared (P := fun offset => ∀ o ∈ offset, Named o.1.parts) ?_ fun hlast => .ite
    (.test (.bind hg.whole fun e he => .step fun word => .bind (.pure (by simpa using he)) hlast)
      (.bind (.pure (by simp)) hlast)) (.bind (.pure hb.2) hlast)
  exact fun offset hoffset => .pure ⟨hlimit, hoffset⟩

theorem yields_change? (hg : g.Named) : Yields (change? g) fun b => ∀ a ∈ b, Named a.parts :=
  .test (.step fun _ => .bind (yields_tableInsertion hg _) fun i hi =>
    .pure (by simpa [Body.parts] using hi)) <|
    .test (.bind (yields_update hg) fun u hu => .pure (by simpa [Body.parts] using hu)) <|
    .pure (by simp)

theorem yields_query (hg : g.Named) : Yields (query g) fun q => Named q.parts := by
  refine .bind (yields_ctes? hg) fun ctes hctes => .bind (yields_change? hg) fun change hchange => ?_
  cases change with
  | some body =>
    refine .pure ?_
    simpa [Query.ofBody, Query.parts] using ⟨hctes, hchange body rfl⟩
  | none =>
    refine .bind (yields_setOperations _ (yields_setOperations _ (yields_bodyOperand hg)))
      fun body hbody => .bind (yields_orderBy? hg) fun orderBy horder =>
      .bind (yields_moreBounds hg (b := {}) ⟨by simp, by simp⟩) fun bounds hbounds =>
      .bind (yields_moreBounds hg hbounds) fun bounds hbounds =>
      .step fun fetch => .step fun locks => .pure ?_
    simpa [Query.parts, and_assoc] using
      ⟨hctes, hbody, horder, hbounds.1, fun e word ho => hbounds.2 (e, word) ho⟩

theorem named_grammar (n : Nat) : (grammar n).Named := by
  induction n with
  | zero => exact ⟨.throw _, fun _ => .throw _⟩
  | succ n ih => exact ⟨yields_query ih, yields_expression ih⟩

/-! ## Statements -/

end Parser

theorem Query.parts_ne_nil_of_named {q : Query} (h : Named q.parts) :
    ∀ t ∈ q.allTables, t.1.parts ≠ [] := by
  intro t ht
  obtain ⟨part, hpart, he⟩ := List.mem_filterMap.mp ht
  cases part with
  | query _ => cases he
  | table name label =>
    cases he
    exact h name label hpart

/-- The tables in the query whose rows a statement uses have names. -/
def Statement.Named (s : Statement) : Prop :=
  ∀ q ∈ s.source?, ColumnLineage.Named q.parts

theorem Statement.named_other (text : String) : (Statement.other text).Named := by
  intro q hq
  cases hq

namespace Parser

variable {g : Grammar}

theorem yields_createTable (hg : g.Named) (words : TableWords) :
    Yields (createTable g words) fun t => (Statement.createTable t).Named :=
  .step fun _ => .step fun _ => .step fun _ => .step fun _ => .step fun _ => .step fun _ =>
    .step fun _ => .step fun _ => .bind (.behind? _ hg.query) fun _ hq => .pure hq

theorem yields_createExternalTable (orReplace : Bool) :
    Yields (createExternalTable g orReplace) fun t => (Statement.createTable t).Named :=
  .step fun _ => .step fun _ => .step fun _ => .step fun _ => .step fun _ => .step fun _ =>
    .step fun _ => .pure fun q hq => by cases hq

theorem yields_createView (hg : g.Named) (orReplace temporary materialized : Bool) :
    Yields (createView g orReplace temporary materialized)
      fun v => (Statement.createView v).Named := by
  refine .step fun _ => .step fun _ => .step fun _ =>
    .test (.step fun _ => .step ?query) (.step ?query)
  refine fun _ => .step fun _ => .bind hg.query fun q hq => .pure ?_
  simpa [Statement.Named, Statement.source?] using hq

theorem yields_other {α : Type} {p : Parser α} {text : α → String} :
    Yields (do return Statement.other (text (← p))) Statement.Named :=
  .step fun _ => .pure (Statement.named_other _)

theorem yields_create (hg : g.Named) (inner : Parser Statement) :
    Yields (create g inner) Statement.Named := by
  have hview : ∀ (words : TableWords) (materialized : Bool), Yields (do
      return Statement.createView (← createView g words.orReplace words.temporary materialized))
      Statement.Named :=
    fun words materialized => .bind (yields_createView hg _ _ _) fun _ hv => .pure hv
  refine .step fun words => .test ?_ <| .test (hview _ _) <| .test (.step fun _ => hview _ _) <|
    .test yields_other <| .test ?_ <| .test yields_other <| .test yields_other <|
    .test yields_other <| .test (.expected _) <| .test yields_other <|
    .ite (.expected _) yields_other
  · exact .bind (yields_createTable hg _) fun _ ht => .pure ht
  · exact .bind (yields_createExternalTable _) fun _ ht => .pure ht

theorem yields_insertion (hg : g.Named) : Yields (insertion g) Statement.Named := by
  refine .step fun words => .test yields_other ?_
  refine .bind (yields_tableInsertion hg words) fun i hi => .pure fun q hq => ?_
  obtain rfl : i.source = q := by
    simp only [Statement.source?, Insert.source?] at hq
    split at hq <;> cases hq
    rfl
  simp only [Insert.parts_eq, named_append] at hi
  exact hi.1.1.1.1

theorem yields_specialSetting (scope : Option String) (name : ObjectName) :
    Yields (specialSetting g scope name) Statement.Named :=
  .ite yields_other <| .ite (.step fun _ => .step fun _ => yields_other) <|
    .ite (.test yields_other yields_other) <| .expected _

theorem yields_setting : Yields (setting g) Statement.Named := by
  have hname : ∀ scope name hivevar, Yields (do
      if ← symbol? "=" <||> keyword? "TO" then
        let values ← commaList (settingValue g)
        return Statement.setVariable { hivevar, isLocal := scope = some "LOCAL", name, values }
      else specialSetting g scope name) Statement.Named :=
    fun scope name hivevar => .test (.step fun values => .pure fun q hq => by cases hq)
      (yields_specialSetting scope name)
  refine .step fun scope => .ite (.step ?name) (.step fun role => ?_)
  · exact fun _ => .test (.step fun name => hname scope name _) (.step fun name => hname scope name _)
  · cases role with
    | none => exact .test (.step fun name => hname scope name _) (.step fun name => hname scope name _)
    | some role => exact .pure (Statement.named_other role)

theorem yields_statementForm (hg : g.Named) (inner : Parser Statement) :
    Yields (statementForm g inner) Statement.Named := by
  have hquery : Yields (do return Statement.query (← g.query)) Statement.Named :=
    .bind hg.query fun q hq => .pure (by simpa [Statement.Named, Statement.source?] using hq)
  refine .step fun tokens => ?_
  split
  · exact hquery
  · refine .ite hquery ?_
    split
    · rename_i p hp
      refine .step fun _ => ?_
      unfold statementBehind? at hp
      split at hp
      · cases hp
        exact yields_create hg inner
      · cases hp
        exact yields_insertion hg
      · cases hp
        exact yields_setting
      · obtain ⟨text, -, rfl⟩ := Option.map_eq_some_iff.mp hp
        exact yields_other
    · exact .expected _
  · exact .expected _

theorem yields_statement : (n : Nat) → Yields (statement n) Statement.Named
  | 0 => .throw _
  | n + 1 => yields_statementForm (named_grammar n) _

theorem yields_statementsOf {p : Parser Statement} (hp : Yields p Statement.Named) :
    Yields (statementsOf p) fun ss => ∀ s ∈ ss, s.Named := by
  refine .bind (P := fun read => ∀ s ∈ read.1, s.Named) (.loop ?_ (by simp)) fun read hread =>
    .pure (by simpa using hread)
  rintro ⟨statements, isOpen⟩ hstatements
  refine .step fun separated => .step fun found => ?_
  cases found with
  | none => exact .pure (by simp)
  | some t =>
    refine .ite (.pure (by simp)) (.ite (.expected _) ?_)
    exact .bind hp fun s hs => .pure (by simpa using ⟨hs, hstatements⟩)

theorem named_parseStatements {tokens : List Token} {statements : List Statement}
    (h : parseStatements tokens = .ok statements) : ∀ s ∈ statements, s.Named := by
  unfold parseStatements at h
  split at h
  · rename_i read rest hread
    cases h
    exact yields_statementsOf (yields_statement _) _ _ _ hread
  · cases h

end Parser

/-! ## Scripts -/

theorem Script.named_of_parse {dialect : Dialect} {folding : Bool} {sql : String}
    {statements : List ScriptStatement} (h : parse dialect folding sql = .ok statements) :
    ∀ s ∈ statements, s.statement.Named := by
  intro s hs
  obtain ⟨tokens, read, hread, hs⟩ := (wasRead_of_parse h hs).statement
  exact Parser.named_parseStatements hread s.statement hs

end ColumnLineage
