import ColumnLineage.Proofs.CallArguments
import ColumnLineage.Proofs.TableReads

/-!
# The columns that a star in a call stands for

The alias of a star in a call names a source of the select that the call stands in. The columns of
the star are looked up elsewhere: in one list for the whole query, in which each table is filed
under its alias and under its own name. Of several tables under a name the last one counts.

* `Query.expandStars_callArgument`: a star becomes the tuple of the columns of its source exactly if
  the last table under its name has these columns. If the source is a table of the catalog, there is
  a table under its name.
-/

namespace ColumnLineage

/-! ## Sources of a select -/

/-- A table gives a source. The columns of a table are those of the common table that it is taken
for, or else those in the catalog. -/
def TableFactor.Offers (x : Qualifier) (v : Visible) (factor : TableFactor) (source : Source) :
    Prop :=
  factor.label? = some source.label ∧ ∀ name numbered label hints,
    factor = .table name numbered label hints →
      source.columns =
        (v.cteOf? name).getD (x.tableColumns (.ofObjectName (name.complete x.defaults)))

/-- Each source of a scope stands under its label and is given by one of some tables. -/
def Scope.OfferedBy (x : Qualifier) (v : Visible) (factors : List TableFactor) (scope : Scope) :
    Prop :=
  ∀ key source, scope.sources.get? key = some source →
    Text.toLower source.label.value = key ∧ ∃ factor ∈ factors, factor.Offers x v source

variable {factor : TableFactor}

section sources

variable {x : Qualifier} {v : Visible} {factors : List TableFactor} {scope scope' : Scope}

theorem Scope.OfferedBy.register (h : scope.OfferedBy x v factors) (source : Source)
    (hf : factor ∈ factors) (ho : factor.Offers x v source) :
    (scope.register source.label source.columns).OfferedBy x v factors := by
  intro key found hget
  rw [Scope.register, OrderedMap.get?_insert] at hget
  split at hget
  · rename_i hkey
    obtain rfl := Option.some.inj hget
    exact ⟨hkey, factor, hf, ho⟩
  · exact h key found hget

theorem Scope.OfferedBy.mergeJoin (left right : Stretch) (h : scope.OfferedBy x v factors)
    (condition : JoinCondition) : (scope.mergeJoin left right condition).OfferedBy x v factors := by
  unfold Scope.OfferedBy
  rw [Scope.mergeJoin_sources]
  exact h

theorem Scope.OfferedBy.adds {factor' : TableFactor} (h : scope.OfferedBy x v factors)
    (hf : factor ∈ factors) (ht : ∀ name numbered label hints,
      factor ≠ .table name numbered label hints)
    (hr : TableFactor.Registered x v scope factor factor' scope') :
    scope'.OfferedBy x v factors := by
  obtain ⟨-, rfl⟩ | ⟨label, columns, hlabel, rfl⟩ := hr.eq_or_register
  · exact h
  · exact h.register ⟨label, columns⟩ hf
      ⟨hlabel, fun name numbered own hints he => absurd he (ht name numbered own hints)⟩

theorem TableFactor.offeredBy_single {factor' : TableFactor} (hf : factor ∈ factors)
    (hn : ∀ tables label, factor ≠ .nested tables label) (h : scope.OfferedBy x v factors)
    (hr : factor.register x v scope = .ok (factor', scope')) : scope'.OfferedBy x v factors := by
  have hregistered := TableFactor.registered_of_register hn hr
  cases factor with
  | table name numbered label hints =>
    obtain ⟨-, rfl⟩ := Prod.mk.inj (ok_eq_ok.mp hr)
    -- Both ways to look a table up give a source under the same label.
    have hsource : ∀ columns, columns =
        (v.cteOf? name).getD (x.tableColumns (.ofObjectName (name.complete x.defaults))) →
        (scope.register ((label.map TableAlias.name).getD (name.parts.getLast?.getD ⟨"", none⟩))
          columns).OfferedBy x v factors := by
      intro columns hcolumns
      refine h.register ⟨_, columns⟩ hf ⟨rfl, ?_⟩
      intro name' numbered' label' hints' he
      cases he
      exact hcolumns
    cases hcte : v.cteOf? name with
    | none => exact hsource _ (by rw [hcte]; rfl)
    | some columns => exact hsource _ (by rw [hcte]; rfl)
  | nested tables label => exact absurd rfl (hn tables label)
  | _ => exact h.adds hf (by simp) hregistered

theorem offeredSteps : RegisterSteps x v
    (fun scope f₀ _ scope' => f₀.factors ⊆ factors → scope.OfferedBy x v factors →
      scope'.OfferedBy x v factors)
    (fun _ scope js₀ _ scope' => Join.factorsList js₀ ⊆ factors → scope.OfferedBy x v factors →
      scope'.OfferedBy x v factors)
    (fun scope t₀ _ scope' => t₀.factors ⊆ factors → scope.OfferedBy x v factors →
      scope'.OfferedBy x v factors)
    (fun scope ts₀ _ scope' => ts₀.flatMap TableTree.factors ⊆ factors →
      scope.OfferedBy x v factors → scope'.OfferedBy x v factors) where
  single hn hr hsub h := by
    rw [TableFactor.factors_eq_singleton hn] at hsub
    exact TableFactor.offeredBy_single (hsub List.mem_cons_self) hn h hr
  nested ih := ih
  done _ h := h
  join _ _ ih ihs hsub h := by
    rw [Join.factorsList, List.append_subset] at hsub
    exact ihs hsub.2 ((ih hsub.1 h).mergeJoin _ _ _)
  tree _ _ ih ihs hsub h := by
    rw [TableTree.factors, List.append_subset] at hsub
    exact ihs hsub.2 (ih hsub.1 h)
  nil _ h := h
  cons _ _ ih ihs hsub h := by
    rw [List.flatMap_cons, List.append_subset] at hsub
    exact ihs hsub.2 (ih hsub.1 h)

theorem Select.scope_offeredBy (x : Qualifier) (v : Visible) (s : Select) :
    (s.scope x v).OfferedBy x v s.factors := by
  have hempty : Scope.OfferedBy x v s.factors {} := by
    intro key source hget
    cases hget
  unfold Select.scope
  cases hr : TableTree.registerList x v {} s.sources with
  | error e => exact hempty
  | ok result => exact offeredSteps.ofTrees s.sources hr (List.Subset.refl _) hempty

end sources

/-! ## Tables of a query -/

variable {s : Select} {q result : Query} {x : Qualifier}

section tables

theorem Atom.parts_of_mem_queries {atoms : List Atom} {r : Query} (h : r ∈ Atom.queries atoms) :
    r.parts ⊆ atoms.flatMap Atom.parts := fun _ hp =>
  List.mem_flatMap.mpr ⟨.query r, Atom.mem_queries.mp h, hp⟩

mutual

theorem TableTree.conditionParts_sublist : (t : TableTree) →
    (t.conditionAtoms.flatMap Atom.parts).Sublist t.parts
  | .mk first joins => by
      rw [TableTree.conditionAtoms, TableTree.parts, List.flatMap_append]
      exact first.conditionParts_sublist.append (Join.conditionPartsList_sublist joins)

theorem Join.conditionPartsList_sublist : (js : List Join) →
    ((Join.conditionAtomsList js).flatMap Atom.parts).Sublist (Join.partsList js)
  | [] => List.Sublist.refl _
  | j :: js => by
      rw [Join.conditionAtomsList, Join.partsList, List.flatMap_append]
      exact j.conditionParts_sublist.append (Join.conditionPartsList_sublist js)

theorem Join.conditionParts_sublist : (j : Join) →
    (j.conditionAtoms.flatMap Atom.parts).Sublist j.parts
  | .mk _ _ factor matching condition => by
      rw [Join.conditionAtoms, Join.parts, List.flatMap_append, ← condition.parts_atoms]
      exact (factor.conditionParts_sublist.trans (List.sublist_append_left _ _)).append
        (List.Sublist.refl _)

theorem TableFactor.conditionParts_sublist : (factor : TableFactor) →
    (factor.conditionAtoms.flatMap Atom.parts).Sublist factor.parts
  | .nested tables _ => tables.conditionParts_sublist
  | .table _ _ _ _ => List.nil_sublist _
  | .tableFunction _ _ _ _ _ => List.nil_sublist _
  | .lateralFunction _ _ _ => List.nil_sublist _
  | .tableOf _ _ => List.nil_sublist _
  | .unnest _ _ _ _ => List.nil_sublist _
  | .derived _ _ _ => List.nil_sublist _
  | .document _ _ _ _ => List.nil_sublist _
  | .pivot _ _ _ _ _ _ => List.nil_sublist _
  | .unpivot _ _ _ _ _ => List.nil_sublist _

end

theorem Select.conditionParts_subset (s : Select) :
    (s.sources.flatMap TableTree.conditionAtoms).flatMap Atom.parts ⊆
      TableTree.partsList s.sources := by
  intro part hp
  rw [List.flatMap_assoc] at hp
  obtain ⟨t, ht, hp⟩ := List.mem_flatMap.mp hp
  rw [TableTree.partsList_eq]
  exact List.mem_flatMap.mpr ⟨t, ht, t.conditionParts_sublist.subset hp⟩

/-- What stands in a clause of a select is met in a walk over the select. -/
theorem Select.clauseParts_subset {clause : List Atom} (h : clause ∈ s.clauses) :
    clause.flatMap Atom.parts ⊆ s.parts := by
  have hconditions := s.conditionParts_subset
  obtain ⟨distinct, top, topCount, items, into, sources, lateralViews, lateralRows, filter, groupBy,
    clusterBy, distributeBy, sortBy, having, windows, windowFilter, windowsFirst⟩ := s
  intro part hp
  simp only [Select.parts_eq, List.mem_append]
  simp only [Select.clauses, List.mem_cons, List.not_mem_nil, or_false] at h
  rcases h with rfl | rfl | rfl | rfl | rfl | rfl
  · simp only [SelectItem.partsList_atoms, hp, true_or, or_true]
  · simp only [hconditions hp, true_or, or_true]
  · simp only [Distinct.parts_atoms, hp, true_or]
  · simp only [Expr.partsOption_eq, hp, true_or, or_true]
  · simp only [GroupBy.parts_atoms, hp, true_or, or_true]
  · simp only [Expr.partsOption_eq, hp, true_or, or_true]

theorem Select.parts_of_mem_queries {r : Query} (h : r ∈ s.queries) : r.parts ⊆ s.parts := by
  rcases List.mem_append.mp h with h | h
  · obtain ⟨clause, hc, hr⟩ := List.mem_flatMap.mp h
    exact List.Subset.trans (Atom.parts_of_mem_queries hr) (Select.clauseParts_subset hc)
  · obtain ⟨factor, hf, hr⟩ := List.mem_filterMap.mp h
    obtain ⟨i, hi⟩ := List.mem_iff_getElem?.mp hf
    have hparts := Select.factor_parts hi
    cases factor with
    | derived lateral query label =>
      obtain rfl := Option.some.inj hr
      exact hparts
    | _ => cases hr

theorem Body.parts_of_mem_queries : (b : Body) → {r : Query} → r ∈ b.queries → r.parts ⊆ b.parts
  | .select _, _, h => Select.parts_of_mem_queries h
  | .parens _, _, h => by
      obtain rfl := List.mem_singleton.mp h
      exact List.Subset.refl _
  | .setOperation _ _ left right, _, h => by
      rcases List.mem_append.mp h with h | h
      · exact List.subset_append_of_subset_left _ (left.parts_of_mem_queries h)
      · exact List.subset_append_of_subset_right _ (right.parts_of_mem_queries h)
  | .values _ _, _, h => nomatch h
  | .defaultValues, _, h => nomatch h
  | .table _, _, h => nomatch h
  | .insert _, _, h => nomatch h
  | .update _, _, h => nomatch h

theorem Body.parts_of_mem_selects : (b : Body) → {s : Select} → s ∈ b.selects → s.parts ⊆ b.parts
  | .select _, _, h => by
      obtain rfl := List.mem_singleton.mp h
      exact List.Subset.refl _
  | .setOperation _ _ left right, _, h => by
      rcases List.mem_append.mp h with h | h
      · exact List.subset_append_of_subset_left _ (left.parts_of_mem_selects h)
      · exact List.subset_append_of_subset_right _ (right.parts_of_mem_selects h)
  | .parens _, _, h => nomatch h
  | .values _ _, _, h => nomatch h
  | .defaultValues, _, h => nomatch h
  | .table _, _, h => nomatch h
  | .insert _, _, h => nomatch h
  | .update _, _, h => nomatch h

/-- What stands in a query inside another one is met in a walk over that one. -/
theorem Query.parts_of_mem_queries {r : Query} (h : r ∈ q.queries) : r.parts ⊆ q.parts := by
  intro part hp
  obtain ⟨isRecursive, ctes, body, orderBy, limit, offset, offsetWord, fetch, locks⟩ := q
  simp only [Query.parts, List.mem_cons, List.mem_append]
  rcases List.mem_append.mp h with h | h
  · obtain ⟨c, hc, rfl⟩ := List.mem_map.mp h
    have hctes : part ∈ Cte.partsList ctes := by
      rw [Cte.partsList_eq]
      exact List.mem_flatMap.mpr ⟨c, hc, hp⟩
    simp only [hctes, true_or, or_true]
  · rcases List.mem_append.mp h with h | h
    · simp only [body.parts_of_mem_queries h hp, true_or, or_true]
    · have horder : part ∈ OrderItem.partsList orderBy := by
        rw [OrderItem.partsList_eq]
        exact Atom.parts_of_mem_queries h hp
      simp only [horder, true_or, or_true]

/-- All that stands in a query of a run is met in a walk over the whole query. -/
theorem Qualifier.Run.parts_subset {v : Visible} {root q' : Query} (h : x.Run root result v q q') :
    q.parts ⊆ root.parts := by
  induction h with
  | root => exact List.Subset.refl _
  | @nested v w q q' r r' i _ h₀ _ ih =>
    have hmem : r ∈ q.queries := by
      rw [← q.map_snd_nested (x := x) (v := v)]
      exact List.mem_map.mpr ⟨_, List.mem_of_getElem? h₀, rfl⟩
    exact List.Subset.trans (Query.parts_of_mem_queries hmem) ih

/-- A table of a select is one of the tables of the whole query. -/
theorem Qualifier.Run.mem_tableUses {v : Visible} {root q' : Query} (h : x.Run root result v q q')
    (hs : s ∈ q.body.selects) {name : ObjectName} {numbered : Bool} {label : Option TableAlias}
    {hints : List Expr} (hf : .table name numbered label hints ∈ s.factors) :
    ⟨label.map fun a => a.name.value, TableReference.ofObjectName name⟩ ∈ root.tableUses := by
  obtain ⟨i, hi⟩ := List.mem_iff_getElem?.mp hf
  have hpart : Part.table name label ∈ s.parts :=
    Select.factor_parts hi (by simp [TableFactor.parts])
  have hroot : Part.table name label ∈ root.parts :=
    h.parts_subset (q.body_parts.subset (q.body.parts_of_mem_selects hs hpart))
  exact List.mem_map.mpr ⟨(name, label), List.mem_filterMap.mpr ⟨_, hroot, rfl⟩, rfl⟩

end tables

/-! ## Columns under a name -/

variable {columns : List String}

namespace StarContext

/-- The columns that are filed under a name: those of the last table with known columns that has it
for an alias or for its own name. -/
def filed? (x : StarContext) (q : Query) (key : String) : Option (List String) :=
  q.tableUses.reverse.findSome? fun u => if key ∈ keys u then x.columns? u.reference else none

theorem find?_filed (key : String) (names : List String) (columns : List String) :
    ((names.map (·, columns)).reverse.find? fun e => e.1 = key).map Prod.snd =
      if key ∈ names then some columns else none := by
  induction names with
  | nil => rfl
  | cons name rest ih =>
    rw [List.map_cons, List.reverse_cons, List.find?_append, Option.map_or, ih]
    by_cases hrest : key ∈ rest
    · simp [hrest]
    · by_cases hname : name = key <;> simp [hrest, hname, eq_comm]

/-- What is found under a name are the columns of the last table there. -/
theorem get?_sources (x : StarContext) (q : Query) (key : String) :
    (x.sources q).get? key = x.filed? q key := by
  unfold sources filed? OrderedMap.ofList
  rw [OrderedMap.get?_insertAll, OrderedMap.get?_empty, Option.or_none, List.reverse_flatMap,
    List.find?_flatMap, List.map_findSome?]
  congr 1
  funext u
  simp only [Function.comp_apply]
  cases x.columns? u.reference with
  | none => simp
  | some columns => exact find?_filed key (keys u) columns

theorem exists_of_filed? {x : StarContext} {key : String} (h : x.filed? q key = some columns) :
    ∃ u ∈ q.tableUses, key ∈ keys u ∧ x.columns? u.reference = some columns := by
  obtain ⟨u, hu, hcolumns⟩ := List.exists_of_findSome?_eq_some h
  obtain ⟨hkey, hcolumns⟩ := Option.ite_none_right_eq_some.mp hcolumns
  exact ⟨u, List.mem_reverse.mp hu, hkey, hcolumns⟩

theorem filed?_ne_none {x : StarContext} {key : String} {u : TableUse} (hu : u ∈ q.tableUses)
    (hkey : key ∈ keys u) (h : x.columns? u.reference = some columns) : x.filed? q key ≠ none := by
  intro hnone
  have hstep := List.findSome?_eq_none_iff.mp hnone u (List.mem_reverse.mpr hu)
  rw [if_pos hkey, h] at hstep
  cases hstep

end StarContext

theorem Text.pairwise_ordered (texts : List String) : (Text.ordered texts).Pairwise (· ≤ ·) := by
  have hless : ∀ {a b : String}, ¬ Text.less b a ↔ a ≤ b := decide_eq_true_iff.not.trans not_lt
  refine (Text.pairwise_sortWith (fun a b h => ?_) (fun a b c hab hbc => ?_) texts).imp hless.mp
  · exact hless.mpr (of_decide_eq_true h).le
  · exact hless.mpr ((hless.mp hab).trans (hless.mp hbc))

theorem Text.ordered_eq_iff {a b : List String} : Text.ordered a = Text.ordered b ↔ a.Perm b := by
  constructor
  · intro h
    have hb : (Text.ordered a).Perm b := by
      rw [h]
      exact Text.sortWith_perm _ b
    exact (Text.sortWith_perm _ a).symm.trans hb
  · intro h
    exact List.Perm.eq_of_pairwise (fun c d _ _ hcd hdc => le_antisymm hcd hdc)
      (Text.pairwise_ordered a) (Text.pairwise_ordered b)
      ((Text.sortWith_perm _ a).trans (h.trans (Text.sortWith_perm _ b).symm))

variable {label : Ident}

/-- Tuples of columns are equal if the columns are, in whatever order. -/
theorem columnTuple_eq_iff {a b : List String} :
    columnTuple label a = columnTuple label b ↔ a.Perm b := by
  have hinjective : Function.Injective fun c : String => Expr.path [label, ⟨c, none⟩] := by
    intro c d h
    simpa using h
  unfold columnTuple
  rw [Expr.tuple.injEq, (List.map_injective_iff.mpr hinjective).eq_iff, Text.ordered_eq_iff]

theorem keepsCalls_expandStar (sources : OrderedMap String (List String)) :
    KeepsCalls (Argument.expandStar sources) := by
  have htuple : ∀ (label : Ident) (columns : List String),
      Expr.callArgumentsList (columns.map fun c => .path [label, ⟨c, none⟩]) = [] := by
    intro label columns
    induction columns with
    | nil => rfl
    | cons c rest ih => exact ih
  intro a
  unfold Argument.expandStar
  split
  · split
    · rfl
    · split
      · rfl
      · exact htuple _ _
  · rfl

/-! ## Tables of the catalog -/

/-- If the columns of a table with its full name are known, they are known of the table as it is
written. -/
theorem Qualifier.lookup?_of_known {name : ObjectName} (hn : name.parts ≠ [])
    (h : x.tableColumns (.ofObjectName (name.complete x.defaults)) = .known columns) :
    (x.catalog.lookup? (.ofObjectName name) x.defaults).map TableDefinition.columnNames =
      some columns := by
  rw [Qualifier.tableColumns, TableReference.ofObjectName_complete hn, Catalog.lookup?_complete] at h
  cases hfound : x.catalog.findTable? ((TableReference.ofObjectName name).complete x.defaults) with
  | none =>
    rw [hfound] at h
    cases h
  | some t =>
    rw [hfound] at h
    cases h
    rw [Catalog.lookup?_of_findTable? hfound]
    rfl

/-- What the stars in a query are looked up in: the catalog and all common tables of the query. -/
def Qualifier.stars (x : Qualifier) (root : Query) : StarContext :=
  ⟨x.catalog, x.defaults, root.cteColumns⟩

/-- A table that is taken for no common table: neither for one in view, nor by its bare name for one
anywhere in the query. -/
def TableFactor.IsBase (v : Visible) (root : Query) (factor : TableFactor) : Prop :=
  ∃ name numbered label hints, factor = .table name numbered label hints ∧ name.parts ≠ [] ∧
    v.cteOf? name = none ∧ ((TableReference.ofObjectName name).isBare →
      root.cteColumns.get? (Text.toLower (TableReference.ofObjectName name).name) = none)

/-- The columns of a table that is taken for no common table are filed under its label. -/
theorem Qualifier.Run.filed {v : Visible} {root q' : Query} (h : x.Run root result v q q')
    (hs : s ∈ q.body.selects) (hf : factor ∈ s.factors) {w : Visible} (hbase : factor.IsBase w root)
    (ho : factor.Offers x w ⟨label, .known columns⟩) :
    ∃ u ∈ root.tableUses, Text.toLower label.value ∈ StarContext.keys u ∧
      (x.stars root).columns? u.reference = some columns := by
  obtain ⟨name, numbered, own, hints, rfl, hn, hcte, hbare⟩ := hbase
  obtain ⟨hlabel, hcolumns⟩ := ho
  have hknown := hcolumns name numbered own hints rfl
  rw [hcte, Option.getD_none] at hknown
  refine ⟨_, h.mem_tableUses hs hf, ?_, ?_⟩
  · obtain rfl := Option.some.inj hlabel
    cases own with
    | some a => exact List.mem_cons_self
    | none =>
      refine List.mem_singleton.mpr ?_
      rw [TableReference.name_ofObjectName]
      rfl
  · have hnone : (if (TableReference.ofObjectName name).isBare then
        (x.stars root).cteColumns.get? (Text.toLower (TableReference.ofObjectName name).name)
        else none) = none := by
      split
      · rename_i hb
        exact hbare hb
      · rfl
    unfold StarContext.columns?
    rw [hnone]
    exact Qualifier.lookup?_of_known hn hknown.symm

/-- If an alias is given to tables of the catalog only, the columns of its source are filed under
it. -/
theorem Qualifier.Run.filed_source {v w : Visible} {root q' : Query} (h : x.Run root result v q q')
    (hs : s ∈ q.body.selects) {own : Ident}
    (hsource : (s.scope x w).get? label.value = some ⟨own, .known columns⟩)
    (hbase : ∀ factor ∈ s.factors, factor.label?.map (fun l => Text.toLower l.value) =
      some (Text.toLower label.value) → factor.IsBase w root) :
    ∃ u ∈ root.tableUses, Text.toLower label.value ∈ StarContext.keys u ∧
      (x.stars root).columns? u.reference = some columns := by
  obtain ⟨hkey, factor, hf, hoffers⟩ := s.scope_offeredBy x w _ _ hsource
  have hlabel : factor.label?.map (fun l => Text.toLower l.value) =
      some (Text.toLower label.value) := by
    rw [hoffers.1]
    exact congrArg some hkey
  rw [← hkey]
  exact h.filed hs hf (hbase factor hf hlabel) hoffers

/-! ## Stars -/

theorem Argument.changed_starOf (sources : OrderedMap String (List String)) {name : ObjectName}
    (hname : name.parts.getLast? = some label) :
    Argument.changed (Argument.expandStar sources) (.positional (.starOf name)) =
      .positional (((sources.get? (Text.toLower label.value)).map fun columns =>
        .expr (columnTuple label columns)).getD (.starOf name)) := by
  change Argument.expandStar sources (.positional (.starOf name)) = _
  rw [Argument.expandStar, hname]
  dsimp only
  cases sources.get? (Text.toLower label.value) <;> rfl

/-- A call in the items of a select has an argument `alias.*`, and the select has a source of that
alias with known columns. The argument becomes the tuple of these columns exactly if they are the
columns of the last table, anywhere in the whole query, that is filed under the alias. It stays
exactly if no table is filed there. If the alias is given to tables of the catalog only, it becomes
the tuple as long as no table elsewhere is filed under the alias with other columns. -/
theorem Query.expandStars_callArgument {x : Qualifier} {v : Visible} {root q q' : Query}
    (hrun : x.Run root (root.expandStars (x.stars root)) v q q') {j : Nat} {s s' : Select}
    (hs : q.body.selects[j]? = some s) (hs' : q'.body.selects[j]? = some s') {k : Nat}
    {name : ObjectName} {label : Ident}
    (hk : s.callArguments[k]? = some (.positional (.starOf name)))
    (hname : name.parts.getLast? = some label) {own : Ident} {columns : List String}
    (hsource : (s.scope x (q.inner x v)).get? label.value = some ⟨own, .known columns⟩) :
    ∃ a, s'.callArguments[k]? = some a ∧
      (a = .positional (.expr (columnTuple label columns)) ↔ ∃ found,
        (x.stars root).filed? root (Text.toLower label.value) = some found ∧
          found.Perm columns) ∧
      (a = .positional (.starOf name) ↔
        (x.stars root).filed? root (Text.toLower label.value) = none) ∧
      ((∀ factor ∈ s.factors, factor.label?.map (fun l => Text.toLower l.value) =
          some (Text.toLower label.value) → factor.IsBase (q.inner x v) root) →
        (∀ u ∈ root.tableUses, Text.toLower label.value ∈ StarContext.keys u →
          ∀ found, (x.stars root).columns? u.reference = some found → found.Perm columns) →
        a = .positional (.expr (columnTuple label columns))) := by
  have hsame := hrun.eq_mapArguments (keepsQueries_expandStar _)
  rw [hsame, q.body_mapArguments, q.body.selects_mapArguments, List.getElem?_map, hs] at hs'
  obtain rfl := Option.some.inj hs'
  have hbecomes := Argument.changed_starOf ((x.stars root).sources root) hname
  rw [StarContext.get?_sources] at hbecomes
  have htuple : (Argument.changed (Argument.expandStar ((x.stars root).sources root))
      (.positional (.starOf name)) = .positional (.expr (columnTuple label columns)) ↔ ∃ found,
        (x.stars root).filed? root (Text.toLower label.value) = some found ∧
          found.Perm columns) := by
    rw [hbecomes]
    cases (x.stars root).filed? root (Text.toLower label.value) with
    | none => simp
    | some found => simp [columnTuple_eq_iff]
  refine ⟨_, ?_, htuple, ?_, ?_⟩
  · rw [s.callArguments_mapArguments (keepsCalls_expandStar _), List.getElem?_map, hk]
    rfl
  · rw [hbecomes]
    cases (x.stars root).filed? root (Text.toLower label.value) <;> simp
  · intro hbase hothers
    obtain ⟨u, hu, hkey, hcolumns⟩ :=
      hrun.filed_source (List.mem_of_getElem? hs) hsource hbase
    obtain ⟨found, hfound⟩ :=
      Option.ne_none_iff_exists'.mp (StarContext.filed?_ne_none hu hkey hcolumns)
    obtain ⟨u', hu', hkey', hcolumns'⟩ := StarContext.exists_of_filed? hfound
    exact htuple.mpr ⟨found, hfound, hothers u' hu' hkey' found hcolumns'⟩

/-- A table under the alias `t`. -/
def tableT (name : String) : TableTree :=
  .mk (.table ⟨[⟨name, none⟩]⟩ false (some ⟨⟨"t", none⟩, []⟩) []) []

/-- `SELECT row_to_json(t.*) FROM base AS t WHERE EXISTS (SELECT NULL FROM inner AS t)` -/
def starSelect (inner : String) : Select :=
  { Select.plain
      [.expr (.call ⟨[⟨"row_to_json", none⟩]⟩
        (.list .unsaid [.positional (.starOf ⟨[⟨"t", none⟩]⟩)] [] none .unsaid none
          ⟨.unsaid, .unsaid⟩) none .unsaid .absent []) none]
      [tableT "base"] with
    filter := some (.existence false
      (.plain [] (.select (.plain [.expr (.literal .null) none] [tableT inner])))) }

def starQuery (inner : String) : Query :=
  .plain [] (.select (starSelect inner))

/-- A catalog with the tables `base` and `other`. -/
def starTables : Qualifier :=
  ⟨(Catalog.empty.addTable "w" "s" "base" [("b", "int"), ("a", "int")]).addTable
    "w" "s" "other" [("c", "int")], ⟨some "w", some "s"⟩⟩

/-- The star becomes the columns of its source if the inner query gives the alias to the same table,
but not if it gives the alias to another one. -/
theorem Query.expandStars_callArgument_shadowed :
    (∃ s', ((starQuery "base").expandStars (starTables.stars (starQuery "base"))).body.selects =
        [s'] ∧ s'.callArguments[0]? =
          some (.positional (.expr (columnTuple ⟨"t", none⟩ ["b", "a"])))) ∧
      ∃ s' a, ((starQuery "other").expandStars
          (starTables.stars (starQuery "other"))).body.selects = [s'] ∧
        s'.callArguments[0]? = some a ∧
        a ≠ .positional (.expr (columnTuple ⟨"t", none⟩ ["b", "a"])) := by
  have hsource : ∀ inner, ((starSelect inner).scope starTables
      ((starQuery inner).inner starTables {})).get? "t" =
        some ⟨⟨"t", none⟩, .known ["b", "a"]⟩ := fun _ => rfl
  have hrun : ∀ inner, starTables.Run (starQuery inner)
      ((starQuery inner).expandStars (starTables.stars (starQuery inner))) {} (starQuery inner)
      ((starQuery inner).expandStars (starTables.stars (starQuery inner))) := fun _ => .root
  constructor
  · obtain ⟨a, ha, -, -, hbase⟩ :=
      Query.expandStars_callArgument (hrun "base") (j := 0) rfl rfl (k := 0) rfl rfl
        (hsource "base")
    refine ⟨_, rfl, ha.trans (congrArg some (hbase ?_ ?_))⟩
    · intro factor hf _
      obtain rfl := List.mem_singleton.mp hf
      exact ⟨_, _, _, _, rfl, List.cons_ne_nil _ _, rfl, fun _ => rfl⟩
    · intro u hu _ found hfound
      have huses : (starQuery "base").tableUses =
          List.replicate 2 ⟨some "t", ⟨none, none, "base"⟩⟩ := rfl
      rw [huses] at hu
      obtain rfl := List.eq_of_mem_replicate hu
      obtain rfl : found = ["b", "a"] := Option.some.inj (hfound.symm.trans rfl)
      exact .refl _
  · obtain ⟨a, ha, htuple, -, -⟩ :=
      Query.expandStars_callArgument (hrun "other") (j := 0) rfl rfl (k := 0) rfl rfl
        (hsource "other")
    refine ⟨_, a, rfl, ha, fun h => ?_⟩
    obtain ⟨found, hfound, hperm⟩ := htuple.mp h
    have hlast : (starTables.stars (starQuery "other")).filed? (starQuery "other") "t" =
        some ["c"] := rfl
    obtain rfl : found = ["c"] := Option.some.inj (hfound.symm.trans hlast)
    exact absurd hperm.length_eq (by decide)

end ColumnLineage
