import ColumnLineage.Proofs.StarSources

/-!
# What the expansion of stars leaves alone

A change of the arguments of calls keeps everything else in a query. Stars give way to tuples of
columns, which hold neither calls nor queries; so a second expansion finds nothing to do, and a
query has the same tables, common tables and output columns as before.
-/

set_option linter.unusedSectionVars false

namespace ColumnLineage

/-! ## One change behind another -/

/-- For a change `m` inside something: `f` and then `h` is `k`, and no change of arguments is no
change at all. -/
def Twice {α : Type} (m : (Argument → Argument) → α → α) (f h k : Argument → Argument) (x : α) :
    Prop :=
  m h (m f x) = m k x ∧ m id x = x

/-- An argument in which `f` and then `h` is `k` becomes the same by both ways. -/
def Composes (f h k : Argument → Argument) : Prop :=
  ∀ a : Argument, (a.mapArguments f).mapArguments h = a.mapArguments k →
    h ((f (a.mapArguments f)).mapArguments h) = k (a.mapArguments k)

section both

variable {α β γ δ ε : Type} {a a' b b' : α} {c c' d d' : β} {e e' i i' : γ} {j j' l l' : δ}

theorem both {m m' n n' : α → β} (h : m = m' ∧ n = n') (ha : a = a' ∧ b = b') :
    m a = m' a' ∧ n b = n' b' :=
  ⟨congr h.1 ha.1, congr h.2 ha.2⟩

theorem both₁ (m : α → ε) (ha : a = a' ∧ b = b') : m a = m a' ∧ m b = m b' :=
  both ⟨rfl, rfl⟩ ha

theorem both₂ (m : α → β → ε) (ha : a = a' ∧ b = b') (hc : c = c' ∧ d = d') :
    m a c = m a' c' ∧ m b d = m b' d' :=
  both (both₁ m ha) hc

theorem both₃ (m : α → β → γ → ε) (ha : a = a' ∧ b = b') (hc : c = c' ∧ d = d')
    (he : e = e' ∧ i = i') : m a c e = m a' c' e' ∧ m b d i = m b' d' i' :=
  both (both₂ m ha hc) he

theorem both₄ (m : α → β → γ → δ → ε) (ha : a = a' ∧ b = b') (hc : c = c' ∧ d = d')
    (he : e = e' ∧ i = i') (hj : j = j' ∧ l = l') :
    m a c e j = m a' c' e' j' ∧ m b d i l = m b' d' i' l' :=
  both (both₃ m ha hc he) hj

end both

section walk

variable {f h k : Argument → Argument} (hf : Composes f h k)

include hf

theorem Argument.twice_items : {items : List Argument} →
    Twice Argument.mapArgumentsList f h k items →
    (Argument.mapArgumentsList h ((Argument.mapArgumentsList f items).map f)).map h =
        (Argument.mapArgumentsList k items).map k ∧
      (Argument.mapArgumentsList id items).map id = items
  | [], _ => ⟨rfl, rfl⟩
  | a :: _, ht => by
      obtain ⟨ha, hrest⟩ := List.cons.inj ht.1
      obtain ⟨hid, hid'⟩ := List.cons.inj ht.2
      exact both₂ List.cons ⟨hf a ha, hid⟩ (Argument.twice_items ⟨hrest, hid'⟩)

mutual

theorem Expr.twice : (x : Expr) → Twice Expr.mapArguments f h k x
  | .column _ | .path _ | .rowOf _ | .literal _ => ⟨rfl, rfl⟩
  | .unary form operand => both₁ (Expr.unary form) operand.twice
  | .binary form left right => both₂ (Expr.binary form) left.twice right.twice
  | .between negated e low high => both₃ (Expr.between negated) e.twice low.twice high.twice
  | .substring commaStyle e start length =>
      both₃ (Expr.substring commaStyle) e.twice (Expr.twiceOption start) (Expr.twiceOption length)
  | .trim side e characters => both₂ (Expr.trim side) e.twice (Expr.twiceOption characters)
  | .overlay e new start length =>
      both₄ Expr.overlay e.twice new.twice start.twice (Expr.twiceOption length)
  | .cases operand conditions results otherwise =>
      both₄ Expr.cases (Expr.twiceOption operand) (Expr.twiceList conditions)
        (Expr.twiceList results) (Expr.twiceOption otherwise)
  | .tuple items => both₁ Expr.tuple (Expr.twiceList items)
  | .slice e lower upper stride =>
      both₄ Expr.slice e.twice (Expr.twiceOption lower) (Expr.twiceOption upper)
        (Expr.twiceOption stride)
  | .array named items => both₁ (Expr.array named) (Expr.twiceList items)
  | .grouping kind sets => both₁ (Expr.grouping kind) (Expr.twiceLists sets)
  | .inList negated e items => both₂ (Expr.inList negated) e.twice (Expr.twiceList items)
  | .inQuery negated e query => both₂ (Expr.inQuery negated) e.twice query.twice
  | .existence negated query => both₁ (Expr.existence negated) query.twice
  | .scalar query => both₁ Expr.scalar query.twice
  | .call name arguments filter nulls window withinGroup =>
      both₄ (fun a b c d => Expr.call name a b nulls c d) arguments.twice (Expr.twiceOption filter)
        window.twice (OrderItem.twiceList withinGroup)

theorem Expr.twiceList : (x : List Expr) → Twice Expr.mapArgumentsList f h k x
  | [] => ⟨rfl, rfl⟩
  | e :: es => both₂ List.cons e.twice (Expr.twiceList es)

theorem Expr.twiceLists : (x : List (List Expr)) → Twice Expr.mapArgumentsLists f h k x
  | [] => ⟨rfl, rfl⟩
  | es :: ess => both₂ List.cons (Expr.twiceList es) (Expr.twiceLists ess)

theorem Expr.twiceOption : (x : Option Expr) → Twice Expr.mapArgumentsOption f h k x
  | none => ⟨rfl, rfl⟩
  | some e => both₁ some e.twice

theorem Arguments.twice : (x : Arguments) → Twice Arguments.mapArguments f h k x
  | .absent => ⟨rfl, rfl⟩
  | .query query => both₁ Arguments.query query.twice
  | .list duplicates items orderBy limit overflow filler nulls =>
      both₄ (fun a b c d => Arguments.list duplicates a b c overflow d nulls)
        (Argument.twice_items hf (Argument.twiceList items)) (OrderItem.twiceList orderBy)
        (Expr.twiceOption limit) (Expr.twiceOption filler)

theorem Argument.twice : (x : Argument) → Twice Argument.mapArguments f h k x
  | .positional value => both₁ Argument.positional value.twice
  | .named name sign value => both₂ (fun a b => Argument.named a sign b) name.twice value.twice

theorem Argument.twiceList : (x : List Argument) → Twice Argument.mapArgumentsList f h k x
  | [] => ⟨rfl, rfl⟩
  | a :: as => both₂ List.cons a.twice (Argument.twiceList as)

theorem ArgumentValue.twice : (x : ArgumentValue) → Twice ArgumentValue.mapArguments f h k x
  | .expr e => both₁ ArgumentValue.expr e.twice
  | .star | .starOf _ => ⟨rfl, rfl⟩

theorem OrderItem.twice : (x : OrderItem) → Twice OrderItem.mapArguments f h k x
  | .mk e ascending nullsFirst => both₁ (fun a => OrderItem.mk a ascending nullsFirst) e.twice

theorem OrderItem.twiceList : (x : List OrderItem) → Twice OrderItem.mapArgumentsList f h k x
  | [] => ⟨rfl, rfl⟩
  | o :: os => both₂ List.cons o.twice (OrderItem.twiceList os)

theorem Window.twice : (x : Window) → Twice Window.mapArguments f h k x
  | .absent | .named _ => ⟨rfl, rfl⟩
  | .spec base partitionBy orderBy frame =>
      both₃ (Window.spec base) (Expr.twiceList partitionBy) (OrderItem.twiceList orderBy)
        frame.twice

theorem Frame.twice : (x : Frame) → Twice Frame.mapArguments f h k x
  | .absent => ⟨rfl, rfl⟩
  | .start unit first => both₁ (Frame.start unit) first.twice
  | .span unit first last => both₂ (Frame.span unit) first.twice last.twice

theorem Bound.twice : (x : Bound) → Twice Bound.mapArguments f h k x
  | .currentRow => ⟨rfl, rfl⟩
  | .preceding rows => both₁ Bound.preceding (Expr.twiceOption rows)
  | .following rows => both₁ Bound.following (Expr.twiceOption rows)

theorem Query.twice : (x : Query) → Twice Query.mapArguments f h k x
  | ⟨isRecursive, ctes, body, orderBy, limit, offset, offsetWord, fetch, locks⟩ =>
      both (both₄ (fun a b c d e => Query.mk isRecursive a b c d e offsetWord fetch locks)
        (Cte.twiceList ctes) body.twice (OrderItem.twiceList orderBy) (Expr.twiceOption limit))
        (Expr.twiceOption offset)

theorem Cte.twice : (x : Cte) → Twice Cte.mapArguments f h k x
  | .mk label materialized query source =>
      both₁ (fun a => Cte.mk label materialized a source) query.twice

theorem Cte.twiceList : (x : List Cte) → Twice Cte.mapArgumentsList f h k x
  | [] => ⟨rfl, rfl⟩
  | c :: cs => both₂ List.cons c.twice (Cte.twiceList cs)

theorem Body.twice : (x : Body) → Twice Body.mapArguments f h k x
  | .select s => both₁ Body.select s.twice
  | .parens query => both₁ Body.parens query.twice
  | .setOperation op quantifier left right =>
      both₂ (Body.setOperation op quantifier) left.twice right.twice
  | .values explicitRow rows => both₁ (Body.values explicitRow) (Expr.twiceLists rows)
  | .defaultValues | .table _ => ⟨rfl, rfl⟩
  | .insert i => both₁ Body.insert i.twice
  | .update u => both₁ Body.update u.twice

theorem Insert.twice : (x : Insert) → Twice Insert.mapArguments f h k x
  | ⟨alternative, overwrite, into, named, table, label, columns, source, partition, conflict,
    assignments, filter, returning⟩ =>
      both (both₄
        (fun a b => Insert.mk alternative overwrite into named table label columns a b conflict)
        source.twice (Expr.twiceList partition) (Assignment.twiceList assignments)
        (Expr.twiceOption filter)) (SelectItem.twiceList returning)

theorem Assignment.twice : (x : Assignment) → Twice Assignment.mapArguments f h k x
  | .mk target value => both₁ (Assignment.mk target) value.twice

theorem Assignment.twiceList : (x : List Assignment) → Twice Assignment.mapArgumentsList f h k x
  | [] => ⟨rfl, rfl⟩
  | a :: as => both₂ List.cons a.twice (Assignment.twiceList as)

theorem Update.twice : (x : Update) → Twice Update.mapArguments f h k x
  | ⟨alternative, table, assignments, sources, filter, returning⟩ =>
      both (both₄ (Update.mk alternative) table.twice (Assignment.twiceList assignments)
        (TableTree.twiceList sources) (Expr.twiceOption filter)) (SelectItem.twiceList returning)

theorem Select.twice : (x : Select) → Twice Select.mapArguments f h k x
  | ⟨distinct, top, topCount, items, into, sources, lateralViews, lateralRows, filter, groupBy,
    clusterBy, distributeBy, sortBy, having, windows, windowFilter, windowsFirst⟩ =>
      both (both (both (both (both (both (both (both (both (both₄
        (fun a b c d e g i j l m n o p =>
          Select.mk a top b c into d lateralViews e g i j l m n o p windowsFirst)
        distinct.twice (Expr.twiceOption topCount) (SelectItem.twiceList items)
        (TableTree.twiceList sources)) (Expr.twiceList lateralRows)) (Expr.twiceOption filter))
        groupBy.twice) (Expr.twiceList clusterBy)) (Expr.twiceList distributeBy))
        (Expr.twiceList sortBy)) (Expr.twiceOption having)) (NamedWindow.twiceList windows))
        (Expr.twiceOption windowFilter)

theorem Distinct.twice : (x : Distinct) → Twice Distinct.mapArguments f h k x
  | .unsaid | .rows => ⟨rfl, rfl⟩
  | .on keys => both₁ Distinct.on (Expr.twiceList keys)

theorem SelectItem.twice : (x : SelectItem) → Twice SelectItem.mapArguments f h k x
  | .expr e label => both₁ (fun a => SelectItem.expr a label) e.twice
  | .star | .starOf _ => ⟨rfl, rfl⟩

theorem SelectItem.twiceList : (x : List SelectItem) → Twice SelectItem.mapArgumentsList f h k x
  | [] => ⟨rfl, rfl⟩
  | i :: is => both₂ List.cons i.twice (SelectItem.twiceList is)

theorem GroupBy.twice : (x : GroupBy) → Twice GroupBy.mapArguments f h k x
  | .keys keys => both₁ GroupBy.keys (Expr.twiceList keys)
  | .all => ⟨rfl, rfl⟩

theorem NamedWindow.twice : (x : NamedWindow) → Twice NamedWindow.mapArguments f h k x
  | .mk name window => both₁ (NamedWindow.mk name) window.twice

theorem NamedWindow.twiceList : (x : List NamedWindow) → Twice NamedWindow.mapArgumentsList f h k x
  | [] => ⟨rfl, rfl⟩
  | w :: ws => both₂ List.cons w.twice (NamedWindow.twiceList ws)

theorem TableTree.twice : (x : TableTree) → Twice TableTree.mapArguments f h k x
  | .mk first joins => both₂ TableTree.mk first.twice (Join.twiceList joins)

theorem TableTree.twiceList : (x : List TableTree) → Twice TableTree.mapArgumentsList f h k x
  | [] => ⟨rfl, rfl⟩
  | t :: ts => both₂ List.cons t.twice (TableTree.twiceList ts)

theorem Join.twice : (x : Join) → Twice Join.mapArguments f h k x
  | .mk isGlobal kind factor matching condition =>
      both₃ (Join.mk isGlobal kind) factor.twice (Expr.twiceOption matching) condition.twice

theorem Join.twiceList : (x : List Join) → Twice Join.mapArgumentsList f h k x
  | [] => ⟨rfl, rfl⟩
  | j :: js => both₂ List.cons j.twice (Join.twiceList js)

theorem JoinCondition.twice : (x : JoinCondition) → Twice JoinCondition.mapArguments f h k x
  | .absent => ⟨rfl, rfl⟩
  | .on e => both₁ JoinCondition.on e.twice
  | .using _ | .natural => ⟨rfl, rfl⟩

theorem TableFactor.twice : (x : TableFactor) → Twice TableFactor.mapArguments f h k x
  | .table name numbered label hints =>
      both₁ (TableFactor.table name numbered label) (Expr.twiceList hints)
  | .tableFunction name arguments numbered label hints =>
      both₂ (fun a b => TableFactor.tableFunction name a numbered label b)
        (Argument.twiceList arguments) (Expr.twiceList hints)
  | .lateralFunction name arguments label =>
      both₁ (fun a => TableFactor.lateralFunction name a label) (Argument.twiceList arguments)
  | .tableOf e label => both₁ (fun a => TableFactor.tableOf a label) e.twice
  | .unnest arrays numbered label offset =>
      both₁ (fun a => TableFactor.unnest a numbered label offset) (Expr.twiceList arrays)
  | .derived lateral query label => both₁ (fun a => TableFactor.derived lateral a label) query.twice
  | .nested tables label => both₁ (fun a => TableFactor.nested a label) tables.twice
  | .document opening e rest label =>
      both₁ (fun a => TableFactor.document opening a rest label) e.twice
  | .pivot table aggregates column values otherwise label =>
      both₄ (fun a b c d => TableFactor.pivot a b column c d label) table.twice
        (SelectItem.twiceList aggregates) values.twice (Expr.twiceOption otherwise)
  | .unpivot table value name columns label =>
      both₁ (fun a => TableFactor.unpivot a value name columns label) table.twice

theorem PivotValues.twice : (x : PivotValues) → Twice PivotValues.mapArguments f h k x
  | .list items => both₁ PivotValues.list (SelectItem.twiceList items)
  | .any orderBy => both₁ PivotValues.any (OrderItem.twiceList orderBy)
  | .query query => both₁ PivotValues.query query.twice

end

end walk

/-! ## Stars and tuples -/

/-- An argument `alias.*` with columns under its alias, and the tuple of these columns in ascending
order. -/
inductive Argument.Expands (sources : OrderedMap String (List String)) : Argument → Argument → Prop
  | star {name : ObjectName} {label : Ident} {columns tuple : List String}
    (hname : name.parts.getLast? = some label)
    (hcolumns : sources.get? (Text.toLower label.value) = some columns)
    (hperm : tuple.Perm columns) (hsorted : tuple.Pairwise (· ≤ ·)) :
    Expands sources (.positional (.starOf name))
      (.positional (.expr (.tuple (tuple.map fun c => .path [label, ⟨c, none⟩]))))

section stars

variable {sources : OrderedMap String (List String)} {a a' : Argument} {h : Argument → Argument}

/-- An argument becomes the tuple of its columns, or stays if there is none. -/
theorem Argument.expandStar_cases (sources : OrderedMap String (List String)) (a : Argument) :
    Argument.Expands sources a (a.expandStar sources) ∨
      a.expandStar sources = a ∧ ∀ a', ¬ Argument.Expands sources a a' := by
  unfold Argument.expandStar
  split
  · split
    · rename_i hnone
      refine .inr ⟨rfl, fun a' ha => ?_⟩
      cases ha with
      | star hname => cases hnone.symm.trans hname
    · rename_i label hlabel
      split
      · rename_i hnone
        refine .inr ⟨rfl, fun a' ha => ?_⟩
        cases ha with
        | star hname hcolumns =>
          obtain rfl := Option.some.inj (hlabel.symm.trans hname)
          cases hnone.symm.trans hcolumns
      · rename_i columns hcolumns
        exact .inl (.star hlabel hcolumns (Text.sortWith_perm _ columns)
          (Text.pairwise_ordered columns))
  · rename_i hnot
    refine .inr ⟨rfl, fun a' ha => ?_⟩
    cases ha
    exact hnot _ rfl

theorem Argument.Expands.fixed (ha : Argument.Expands sources a a') (h : Argument → Argument) :
    a.mapArguments h = a ∧ a'.mapArguments h = a' := by
  obtain ⟨-, -, -, -⟩ := ha
  rename_i label columns tuple
  have htuple : Expr.mapArgumentsList h (tuple.map fun c => .path [label, ⟨c, none⟩]) =
      tuple.map fun c => .path [label, ⟨c, none⟩] := by
    induction tuple with
    | nil => rfl
    | cons c rest ih => exact congrArg (_ :: ·) ih
  exact ⟨rfl, congrArg (fun items => Argument.positional (.expr (.tuple items))) htuple⟩

theorem Argument.Expands.settled (ha : Argument.Expands sources a a') :
    ∀ b, ¬ Argument.Expands sources a' b := by
  obtain ⟨-, -, -, -⟩ := ha
  intro b hb
  cases hb

theorem composes_of_blind (hh : ∀ a a', Argument.Expands sources a a' → h a' = h a) :
    Composes (Argument.expandStar sources) h h := by
  intro a ha
  rw [← ha]
  rcases Argument.expandStar_cases sources (a.mapArguments (Argument.expandStar sources)) with
    hb | ⟨hb, -⟩
  · rw [(hb.fixed h).1, (hb.fixed h).2, hh _ _ hb]
  · rw [hb]

theorem composes_of_settled (hh : ∀ a, (∀ a', ¬ Argument.Expands sources a a') → h a = a) :
    Composes (Argument.expandStar sources) h (Argument.expandStar sources) := by
  intro a ha
  rcases Argument.expandStar_cases sources (a.mapArguments (Argument.expandStar sources)) with
    hb | ⟨hb, hnot⟩
  · rw [(hb.fixed h).2]
    exact hh _ hb.settled
  · rw [hb, ha]
    exact hh _ hnot

end stars

/-! ## Queries -/

theorem Expr.outputName?_mapArguments {f : Argument → Argument} (e : Expr) :
    (e.mapArguments f).outputName? = e.outputName? := by
  cases e with
  | unary form operand =>
    have ih := operand.outputName?_mapArguments (f := f)
    cases form <;> first | exact ih | rfl
  | _ => rfl
termination_by structural e

theorem Select.outputNames_mapArguments {f : Argument → Argument} (s : Select) :
    (s.mapArguments f).outputNames = s.outputNames := by
  have hitems : ∀ (items : List SelectItem) (index : Nat),
      SelectItem.outputNames index (SelectItem.mapArgumentsList f items) =
        SelectItem.outputNames index items := by
    intro items
    induction items with
    | nil => exact fun _ => rfl
    | cons i rest ih =>
      intro index
      refine congrArg₂ List.cons ?_ (ih (index + 1))
      cases i with
      | expr e label =>
        cases label with
        | none =>
          exact congrArg (fun name : Option Ident =>
            some ((name.map Ident.value).getD (positionName index))) e.outputName?_mapArguments
        | some label => rfl
      | _ => rfl
  cases s
  exact hitems _ 0

/-- All selects in a query, at any depth. -/
def Query.allSelects (q : Query) : List Select :=
  q.parts.flatMap fun
    | .query inner => inner.body.selects
    | .table _ _ => []

theorem Query.outputNames_mapArguments {f : Argument → Argument} (hf : KeepsQueries f) (q : Query) :
    (q.mapArguments f).allSelects.map Select.outputNames =
      q.allSelects.map Select.outputNames := by
  have hall : ∀ (s : Surroundings) (q : Query), (q.mapArguments f).allSelects.map
      Select.outputNames = q.allSelects.map Select.outputNames := by
    intro s q
    induction s, q using Query.standing_induction with
    | h s q ih =>
      unfold Query.allSelects
      rw [Query.parts_eq_standing s (q.mapArguments f), q.parts_eq_standing s, List.flatMap_cons,
        List.flatMap_cons, List.map_append, List.map_append, q.standing_mapArguments hf]
      unfold Standing.parts
      rw [List.flatMap_map, List.flatMap_assoc, List.flatMap_assoc, List.map_flatMap,
        List.map_flatMap]
      congr 1
      · change (q.mapArguments f).body.selects.map _ = q.body.selects.map _
        rw [q.body_mapArguments, q.body.selects_mapArguments, List.map_map]
        exact List.map_congr_left fun s _ => s.outputNames_mapArguments
      · refine List.flatMap_congr fun t ht => ?_
        obtain ⟨around, part⟩ := t
        cases part with
        | table name label => rfl
        | query r => exact ih _ ht r rfl
  exact hall .outside q

theorem Query.tableUses_expandStars (q : Query) (x : StarContext) :
    (q.expandStars x).tableUses = q.tableUses := by
  unfold Query.tableUses
  rw [Query.allTables_eq_reads .outside, Query.allTables_eq_reads .outside, Query.reads_expandStars]

/-- The expansion of stars is done once and for all; it keeps the tables, the common tables and the
output columns of every select. No change of arguments that treats each star with known columns like
the tuple of these columns can tell the query from what it was, and none that changes nothing but
such stars finds one: so it differs from what it was in these arguments and in nothing else. -/
theorem Query.expandStars_frame (q : Query) (x : StarContext) :
    (q.expandStars x).expandStars x = q.expandStars x ∧
      (q.expandStars x).tableUses = q.tableUses ∧ (q.expandStars x).cteNames = q.cteNames ∧
      (q.expandStars x).allSelects.map Select.outputNames =
        q.allSelects.map Select.outputNames ∧
      (∀ h : Argument → Argument, (∀ a a', Argument.Expands (x.sources q) a a' → h a' = h a) →
        (q.expandStars x).mapArguments h = q.mapArguments h) ∧
      (∀ h : Argument → Argument, (∀ a, (∀ a', ¬ Argument.Expands (x.sources q) a a') → h a = a) →
        (q.expandStars x).mapArguments h = q.expandStars x) ∧
      q.mapArguments id = q := by
  have hsettled : ∀ h : Argument → Argument,
      (∀ a, (∀ a', ¬ Argument.Expands (x.sources q) a a') → h a = a) →
        (q.expandStars x).mapArguments h = q.expandStars x :=
    fun h hh => (Query.twice (composes_of_settled hh) q).1
  have hsources : x.sources (q.expandStars x) = x.sources q := by
    unfold StarContext.sources
    rw [q.tableUses_expandStars]
  refine ⟨?_, q.tableUses_expandStars x, q.cteNames_expandStars x,
    q.outputNames_mapArguments (keepsQueries_expandStar _),
    fun h hh => (Query.twice (composes_of_blind hh) q).1, hsettled,
    (Query.twice (@composes_of_settled (x.sources q) id fun _ _ => rfl) q).2⟩
  rw [Query.expandStars, hsources]
  refine hsettled _ fun a ha => ?_
  rcases Argument.expandStar_cases (x.sources q) a with hb | ⟨hb, -⟩
  · exact absurd hb (ha _)
  · exact hb

end ColumnLineage
