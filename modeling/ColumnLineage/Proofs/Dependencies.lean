import ColumnLineage.Analysis.Statement
import ColumnLineage.Proofs.GraphFold
import ColumnLineage.Proofs.Plans

/-!
# Lineage stays within dependencies

The tables that a statement depends on are found by a walk over the whole query, the lineage of
its columns by a builder that goes from source to source. Every table that the builder meets is
one that the walk meets too.

* `AnalysisContext.lineage_within_dependencies`: each column that lineage names belongs to a table
  that the statement depends on.
-/

namespace ColumnLineage

/-! ## The tables that are met -/

/-- A table is a source of the select that a body is. -/
def PlacedBody.Reads (b : PlacedBody) (r : TableReference) : Prop :=
  ∃ s key label, b.opened.body = .select s ∧
    (key, label, .table r) ∈ (sourceMap b.opened.place b.opened.ctes s).entries

variable {b : PlacedBody} {catalog : Catalog} {r : TableReference}

theorem PlacedBody.Seeks.reads {target : Target} {name : String}
    (h : b.Seeks catalog target (.leaf name (.table r))) : b.Reads r := by
  cases h with
  | read hb hr hw =>
    unfold SelectView.wanted at hw
    split at hw <;> cases hw
    obtain ⟨key, hm⟩ := SelectView.mem_of_sourceOf? ‹_›
    exact ⟨_, key, _, hb, hm⟩

variable {q : Query}

/-- A node of a table comes from a select that is visited and has the table as a source. -/
theorem Query.table_of_run {target : Target} {limit root : Nat} {draft : Draft}
    (h : columnWithin catalog limit (limit + 1) (q.placed [] []) target {} = .ok (root, draft))
    {id : Nat} {node : Node} (hn : draft.nodes[id]? = some node) (ho : node.origin = .table r) :
    ∃ b, q.Visits b ∧ b.Reads r := by
  obtain ⟨hkeyed, hfinished⟩ := finished_of_run (hereditary_visits q) .refl h
  obtain ⟨key, hk⟩ := hkeyed.surjective (Array.getElem?_eq_some_iff.mp hn).1
  obtain ⟨name, origin, sources, ids, hplanned, hnode, -⟩ := hfinished hk
  obtain rfl : node = _ := Option.some.inj (hn.symm.trans hnode)
  cases hplanned with
  | own n hv hp => cases hp <;> cases ho
  | leaf hv hp hw =>
    subst ho
    exact ⟨_, hv, (hp.seeks hw).reads⟩

/-- A table in the `FROM` clause of a visited select is a table of the query. -/
theorem Query.Visits.factor_mem_tableUses (h : q.Visits b) {s : Select}
    (ho : b.opened.body = .select s) {i : Nat} {name : ObjectName} {numbered : Bool}
    {label : Option TableAlias} {hints : List Expr}
    (hf : s.factors[i]? = some (.table name numbered label hints)) :
    ⟨label.map fun a => a.name.value, TableReference.ofObjectName name⟩ ∈ q.tableUses := by
  obtain ⟨spot, hspot⟩ := h.follows
  have hopened := hspot.opened
  have hparts := (Query.within_of_at? hopened.at_place).parts
  rw [hopened.body_eq, ho] at hparts
  have hpart : Part.table name label ∈ q.parts := by
    refine hparts (Select.factor_parts hf ?_)
    rw [TableFactor.parts]
    exact List.mem_cons_self
  exact List.mem_map.mpr ⟨(name, label), List.mem_filterMap.mpr ⟨_, hpart, rfl⟩, rfl⟩

/-- A table that is a source of a visited select is a table of the query, known by the alias of the
source. -/
theorem Query.Visits.exists_tableUse (h : q.Visits b) {s : Select} (ho : b.opened.body = .select s)
    {key label : String}
    (hm : (key, label, .table r) ∈ (sourceMap b.opened.place b.opened.ctes s).entries) :
    ∃ u ∈ q.tableUses, u.reference = r ∧ u.knownAs = label := by
  obtain ⟨i, factor, hf, hs, -⟩ := mem_sourceMap hm
  cases factor with
  | table name numbered label' hints =>
    have hu := h.factor_mem_tableUses ho hf
    simp only [sourceOf?] at hs
    split at hs <;> cases hs
    exact ⟨_, hu, rfl, rfl⟩
  | _ => simp [sourceOf?] at hs

/-- A table that a visited body reads is a table of the query. -/
theorem Query.Visits.mem_tableUses (h : q.Visits b) (hr : b.Reads r) :
    ∃ u ∈ q.tableUses, u.reference = r := by
  obtain ⟨s, key, label, ho, hm⟩ := hr
  obtain ⟨u, hu, href, -⟩ := h.exists_tableUse ho hm
  exact ⟨u, hu, href⟩

/-- A node of a table in the graph of a query stands for a table of the query. -/
theorem Query.tableUse_of_node {target : Target} {limit root : Nat} {draft : Draft}
    (h : columnWithin catalog limit (limit + 1) (q.placed [] []) target {} = .ok (root, draft))
    {d : Defaults} {id : Nat}
    (ho : ((q.traceContext d limit ⟨draft.nodes, root⟩).node id).origin = .table r) :
    ∃ u ∈ q.tableUses, u.reference = r := by
  cases hn : draft.nodes[id]? with
  | none => simp [TraceContext.node, Query.traceContext, hn] at ho
  | some node =>
    have ho' : node.origin = .table r := by
      simpa [TraceContext.node, Query.traceContext, hn] using ho
    obtain ⟨b, hv, hb⟩ := Query.table_of_run h hn ho'
    exact hv.mem_tableUses hb

/-! ## Lineage and dependencies -/

/-- A text names a column of a base table of a query. -/
def Query.NamesColumn (q : Query) (d : Defaults) (s : String) : Prop :=
  ∃ u ∈ q.baseTables, ∃ column, s = (FullName.resolve u.reference d).column column

theorem Query.namesColumn_of_terminal {column : String} {limit : Nat} {g : Graph}
    (h : q.lineageGraph catalog column limit = .ok g) {d : Defaults} {id : Nat} {s : String}
    (hs : (q.traceContext d limit g).terminal? ((q.traceContext d limit g).node id) = some s) :
    q.NamesColumn d s := by
  obtain ⟨⟨root, draft⟩, hrun, hg⟩ := bind_eq_ok.mp h
  obtain rfl := pure_eq_ok.mp hg
  unfold TraceContext.terminal? at hs
  split at hs
  · rename_i r hk
    cases hs
    obtain ⟨ho, hr⟩ := Node.kind_eq_base.mp hk
    obtain ⟨u, hu, rfl⟩ := Query.tableUse_of_node hrun ho
    refine ⟨u, List.mem_filter.mpr ⟨hu, ?_⟩, _, rfl⟩
    simpa [Query.traceContext] using hr
  · obtain ⟨⟨label, column⟩, -, hs⟩ := Option.bind_eq_some_iff.mp hs
    obtain ⟨f, hf, rfl⟩ := Option.map_eq_some_iff.mp hs
    have hm := OrderedMap.mem_of_mem_ofList (OrderedMap.mem_of_get?_eq_some hf)
    obtain ⟨u, hu, he⟩ := List.mem_map.mp hm
    obtain ⟨-, rfl⟩ := Prod.mk.inj he
    exact ⟨u, hu, column, rfl⟩
  · cases hs

/-- All that a trace finds are columns of base tables of the query. -/
theorem Query.namesColumn_of_trace {d : Defaults} {limit : Nat} {column : String}
    {found : List String} (h : q.trace catalog d limit column = .ok found) {s : String}
    (hs : s ∈ found) : q.NamesColumn d s := by
  obtain ⟨g, hg, ht⟩ := Query.traced_of_trace h
  obtain ⟨id, hid⟩ := ((ht.mem_iff s).mp hs).exists_terminal
  exact Query.namesColumn_of_terminal hg hid

namespace AnalysisContext

theorem mem_addColumn {x : AnalysisContext} {found : TableLineage × List StatementError}
    {column c : String} {sources : List String}
    (h : (c, sources) ∈ (x.addColumn q found column).1.columns.entries) :
    (c, sources) ∈ found.1.columns.entries ∨ x.trace q column = .ok sources := by
  unfold addColumn at h
  split at h
  · exact Or.inl h
  · rename_i sources' hne ht
    rcases mem_of_mem_putEntry h with he | he
    · obtain ⟨-, rfl⟩ := Prod.mk.inj he
      exact Or.inr ht
    · exact Or.inl he
  · exact Or.inl h

theorem dependsOn_addColumn (x : AnalysisContext) (q : Query)
    (found : TableLineage × List StatementError) (column : String) :
    (x.addColumn q found column).1.dependsOn = found.1.dependsOn := by
  unfold addColumn
  split <;> rfl

/-- The columns of a lineage are traced, and its dependencies are those of the query. -/
theorem lineageOf_spec (x : AnalysisContext) (q : Query) :
    (x.lineageOf q).1.dependsOn = x.dependencies q ∧
      ∀ c sources, (c, sources) ∈ (x.lineageOf q).1.columns.entries →
        ∃ column, x.trace q column = .ok sources := by
  unfold lineageOf
  suffices hall : ∀ (columns : List String) (found : TableLineage × List StatementError),
      found.1.dependsOn = x.dependencies q →
      (∀ c sources, (c, sources) ∈ found.1.columns.entries →
        ∃ column, x.trace q column = .ok sources) →
      (columns.foldl (x.addColumn q) found).1.dependsOn = x.dependencies q ∧
        ∀ c sources, (c, sources) ∈ (columns.foldl (x.addColumn q) found).1.columns.entries →
          ∃ column, x.trace q column = .ok sources by
    refine hall _ _ rfl ?_
    intro c sources h
    cases h
  intro columns
  induction columns with
  | nil => exact fun found hd hc => ⟨hd, hc⟩
  | cons column rest ih =>
    intro found hd hc
    refine ih _ ((x.dependsOn_addColumn q found column).trans hd) ?_
    intro c sources h
    rcases mem_addColumn h with h | h
    · exact hc c sources h
    · exact ⟨column, h⟩

theorem mem_dependencies (x : AnalysisContext) (q : Query) (f : String) :
    f ∈ x.dependencies q ↔
      ∃ u ∈ q.baseTables, (FullName.resolve u.reference x.defaults).text = f := by
  rw [dependencies, Text.sorted, Text.mem_sortDistinct, List.mem_map]

/-- Each column that the lineage of a statement names belongs to a table that the statement depends
on. -/
theorem lineage_within_dependencies (x : AnalysisContext) (target : ObjectName) (q : Query)
    {lineage : TableLineage} (h : (x.analyze target q).lineage = some lineage) {column : String}
    {sources : List String} (hc : lineage.columns.get? column = some sources) {s : String}
    (hs : s ∈ sources) : ∃ f ∈ lineage.dependsOn, ∃ c, s = f ++ "." ++ c := by
  unfold analyze at h
  dsimp only at h
  split at h
  · cases h
  · rename_i qualified hq
    cases h
    obtain ⟨hd, htraced⟩ := x.lineageOf_spec qualified
    obtain ⟨column', ht⟩ := htraced column sources (OrderedMap.mem_of_get?_eq_some hc)
    obtain ⟨u, hu, c, rfl⟩ := Query.namesColumn_of_trace ht hs
    refine ⟨(FullName.resolve u.reference x.defaults).text, ?_, c, rfl⟩
    rw [hd]
    exact (x.mem_dependencies qualified _).mpr ⟨u, hu, rfl⟩

/-- `WITH c AS (SELECT t.a AS a FROM t) SELECT c.a AS a, (SELECT u.b AS b FROM u) AS b FROM c` -/
def twoTables : Query :=
  .plain [.mk ⟨⟨"c", none⟩, []⟩ none (.plain [] (.select (.plain [.plain "t" "a"] [.plain "t"]))) none]
    (.select (.plain
      [.plain "c" "a",
        .expr (.scalar (.plain [] (.select (.plain [.plain "u" "b"] [.plain "u"])))) (some ⟨"b", none⟩)]
      [.plain "c"]))

/-- The column `b` of a view over two tables names a table that the view depends on. -/
theorem lineage_within_dependencies_twoTables :
    (analyze ⟨⟨∅⟩, ⟨none, some "s"⟩, 8⟩ ⟨[⟨"v", none⟩]⟩ twoTables).lineage =
        some ⟨["s.t", "s.u"], .ofList [("a", ["s.t.a"]), ("b", ["s.u.b"])]⟩ ∧
      ∃ f ∈ ["s.t", "s.u"], ∃ c, "s.u.b" = f ++ "." ++ c :=
  have h : (analyze ⟨⟨∅⟩, ⟨none, some "s"⟩, 8⟩ ⟨[⟨"v", none⟩]⟩ twoTables).lineage =
      some ⟨["s.t", "s.u"], .ofList [("a", ["s.t.a"]), ("b", ["s.u.b"])]⟩ := by
    decide +kernel
  have hc : (OrderedMap.ofList [("a", ["s.t.a"]), ("b", ["s.u.b"])]).get? "b" = some ["s.u.b"] := by
    decide
  ⟨h, lineage_within_dependencies _ _ _ h hc (List.mem_singleton_self _)⟩

end AnalysisContext

end ColumnLineage
