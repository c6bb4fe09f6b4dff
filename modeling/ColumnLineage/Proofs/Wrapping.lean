import ColumnLineage.Proofs.DepthLimit
import ColumnLineage.Proofs.OwnLineage

/-!
# Queries that pass a column on

A select from one query, that stands in its `FROM` clause or is a common table, may do nothing but
give a column of it. It is one level deeper than the query, it has one node more in front of its
graph, and its column has the lineage that it has in the query.

* `Query.trace_wrapped`: both ways to put a query into a select keep lineage as it is.
-/

namespace ColumnLineage

/-! ## One level deeper -/

/-- The same failure under another limit. -/
def TraceError.under (limit : Nat) : TraceError → TraceError
  | .depthExceeded _ => .depthExceeded limit
  | e => e

theorem TraceError.ofGraphError_under (e : GraphError) (limit : Nat) :
    TraceError.ofGraphError (e.under limit) = (TraceError.ofGraphError e).under limit := by
  cases e <;> rfl

/-- A node that stands for no column and has one source has the lineage of its source. -/
theorem TraceContext.lineage_of_sole {x : TraceContext} {id source : Nat}
    (ht : x.terminal? (x.node id) = none) (hs : (x.node id).sources = [source]) (n : Nat) :
    (x.lineage (n + 1) id ∅).map Prod.fst = (x.lineage n source ∅).map Prod.fst := by
  have hown : x.ownLineage (x.lineage n) id =
      (do return TraceContext.union [] (← x.lineage n source)) := by
    unfold TraceContext.ownLineage
    rw [ht, hs]
    rfl
  rw [TraceContext.lineage_succ, hown]
  change Except.map _ ((x.lineage n source ∅ >>= _) >>= _) = _
  cases hl : x.lineage n source ∅ with
  | error e => rfl
  | ok r =>
    obtain ⟨found, memo⟩ := r
    have htraced := (TraceContext.lineage_traced n TraceContext.remembers_empty hl).1
    exact congrArg Except.ok (TraceContext.union_nil htraced.ascending)

/-! ## Selects around a query -/

/-- `label.column AS column` -/
def SelectItem.passing (label column : Ident) : SelectItem :=
  .expr (.path [label, column]) (some column)

/-- `SELECT label.column AS column FROM source` -/
def Select.passing (label column : Ident) (source : TableTree) : Select :=
  .plain [.passing label column] [source]

/-- `SELECT label.column AS column FROM (q) AS label` -/
def Query.asSource (q : Query) (label column : Ident) : Query :=
  .plain [] (.select (.passing label column (.mk (.derived false q (some ⟨label, []⟩)) [])))

/-- `WITH name AS (q) SELECT name.column AS column FROM name` -/
def Query.asCte (q : Query) (name column : Ident) : Query :=
  .plain [.mk ⟨name, []⟩ none q none]
    (.select (.passing name column (.mk (.table ⟨[name]⟩ false none []) [])))

/-- `SELECT items FROM (q) AS label` -/
def Query.fromSource (q : Query) (label : TableAlias) (items : List SelectItem) : Query :=
  .plain [] (.select (.plain items [.mk (.derived false q (some label)) []]))

/-- `WITH cte AS (q) SELECT items FROM name AS label` -/
def Query.fromCte (q : Query) (cte : TableAlias) (name : Ident) (label : Option TableAlias)
    (items : List SelectItem) : Query :=
  .plain [.mk cte none q none] (.select (.plain items [.mk (.table ⟨[name]⟩ false label []) []]))

/-- An item of a select that reads one column behind the alias of its source. -/
structure SelectItem.Passes (items : List SelectItem) (index : Nat) (label column : String) where
  item : SelectItem
  item_eq : items[index]? = some item
  references_eq : item.references = [.column (some label) column]

/-- A query inside a select, an item of which passes a column of the query on. -/
structure Wrapping (q : Query) where
  ctes : List Cte
  select : Select
  /-- The alias of the query, as the item has it. -/
  label : String
  column : String
  index : Nat
  passes : SelectItem.Passes select.items index label column
  /-- The names that are declared for the columns of the query. -/
  declared : List String
  graft : Graft
  /-- One node is made before those of the query. -/
  offset_eq : graft.offset = 1
  base_ne : graft.base ≠ []
  /-- No table of the query has the name of a common table outside. -/
  apart : graft.Apart q
  get?_label : ∃ name, (sourceMap [] (placedCtes [] ctes) select).get? (Text.toLower label) =
    some (name, .query (graft.body (q.placed [] [])) declared)
  /-- The select reads what the query reads. -/
  baseTables_eq : (Query.plain ctes (.select select)).baseTables = q.baseTables
  /-- Its common tables are no tables of the query. -/
  isCteIn_eq : ∀ u ∈ q.tableUses,
    u.reference.isCteIn (Query.plain ctes (.select select)).cteNames = u.reference.isCteIn q.cteNames

namespace Wrapping

variable {q : Query} (w : Wrapping q)

def outer : Query :=
  .plain w.ctes (.select w.select)

/-- The column of the query that is passed on. -/
def target : Target :=
  declaredTarget w.declared w.column

/-! ## The graph -/

/-- The draft in which only the node of the column that is passed on has been made. -/
def firstDraft : Draft :=
  Draft.start {} (.column [] (some w.index))
    ((w.passes.item.outputName? w.index).getD (positionName w.index))
    (.projection w.passes.item.text)

theorem wantedReferences_item (catalog : Catalog) :
    ((w.outer.placed [] []).view w.select).wantedReferences catalog w.index 0
        w.passes.item.references = [.column (w.graft.body (q.placed [] [])) w.target] := by
  obtain ⟨name, hname⟩ := w.get?_label
  have hctes : placedCtes [] w.ctes ++ [] = placedCtes [] w.ctes := List.append_nil _
  have hsource : ((w.outer.placed [] []).view w.select).sourceOf? catalog (some w.label) w.column =
      some (name, .query (w.graft.body (q.placed [] [])) w.declared) := by
    rw [← hname, ← hctes]
    rfl
  rw [w.passes.references_eq]
  simp only [SelectView.wantedReferences, SelectView.wantedReference, SelectView.wanted, hsource]
  rfl

/-- The builder makes a node, goes down to the query and makes what it finds there the source of the
node. -/
theorem columnWithin_outer (catalog : Catalog) (limit n : Nat) :
    columnWithin catalog limit (n + 1) (w.outer.placed [] []) (.index w.index) {} =
      (columnWithin catalog limit n (w.graft.body (q.placed [] [])) w.target w.firstDraft).map
        fun r => (0, r.2.finish 0 [r.1]) := by
  have hopened : (w.outer.placed [] []).opened.body = .select w.select := rfl
  rw [columnWithin, bodyColumn_eq, PlacedBody.plan_index hopened w.passes.item_eq]
  change Draft.node (.column [] (some w.index)) _ _
    (Wanted.runAll _ [] true [] (SelectView.wantedReferences _ catalog w.index 0 _)) {} = _
  rw [Draft.node_run, w.wantedReferences_item]
  change Except.map _ (columnWithin catalog limit n _ _ w.firstDraft >>= _) = _
  cases columnWithin catalog limit n (w.graft.body (q.placed [] [])) w.target w.firstDraft <;> rfl

theorem holds_firstDraft : w.graft.Holds {} w.firstDraft where
  size := by
    rw [firstDraft, Draft.nodes_start, w.offset_eq]
    rfl
  nodes i := by
    rw [firstDraft, Draft.nodes_start, w.offset_eq]
    simp
  keys k := by
    -- All keys of the copy lie below the place of the select.
    have hne : Key.column [] (some w.index) ≠ w.graft.key k := by
      cases k <;> simp [Graft.key, Graft.place, w.base_ne]
    rw [firstDraft, Draft.find?_start, if_neg hne]
    cases k <;> rfl

/-- A graph is that of the column that is passed on: a node, and behind it a copy of the graph that
the column has in the query. -/
structure Surrounds (inner graph : Graph) : Prop where
  root_eq : graph.root = 0
  /-- Its only source is the copy of the other root. -/
  first : ∃ name sql, graph.nodes[0]? = some ⟨name, .projection sql, [inner.root + 1]⟩
  nodes : ∀ i : Nat, graph.nodes[i + 1]? = inner.nodes[i]?.map w.graft.node

theorem surrounds_finish {d d' : Draft} (hd : w.graft.Holds d d')
    (hfirst : Extends w.firstDraft d') (root : Nat) :
    w.Surrounds ⟨d.nodes, root⟩ ⟨(d'.finish 0 [root + 1]).nodes, 0⟩ where
  root_eq := rfl
  first := by
    have hmade : w.firstDraft.nodes[0]? = some
        ⟨(w.passes.item.outputName? w.index).getD (positionName w.index),
          .projection w.passes.item.text, []⟩ := by
      rw [firstDraft, Draft.nodes_start]
      rfl
    refine ⟨(w.passes.item.outputName? w.index).getD (positionName w.index),
      w.passes.item.text, ?_⟩
    rw [Draft.nodes_finish, if_pos rfl, hfirst.nodes hmade]
    rfl
  nodes i := by
    rw [Draft.nodes_finish, if_neg (by omega), ← hd.nodes, w.offset_eq]

theorem run_cases (catalog : Catalog) (m : Nat) :
    (∃ e, columnWithin catalog m (m + 1) (q.placed [] []) w.target {} = .error e ∧
      columnWithin catalog (m + 1) (m + 2) (w.outer.placed [] []) (.index w.index) {} =
        .error (e.under (m + 1))) ∨
    ∃ root inner draft,
      columnWithin catalog m (m + 1) (q.placed [] []) w.target {} = .ok (root, inner) ∧
      columnWithin catalog (m + 1) (m + 2) (w.outer.placed [] []) (.index w.index) {} =
        .ok (0, draft) ∧
      w.Surrounds ⟨inner.nodes, root⟩ ⟨draft.nodes, 0⟩ := by
  have hruns : (w.graft.builders (m + 1) Comparison.uncut).Agree w.graft.Moved
      (columnWithin catalog m (m + 1) (q.placed [] []) w.target {})
      (columnWithin catalog (m + 1) (m + 1) (w.graft.body (q.placed [] [])) w.target
        w.firstDraft) :=
    Graft.matches_columnWithin w.apart _ _ (Comparison.levels_refl _ _ _) .refl _
      w.holds_firstDraft
  -- What the builder finds in the query leaves the node that is there already as it is.
  have hgrows : ∀ id d', columnWithin catalog (m + 1) (m + 1) (w.graft.body (q.placed [] []))
      w.target w.firstDraft = .ok (id, d') → Extends w.firstDraft d' :=
    fun _ _ h => (steady_columnWithin catalog (m + 1) (m + 1) _ _).grows h
  rw [w.columnWithin_outer]
  generalize columnWithin catalog m (m + 1) (q.placed [] []) w.target {} = r at hruns ⊢
  generalize columnWithin catalog (m + 1) (m + 1) (w.graft.body (q.placed [] [])) w.target
    w.firstDraft = r' at hruns hgrows ⊢
  cases hruns with
  | error he =>
    obtain rfl := he
    exact Or.inl ⟨_, rfl, rfl⟩
  | cut he => exact he.elim
  | @ok root root' d d' hroot hd =>
    obtain rfl : root' = root + 1 := hroot.trans (congrArg (root + ·) w.offset_eq)
    exact Or.inr ⟨root, d, _, rfl, rfl, w.surrounds_finish hd (hgrows _ _ rfl) root⟩

/-! ## The walk -/

section walk

variable {w} {m root : Nat} {inner : Draft} {graph : Graph}

theorem Surrounds.mirrors (hg : w.Surrounds ⟨inner.nodes, root⟩ graph) {catalog : Catalog}
    {target : Target}
    (hi : columnWithin catalog m (m + 1) (q.placed [] []) target {} = .ok (root, inner))
    (d : Defaults) :
    w.graft.Mirrors (q.traceContext d m ⟨inner.nodes, root⟩)
      (w.outer.traceContext d (m + 1) graph) := by
  have hnode : ∀ id, (w.outer.traceContext d (m + 1) graph).node (id + w.graft.offset) =
      w.graft.node ((q.traceContext d m ⟨inner.nodes, root⟩).node id) := by
    intro id
    rw [w.offset_eq]
    simp only [TraceContext.node, Query.traceContext, hg.nodes]
    cases inner.nodes[id]? <;> rfl
  have haliases : w.outer.aliases d = q.aliases d := by
    unfold Query.aliases
    rw [← w.baseTables_eq]
    rfl
  -- A node of a table is that of a base table, or not, for the select as for the query.
  have hkind : ∀ id, ((q.traceContext d m ⟨inner.nodes, root⟩).node id).kind w.outer.cteNames =
      ((q.traceContext d m ⟨inner.nodes, root⟩).node id).kind q.cteNames := by
    intro id
    unfold Node.kind
    cases ho : ((q.traceContext d m ⟨inner.nodes, root⟩).node id).origin with
    | table r =>
      obtain ⟨u, hu, rfl⟩ := Query.tableUse_of_node hi ho
      have hcte := w.isCteIn_eq u hu
      simp only [outer, hcte]
    | _ => rfl
  constructor
  · intro id
    rw [hnode]
    rfl
  · intro id
    have hid : (w.graft.node ((q.traceContext d m ⟨inner.nodes, root⟩).node id)).kind
        w.outer.cteNames = ((q.traceContext d m ⟨inner.nodes, root⟩).node id).kind q.cteNames :=
      hkind id
    rw [hnode]
    simp only [TraceContext.terminal?, Query.traceContext, haliases] at hid ⊢
    rw [hid]
    rfl

theorem Surrounds.lineage_root {inner : Graph} (hg : w.Surrounds inner graph) (d : Defaults)
    (n : Nat) :
    ((w.outer.traceContext d (m + 1) graph).lineage (n + 1) graph.root ∅).map Prod.fst =
      ((w.outer.traceContext d (m + 1) graph).lineage n (inner.root + 1) ∅).map Prod.fst := by
  obtain ⟨name, sql, hfirst⟩ := hg.first
  have hnode : (w.outer.traceContext d (m + 1) graph).node graph.root =
      ⟨name, .projection sql, [inner.root + 1]⟩ := by
    rw [hg.root_eq]
    simp only [TraceContext.node, Query.traceContext, hfirst, Option.getD_some]
  refine TraceContext.lineage_of_sole ?_ ?_ n
  · rw [hnode]
    rfl
  · rw [hnode]

end walk

/-! ## The trace -/

/-- The trace of a column that is passed on is the trace that it has in the query, but for the limit
that a failure names. -/
theorem traceOf_outer (catalog : Catalog) (d : Defaults) (m : Nat) :
    w.outer.traceOf catalog d (m + 1) (.index w.index) =
      (q.traceOf catalog d m w.target).mapError (TraceError.under (m + 1)) := by
  unfold Query.traceOf
  rcases w.run_cases catalog m with ⟨e, hi, ho⟩ | ⟨root, inner, draft, hi, ho, hg⟩
  · rw [hi, ho]
    exact congrArg Except.error (TraceError.ofGraphError_under e (m + 1))
  · rw [hi, ho]
    dsimp only
    have hwalks : (w.graft.walks (m + 1) Comparison.uncut).Agree Eq
        ((q.traceContext d m ⟨inner.nodes, root⟩).lineage (m + 1) root ∅)
        ((w.outer.traceContext d (m + 1) ⟨draft.nodes, 0⟩).lineage (m + 1)
          (root + w.graft.offset) ∅) :=
      Graft.matches_lineage (hg.mirrors hi d) rfl _ _ (Comparison.levels_refl _ _ _) root
        fun _ => rfl
    rw [hg.lineage_root d]
    rw [w.offset_eq] at hwalks
    generalize (q.traceContext d m ⟨inner.nodes, root⟩).lineage (m + 1) root ∅ = r at hwalks ⊢
    generalize (w.outer.traceContext d (m + 1) ⟨draft.nodes, 0⟩).lineage (m + 1)
      (root + 1) ∅ = r' at hwalks ⊢
    cases hwalks with
    | ok hfound _ => exact congrArg Except.ok hfound.symm
    | error he =>
      obtain ⟨⟨limit, rfl⟩, rfl⟩ := he
      rfl
    | cut he => exact he.elim

end Wrapping

/-! ## Two ways to put a query into a select -/

namespace Query

/-- No table in a query is written as a name alone that is the given one, ignoring case. -/
def Avoids (q : Query) (name : Ident) : Prop :=
  ∀ u ∈ q.tableUses, u.reference.isBare = true →
    Text.toLower u.reference.name ≠ Text.toLower name.value

instance (q : Query) (name : Ident) : Decidable (q.Avoids name) :=
  inferInstanceAs (Decidable (∀ u ∈ q.tableUses, u.reference.isBare = true →
    Text.toLower u.reference.name ≠ Text.toLower name.value))

section parts

variable (q : Query) {items : List SelectItem} (hitems : SelectItem.partsList items = [])

include hitems

theorem parts_fromSource (label : TableAlias) :
    (q.fromSource label items).parts = .query (q.fromSource label items) :: q.parts := by
  refine (parts_plain _ _ _).trans (congrArg (_ :: ·) ?_)
  simp [hitems, Cte.partsList, TableTree.partsList, TableTree.parts, TableFactor.parts,
    Join.partsList]

theorem cteNames_fromSource (label : TableAlias) :
    (q.fromSource label items).cteNames = q.cteNames := by
  simp only [cteNames, allCtes, parts_fromSource q hitems, List.flatMap_cons]
  rfl

theorem baseTables_fromSource (label : TableAlias) :
    (q.fromSource label items).baseTables = q.baseTables := by
  unfold baseTables tableUses allTables
  rw [cteNames_fromSource q hitems, parts_fromSource q hitems, List.filterMap_cons]

variable (cte : TableAlias) (name : Ident) (label : Option TableAlias)

theorem parts_fromCte : (q.fromCte cte name label items).parts =
    .query (q.fromCte cte name label items) :: (q.parts ++ [.table ⟨[name]⟩ label]) := by
  refine (parts_plain _ _ _).trans (congrArg (_ :: ·) ?_)
  simp [hitems, Expr.partsList, Cte.partsList, Cte.parts, TableTree.partsList, TableTree.parts,
    TableFactor.parts, Join.partsList]

theorem cteNames_fromCte :
    (q.fromCte cte name label items).cteNames = Text.toLower cte.name.value :: q.cteNames := by
  simp only [cteNames, allCtes, parts_fromCte q hitems, List.flatMap_cons, List.flatMap_append,
    List.flatMap_nil, List.append_nil]
  rfl

theorem tableUses_fromCte : (q.fromCte cte name label items).tableUses =
    q.tableUses ++ [⟨label.map fun a => a.name.value, ⟨none, none, name.value⟩⟩] := by
  simp only [tableUses, allTables, parts_fromCte q hitems, List.filterMap_cons,
    List.filterMap_append, List.map_append]
  rfl

variable {q cte name}

theorem Avoids.isCteIn_fromCte (h : q.Avoids cte.name) {u : TableUse} (hu : u ∈ q.tableUses) :
    u.reference.isCteIn (q.fromCte cte name label items).cteNames =
      u.reference.isCteIn q.cteNames := by
  unfold TableReference.isCteIn
  cases hb : u.reference.isBare with
  | false => rfl
  | true =>
    have hne := h u hu hb
    rw [cteNames_fromCte q hitems, List.contains_cons, beq_false_of_ne hne, Bool.false_or]

theorem Avoids.baseTables_fromCte (h : q.Avoids cte.name)
    (hname : Text.equalIgnoringCase cte.name.value name.value = true) :
    (q.fromCte cte name label items).baseTables = q.baseTables := by
  have hown : (⟨none, none, name.value⟩ : TableReference).isCteIn
      (q.fromCte cte name label items).cteNames = true := by
    rw [cteNames_fromCte q hitems, Text.toLower_eq_of_equalIgnoringCase hname]
    simp [TableReference.isCteIn, TableReference.isBare]
  simp only [baseTables, tableUses_fromCte q hitems, List.filter_append, List.filter_cons, hown,
    List.filter_nil]
  simp only [Bool.not_true, Bool.false_eq_true, if_false, List.append_nil]
  exact List.filter_congr fun u hu => by rw [h.isCteIn_fromCte hitems label hu]

end parts

end Query

theorem Select.get?_only {ctes : List PlacedCte} {factor : TableFactor} {label : String}
    {source : SelectSource} (hf : factor.factors = [factor])
    (hs : sourceOf? [] ctes 0 factor = some (label, source)) (items : List SelectItem) :
    (sourceMap [] ctes (.plain items [.mk factor []])).get? (Text.toLower label) =
      some (label, source) := by
  have hfactors : (Select.plain items [.mk factor []]).sources.flatMap TableTree.factors =
      [factor] := by
    simp [Select.plain, TableTree.factors, Join.factorsList, hf]
  have hmap : sourceMap [] ctes (.plain items [.mk factor []]) =
      .ofList [(Text.toLower label, label, source)] := by
    unfold sourceMap
    rw [hfactors]
    simp [hs]
  rw [hmap]
  exact OrderedMap.get?_ofList_of_forall (List.mem_singleton_self _) (by simp)

namespace Wrapping

variable {items : List SelectItem} {index : Nat} {label column : String}

/-- A query in the `FROM` clause. -/
def ofSource (q : Query) (a : TableAlias) (hitems : SelectItem.partsList items = [])
    (hlabel : Text.toLower label = Text.toLower a.name.value)
    (passes : SelectItem.Passes items index label column) : Wrapping q where
  ctes := []
  select := .plain items [.mk (.derived false q (some a)) []]
  label := label
  column := column
  index := index
  passes := passes
  declared := a.columnNames
  graft := ⟨[.source 0], [], 1⟩
  offset_eq := rfl
  base_ne := by simp
  apart c hc := by cases hc
  get?_label := by
    refine ⟨a.name.value, ?_⟩
    rw [Graft.body_placed, hlabel]
    exact Select.get?_only rfl rfl items
  baseTables_eq := q.baseTables_fromSource hitems a
  isCteIn_eq u _ := congrArg u.reference.isCteIn (q.cteNames_fromSource hitems a)

def ofCte {q : Query} (cte : TableAlias) (h : q.Avoids cte.name) {name : Ident}
    (hname : Text.equalIgnoringCase cte.name.value name.value = true) (a : Option TableAlias)
    (hitems : SelectItem.partsList items = [])
    (hlabel : Text.toLower label = Text.toLower ((a.map fun a => a.name.value).getD name.value))
    (passes : SelectItem.Passes items index label column) : Wrapping q where
  ctes := [.mk cte none q none]
  select := .plain items [.mk (.table ⟨[name]⟩ false a []) []]
  label := label
  column := column
  index := index
  passes := passes
  declared := cte.columnNames
  graft := ⟨[.cte 0], [⟨.mk cte none q none, [.cte 0]⟩], 1⟩
  offset_eq := rfl
  base_ne := by simp
  apart c hc u hu hb := by
    obtain rfl := List.mem_singleton.mp hc
    rw [Bool.eq_false_iff]
    intro heq
    exact h u hu hb (Text.toLower_eq_of_equalIgnoringCase heq).symm
  get?_label := by
    refine ⟨(a.map fun a => a.name.value).getD name.value, ?_⟩
    rw [Graft.body_placed, hlabel]
    refine Select.get?_only rfl ?_ items
    have hvisible : visibleCte? (placedCtes [] [.mk cte none q none])
        ⟨none, none, name.value⟩ = some ⟨.mk cte none q none, [.cte 0]⟩ := by
      simp [visibleCte?, TableReference.isBare, placedCtes, Cte.name, hname]
    have hreference : TableReference.ofObjectName ⟨[name]⟩ = ⟨none, none, name.value⟩ := rfl
    have hdeclared : (Cte.mk cte none q none).columns.map Ident.value = cte.columnNames := by
      simp [Cte.columns, TableAlias.columnNames]
    simp only [sourceOf?, hreference, hvisible, hdeclared]
    rfl
  baseTables_eq := h.baseTables_fromCte hitems a hname
  isCteIn_eq _ hu := h.isCteIn_fromCte hitems a hu

end Wrapping

section passing

variable (label column : Ident)

theorem SelectItem.partsList_passing : SelectItem.partsList [.passing label column] = [] := by
  simp [passing, partsList, parts, Expr.parts]

/-- `label.column AS column` passes the column on. -/
def SelectItem.passes_passing :
    SelectItem.Passes [.passing label column] 0 label.value column.value :=
  ⟨.passing label column, rfl, rfl⟩

theorem SelectItem.firstNamesake_passing :
    FirstNamesake (SelectItem.outputNames 0 [.passing label column]) column.value 0 :=
  position?_eq_some_iff.mp (by
    simp [position?, passing, outputNames, outputName?, List.findIdx?_cons])

end passing

/-- A select from a query in its `FROM` clause, and one from a common table that no table in the
query has the name of, pass a column on: one level deeper it has the lineage that it has in the
query, and it cannot be found where it cannot be found in the query. -/
theorem Query.trace_wrapped {q outer : Query} {c d x : Ident}
    (h : outer = q.asSource d c ∨ outer = q.asCte x c ∧ q.Avoids x) (catalog : Catalog)
    (defaults : Defaults) (m : Nat) :
    (∀ S, outer.trace catalog defaults (m + 1) c.value = .ok S ↔
      q.trace catalog defaults m c.value = .ok S) ∧
    ∀ e, outer.trace catalog defaults (m + 1) c.value = .error (.graph e) ↔
      q.trace catalog defaults m c.value = .error (.graph e) := by
  have htrace : outer.trace catalog defaults (m + 1) c.value =
      (q.trace catalog defaults m c.value).mapError (TraceError.under (m + 1)) := by
    rcases h with rfl | ⟨rfl, hx⟩
    · rw [trace_eq_of_firstNamesake (q := q.asSource d c) (SelectItem.firstNamesake_passing d c),
        trace_eq_traceOf]
      exact (Wrapping.ofSource q ⟨d, []⟩ (SelectItem.partsList_passing d c) rfl
        (SelectItem.passes_passing d c)).traceOf_outer catalog defaults m
    · rw [trace_eq_of_firstNamesake (q := q.asCte x c) (SelectItem.firstNamesake_passing x c),
        trace_eq_traceOf]
      exact (Wrapping.ofCte ⟨x, []⟩ hx (Text.equalIgnoringCase_refl _) none
        (SelectItem.partsList_passing x c) rfl
        (SelectItem.passes_passing x c)).traceOf_outer catalog defaults m
  rw [htrace]
  rcases q.trace catalog defaults m c.value with e | S
  · cases e <;> simp [Except.mapError, TraceError.under]
  · simp [Except.mapError]

/-- A query with a common table of its own and a scalar query, as a common table of another one: the
lineage of its column `b` stays, and a column `z` is missing in both. -/
theorem Query.trace_wrapped_twoTables :
    AnalysisContext.twoTables.Avoids ⟨"v", none⟩ ∧
      (AnalysisContext.twoTables.asCte ⟨"v", none⟩ ⟨"b", none⟩).trace ⟨∅⟩ ⟨none, some "s"⟩ 3 "b" =
        .ok ["s.u.b"] ∧
      (AnalysisContext.twoTables.asCte ⟨"v", none⟩ ⟨"z", none⟩).trace ⟨∅⟩ ⟨none, some "s"⟩ 3 "z" =
        .error (.graph (.columnNotFound "z")) := by
  have hx : AnalysisContext.twoTables.Avoids ⟨"v", none⟩ := by decide
  have hb : AnalysisContext.twoTables.trace ⟨∅⟩ ⟨none, some "s"⟩ 2 "b" = .ok ["s.u.b"] := by
    decide
  have hz : AnalysisContext.twoTables.trace ⟨∅⟩ ⟨none, some "s"⟩ 2 "z" =
      .error (.graph (.columnNotFound "z")) := by
    decide
  refine ⟨hx, ?_, ?_⟩
  · exact ((trace_wrapped (d := ⟨"v", none⟩) (Or.inr ⟨rfl, hx⟩) _ _ _).1 _).mpr hb
  · exact ((trace_wrapped (d := ⟨"v", none⟩) (Or.inr ⟨rfl, hx⟩) _ _ _).2 _).mpr hz

end ColumnLineage
