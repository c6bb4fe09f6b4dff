import ColumnLineage.Proofs.MergedColumns
import ColumnLineage.Proofs.StarSources
import ColumnLineage.Proofs.TableColumns

/-!
# Chains of joins

Tables that are joined one after another with `USING`, each time over the same column, all share this
column. A select that reads it reads it from every one of them.

* `Qualifier.trace_usingChain`: the shared column is traced to the columns of all tables.
-/

namespace ColumnLineage

/-! ## Tables in a scope -/

variable {t : FromTable}

namespace FromTable

/-- The label that columns of the table get. -/
def ident (t : FromTable) : Ident :=
  (t.label.map TableAlias.name).getD (t.name.parts.getLast?.getD ⟨"", none⟩)

def complete (d : Defaults) (t : FromTable) : FromTable :=
  { t with name := t.name.complete d }

def source (x : Qualifier) (t : FromTable) : Source :=
  ⟨t.ident, x.tableColumns (t.complete x.defaults).reference⟩

theorem ident_value (t : FromTable) : t.ident.value = t.knownAs := by
  obtain ⟨name, numbered, label, hints⟩ := t
  cases label with
  | some a => rfl
  | none => exact (TableReference.name_ofObjectName name).symm

theorem ident_complete (h : t.name.parts ≠ []) (d : Defaults) : (t.complete d).ident = t.ident := by
  rw [ident, complete, ObjectName.getLast?_complete h, ident]

theorem key_complete (h : t.name.parts ≠ []) (d : Defaults) : (t.complete d).key = t.key := by
  rw [key, ← ident_value, ident_complete h, ident_value, key]

/-- A table that is no common table is none under its full name. -/
theorem isCteIn_complete (h : t.name.parts ≠ []) (d : Defaults) {names : List String}
    (hbase : t.reference.isCteIn names = false) :
    (t.complete d).reference.isCteIn names = false := by
  have hreference : (t.complete d).reference = t.reference.complete d :=
    TableReference.ofObjectName_complete h d
  rw [hreference, TableReference.isCteIn_complete, hbase, Bool.false_and]

/-- Without common tables in view, a table gets its full name and becomes a source. -/
theorem register_factor (x : Qualifier) (scope : Scope) (t : FromTable) :
    t.factor.register x {} scope =
      .ok ((t.complete x.defaults).factor, scope.register (t.source x).label (t.source x).columns) := by
  have hcte : Visible.cteOf? {} t.name = none := by
    unfold Visible.cteOf?
    split <;> rfl
  change Except.ok (TableFactor.table (scope.registerTable x {} t.name t.label).1 t.numbered
    t.label t.hints, (scope.registerTable x {} t.name t.label).2) = _
  rw [Scope.registerTable, hcte]
  rfl

end FromTable

/-! ## Selects from one tree of tables -/

/-- A select from one tree of tables is qualified item by item in the scope of the tree. -/
theorem Qualifier.qualify_plain {x : Qualifier} {ctes ctes' : List Cte} {v : Visible}
    (hctes : Cte.qualifyList x false {} ctes = .ok (ctes', v)) {tree registered tree' : TableTree}
    {scope : Scope} (htree : tree.register x v {} = .ok (registered, scope))
    (hjoins : tree.qualifyJoins x (v.withScope scope) registered = .ok tree')
    (items : List SelectItem) :
    x.qualify (.plain ctes (.select (.plain items [tree]))) =
      (SelectItem.qualifyList x (v.withScope scope) scope 0 items).map fun items' =>
        .plain ctes' (.select (.plain items' [tree'])) := by
  let columns := Columns.ofOption (allSome (SelectItem.outputNames 0 (scope.expandItems items)))
  have htrees : TableTree.registerList x v {} [tree] = .ok ([registered], scope) :=
    bind_eq_ok.mpr ⟨_, htree, rfl⟩
  have hconditions : TableTree.qualifyJoinsList x (v.withScope scope) [tree] [registered] =
      .ok [tree'] :=
    bind_eq_ok.mpr ⟨_, hjoins, rfl⟩
  have hselect : (Select.plain items [tree]).qualify x v =
      (SelectItem.qualifyList x (v.withScope scope) scope 0 items).map fun items' =>
        (.plain items' [tree'], columns, scope) := by
    refine (bind_of_ok htrees _).trans ((bind_of_ok hconditions _).trans ?_)
    generalize SelectItem.qualifyList x (v.withScope scope) scope 0 items = r
    cases r <;> rfl
  have hquery : (Query.plain ctes (.select (.plain items [tree]))).qualify x {} =
      ((Select.plain items [tree]).qualify x v).map fun s =>
        (.plain ctes' (.select s.1), s.2.1) := by
    refine (bind_of_ok hctes _).trans ?_
    change (((Select.plain items [tree]).qualify x v >>= _) >>= _) = _
    generalize (Select.plain items [tree]).qualify x v = r
    cases r <;> rfl
  change Except.bind _ _ = _
  rw [hquery, hselect]
  generalize SelectItem.qualifyList x (v.withScope scope) scope 0 items = r
  cases r <;> rfl

/-! ## Scopes of chains -/

/-- A source has a column, or nothing is known about its columns. -/
def Source.MayHave (source : Source) (column : String) : Prop :=
  source.columns.contains column = true ∨ source.columns = .unknown

/-- A table that the catalog knows to have a column may have it as a source. -/
theorem FromTable.mayHave {x : Qualifier} (hparts : t.name.parts ≠ [])
    {definition : TableDefinition} {column : String}
    (hknown : x.catalog.lookup? t.reference x.defaults = some definition)
    (hcolumn : definition.hasColumn column = true) : (t.source x).MayHave column := by
  cases hcolumns : (t.source x).columns with
  | unknown => exact Or.inr hcolumns
  | known names =>
    have hlookup := Qualifier.lookup?_of_known hparts hcolumns
    unfold reference at hknown
    rw [hknown, Option.map_some, Option.some.injEq] at hlookup
    refine Or.inl ?_
    rw [hcolumns, ← hlookup]
    unfold TableDefinition.hasColumn TableDefinition.columnType? at hcolumn
    rw [Option.isSome_map, List.find?_isSome] at hcolumn
    obtain ⟨e, he, heq⟩ := hcolumn
    exact List.any_eq_true.mpr ⟨e.1, List.mem_map_of_mem he, heq⟩

/-- The labels that share a column in a chain of sources: all of them, if something is joined. -/
def chainOwners : List Source → List Ident
  | [_] => []
  | sources => sources.map Source.label

theorem chainOwners_append {sources : List Source} (h : sources ≠ []) (source : Source) :
    chainOwners (sources ++ [source]) = sources.map Source.label ++ [source.label] := by
  rcases sources with _ | ⟨first, _ | ⟨second, rest⟩⟩
  · exact absurd rfl h
  · rfl
  · change List.map Source.label (first :: second :: rest ++ [source]) = _
    rw [List.map_append]
    rfl

/-- The scope of tables that are joined one after another over a column. -/
structure Scope.Chained (scope : Scope) (column : Ident) (sources : List Source) : Prop where
  /-- It is as tables with distinct labels make it. -/
  regular : scope.Regular
  /-- The tables are its sources, in their order. -/
  values : scope.sources.values = sources
  /-- Those that are joined share the column. -/
  owners : scope.ownersOf (Text.toLower column.value) = chainOwners sources

namespace Scope

variable {scope : Scope} {column : Ident} {sources : List Source} {source : Source}

theorem Regular.keys_eq (h : scope.Regular) :
    scope.sources.keys = scope.sources.values.map fun s => Text.toLower s.label.value := by
  rw [OrderedMap.values, List.map_map]
  exact List.map_congr_left fun e he => h.keyed e he

theorem values_register (h : Text.toLower source.label.value ∉ scope.sources.keys) :
    (scope.register source.label source.columns).sources.values =
      scope.sources.values ++ [source] := by
  change (putEntry _ _ scope.sources.entries).map Prod.snd = _
  rw [OrderedMap.putEntry_of_not_mem h, List.map_append]
  rfl

/-- A source with a new label lies behind all others. -/
theorem sourcesIn_register (h : Text.toLower source.label.value ∉ scope.sources.keys) :
    (scope.register source.label source.columns).sourcesIn ⟨0, scope.size⟩ =
        scope.sources.values ∧
      (scope.register source.label source.columns).sourcesIn
        ⟨scope.size, (scope.register source.label source.columns).size⟩ = [source] := by
  have hsize : ∀ scope : Scope, scope.size = scope.sources.values.length := fun _ =>
    (List.length_map _).symm
  unfold sourcesIn
  rw [hsize, hsize, values_register h]
  simp

/-- The scope with one more source, joined to all others over a column. -/
def joinOver (scope : Scope) (column : Ident) (source : Source) : Scope :=
  let next := scope.register source.label source.columns
  next.merge ⟨0, scope.size⟩ ⟨scope.size, next.size⟩ column

/-- If nothing in a stretch shares a column yet, its only source gives it. -/
theorem owners_of_single {r : Stretch} (hin : scope.sourcesIn r = [source])
    (hshared : (scope.ownersOf (Text.toLower column.value)).filter (scope.liesIn r) = [])
    (hsource : source.MayHave column.value) : scope.owners r column.value = [source.label] := by
  rw [owners_def, hshared, hin]
  by_cases hcontains : source.columns.contains column.value = true
  · simp [hcontains]
  · have hunknown := hsource.resolve_left hcontains
    simp [hunknown, Columns.contains]

theorem Chained.join (h : scope.Chained column sources) (hne : sources ≠ [])
    (hmay : ∀ s ∈ sources ++ [source], s.MayHave column.value)
    (hnew : ((sources ++ [source]).map fun s => Text.toLower s.label.value).Nodup) :
    (scope.joinOver column source).Chained column (sources ++ [source]) := by
  let next := scope.register source.label source.columns
  have hfresh : Text.toLower source.label.value ∉ scope.sources.keys := by
    rw [h.regular.keys_eq, h.values]
    rw [List.map_append, List.nodup_append] at hnew
    exact fun hmem => hnew.2.2 _ hmem _ List.mem_cons_self rfl
  have hnext : next.Regular := h.regular.register hfresh _
  have hvalues : next.sources.values = sources ++ [source] := by
    rw [values_register hfresh, h.values]
  have hlabels := hnext.labels_nodup
  rw [hvalues, List.map_append, List.map_singleton] at hlabels
  obtain ⟨hleft, hright⟩ := sourcesIn_register hfresh
  rw [h.values] at hleft
  have hmem : ∀ s ∈ sources, s ∈ next.sources.values := fun s hs =>
    hvalues ▸ List.mem_append_left _ hs
  have howners : next.ownersOf (Text.toLower column.value) = chainOwners sources := h.owners
  have hbefore : next.owners ⟨0, scope.size⟩ column.value = sources.map Source.label := by
    rcases sources with _ | ⟨first, _ | ⟨second, rest⟩⟩
    · exact absurd rfl hne
    · refine owners_of_single hleft ?_ (hmay first (by simp))
      rw [howners]
      rfl
    · have hall : (chainOwners (first :: second :: rest)).filter (next.liesIn ⟨0, scope.size⟩) =
          (first :: second :: rest).map Source.label := by
        refine List.filter_eq_self.mpr fun label hlabel => ?_
        obtain ⟨s, hs, rfl⟩ := List.mem_map.mp hlabel
        rw [hnext.liesIn_eq (hmem s hs), hleft, List.contains_iff_mem]
        exact hs
      rw [owners_def, howners, hall]
      rfl
  have hjoined : next.owners ⟨scope.size, next.size⟩ column.value = [source.label] := by
    refine owners_of_single hright ?_ (hmay source (by simp))
    rw [howners, List.filter_eq_nil_iff]
    intro label hlabel
    obtain ⟨s, hs, rfl⟩ : ∃ s ∈ sources, s.label = label := by
      unfold chainOwners at hlabel
      split at hlabel
      · cases hlabel
      · exact List.mem_map.mp hlabel
    rw [hnext.liesIn_eq (hmem s hs), hright, List.contains_iff_mem, List.mem_singleton]
    rintro rfl
    exact (List.nodup_append.mp hlabels).2.2 _ (List.mem_map_of_mem hs) _ List.mem_cons_self rfl
  refine ⟨hnext.merge _ _ column, ?_, ?_⟩
  · exact (congrArg OrderedMap.values (merge_sources ..)).trans hvalues
  · change (next.merge ⟨0, scope.size⟩ ⟨scope.size, next.size⟩ column).ownersOf _ = _
    rw [ownersOf_merge_self, hbefore, hjoined, addNew_eq_append hlabels, chainOwners_append hne]
    cases sources.map Source.label <;> rfl

/-- In a chain of at least two tables the column stands for the columns of all of them. -/
theorem Chained.resolve_eq (h : scope.Chained column sources) (hlength : 2 ≤ sources.length) :
    scope.resolve column false = .replace (mergedColumn (sources.map Source.label) column) := by
  have howners : scope.ownersOf (Text.toLower column.value) = sources.map Source.label := by
    rw [h.owners]
    rcases sources with _ | ⟨first, _ | ⟨second, rest⟩⟩
    · simp at hlength
    · simp at hlength
    · rfl
  obtain ⟨m, hm, hall⟩ : ∃ m, scope.merged.get? (Text.toLower column.value) = some m ∧
      m.owners = sources.map Source.label := by
    unfold ownersOf at howners
    cases hm : scope.merged.get? (Text.toLower column.value) with
    | some m => exact ⟨m, rfl, by rwa [hm] at howners⟩
    | none =>
      rw [hm, Option.map_none, Option.getD_none, eq_comm, List.map_eq_nil_iff] at howners
      rw [howners] at hlength
      simp at hlength
  have hshare : ((scope.holders column.value).all fun s => m.owners.contains s.label) = true := by
    refine List.all_eq_true.mpr fun s hs => ?_
    rw [hall, List.contains_iff_mem]
    exact List.mem_map_of_mem (h.values ▸ List.mem_of_mem_filter hs)
  unfold resolve
  simp only [hm, Option.filter_some, hshare, if_true]
  rw [hall]

end Scope

/-! ## Chains -/

/-- A table that is joined. -/
structure JoinedTable where
  isGlobal : Bool := false
  kind : JoinKind := .inner
  table : FromTable

namespace JoinedTable

def join (column : Ident) (j : JoinedTable) : Join :=
  .mk j.isGlobal j.kind j.table.factor none (.using [column])

/-- The join with the full name of the table. -/
def complete (d : Defaults) (j : JoinedTable) : JoinedTable :=
  { j with table := j.table.complete d }

variable {x : Qualifier} {column : Ident}

/-- Joined tables come into the scope one after another, and each of them shares the column. -/
theorem registerList_joins : (joined : List JoinedTable) → {scope : Scope} →
    {sources : List Source} → scope.Chained column sources → sources ≠ [] →
    (∀ s ∈ sources ++ joined.map (fun j => j.table.source x), s.MayHave column.value) →
    ((sources ++ joined.map fun j => j.table.source x).map fun s => Text.toLower s.label.value).Nodup →
    ∃ scope', Join.registerList x {} 0 scope (joined.map (join column)) =
        .ok ((joined.map (complete x.defaults)).map (join column), scope') ∧
      scope'.Chained column (sources ++ joined.map fun j => j.table.source x)
  | [], scope, sources, h, _, _, _ => ⟨scope, rfl, by rwa [List.map_nil, List.append_nil]⟩
  | j :: joined, scope, sources, h, hne, hmay, hnew => by
      have hsplit : sources ++ (j :: joined).map (fun j => j.table.source x) =
          (sources ++ [j.table.source x]) ++ joined.map fun j => j.table.source x := by
        rw [List.map_cons, List.append_assoc, List.singleton_append]
      rw [hsplit] at hmay hnew ⊢
      have hnext := h.join hne (fun s hs => hmay s (List.mem_append_left _ hs))
        (List.Nodup.of_append_left (List.map_append ▸ hnew))
      obtain ⟨scope', hrun, hscope'⟩ := registerList_joins joined hnext (by simp) hmay hnew
      refine ⟨scope', ?_, hscope'⟩
      have hfirst : (j.join column).register x {} 0 scope =
          .ok ((j.complete x.defaults).join column, scope.joinOver column (j.table.source x)) := by
        change (j.table.factor.register x {} scope >>= fun r => _) = _
        rw [FromTable.register_factor]
        rfl
      change ((j.join column).register x {} 0 scope >>= fun first =>
        Join.registerList x {} 0 first.2 (joined.map (join column)) >>= fun rest =>
          pure (first.1 :: rest.1, rest.2)) = _
      exact bind_eq_ok.mpr ⟨_, hfirst, bind_eq_ok.mpr ⟨_, hrun, rfl⟩⟩

theorem qualifyJoinsList_joins (v : Visible) : (joined : List JoinedTable) →
    Join.qualifyJoinsList x v (joined.map (join column))
        ((joined.map (complete x.defaults)).map (join column)) =
      .ok ((joined.map (complete x.defaults)).map (join column))
  | [] => rfl
  | j :: joined => by
      have hrest := qualifyJoinsList_joins v joined
      exact bind_eq_ok.mpr ⟨_, rfl, bind_eq_ok.mpr ⟨_, hrest, rfl⟩⟩

theorem factorsList_joins : (joined : List JoinedTable) →
    Join.factorsList (joined.map (join column)) = (joined.map table).map FromTable.factor
  | [] => rfl
  | j :: joined => congrArg (j.table.factor :: ·) (factorsList_joins joined)

end JoinedTable

/-- Tables that are joined one after another over a column. -/
structure UsingChain where
  column : Ident
  first : FromTable
  joined : List JoinedTable

namespace UsingChain

def tables (c : UsingChain) : List FromTable :=
  c.first :: c.joined.map JoinedTable.table

/-- The chain with the full names of its tables. -/
def complete (d : Defaults) (c : UsingChain) : UsingChain :=
  ⟨c.column, c.first.complete d, c.joined.map (JoinedTable.complete d)⟩

/-- The chain as it stands in a `FROM` clause. -/
def tree (c : UsingChain) : TableTree :=
  .mk c.first.factor (c.joined.map (JoinedTable.join c.column))

/-- A select that reads an item from the chain. -/
def query (c : UsingChain) (item : SelectItem) : Query :=
  .plain [] (.select (.plain [item] [c.tree]))

def written (c : UsingChain) : SelectItem :=
  .expr (.column c.column) none

/-- The column as it is meant: the first of the columns of the tables that is not null. -/
def merged (c : UsingChain) : SelectItem :=
  .expr (mergedColumn (c.tables.map FromTable.ident) c.column) (some c.column)

theorem tables_complete (d : Defaults) (c : UsingChain) :
    (c.complete d).tables = c.tables.map (FromTable.complete d) := by
  rw [tables, tables, complete, List.map_map, List.map_cons, List.map_map]
  rfl

variable {c : UsingChain}

theorem merged_complete (hnames : ∀ t ∈ c.tables, t.name.parts ≠ []) (d : Defaults) :
    (c.complete d).merged = c.merged := by
  rw [merged, merged, tables_complete, List.map_map]
  exact congrArg (fun labels => SelectItem.expr (mergedColumn labels c.column) (some c.column))
    (List.map_congr_left fun t ht => FromTable.ident_complete (hnames t ht) d)

section qualify

variable {x : Qualifier}

/-- The tables of a chain make a scope in which all of them share the column. -/
theorem register_tree (hmay : ∀ t ∈ c.tables, (t.source x).MayHave c.column.value)
    (hdistinct : (c.tables.map FromTable.key).Nodup) :
    ∃ scope, c.tree.register x {} {} = .ok ((c.complete x.defaults).tree, scope) ∧
      scope.Chained c.column (c.tables.map (FromTable.source x)) := by
  have hkeys : (c.tables.map (FromTable.source x)).map (fun s => Text.toLower s.label.value) =
      c.tables.map FromTable.key := by
    rw [List.map_map]
    exact List.map_congr_left fun t _ => congrArg Text.toLower t.ident_value
  have hsources : c.tables.map (FromTable.source x) =
      [c.first.source x] ++ c.joined.map fun j => j.table.source x := by
    rw [tables, List.map_cons, List.map_map]
    rfl
  have hmay' : ∀ s ∈ [c.first.source x] ++ c.joined.map (fun j => j.table.source x),
      s.MayHave c.column.value := by
    rwa [← hsources, List.forall_mem_map]
  have hstart : (Scope.register {} (c.first.source x).label (c.first.source x).columns).Chained
      c.column [c.first.source x] :=
    ⟨Scope.regular_empty.register List.not_mem_nil _, rfl, rfl⟩
  obtain ⟨scope, hrun, hchained⟩ := JoinedTable.registerList_joins c.joined hstart (by simp) hmay'
    (by rwa [← hsources, hkeys])
  exact ⟨scope, bind_eq_ok.mpr ⟨_, c.first.register_factor x {}, bind_eq_ok.mpr ⟨_, hrun, rfl⟩⟩,
    hsources ▸ hchained⟩

/-- The column of a chain becomes the first of its columns that is not null. -/
theorem qualify_query (hjoined : c.joined ≠ [])
    (hmay : ∀ t ∈ c.tables, (t.source x).MayHave c.column.value)
    (hdistinct : (c.tables.map FromTable.key).Nodup) :
    x.qualify (c.query c.written) = .ok ((c.complete x.defaults).query c.merged) := by
  obtain ⟨scope, htree, hchained⟩ := register_tree hmay hdistinct
  have hlength : 2 ≤ (c.tables.map (FromTable.source x)).length := by
    have hpos := List.length_pos_iff.mpr hjoined
    rw [List.length_map, tables, List.length_cons, List.length_map]
    omega
  have hlabels : (c.tables.map (FromTable.source x)).map Source.label =
      c.tables.map FromTable.ident :=
    List.map_map
  have hcolumn : (Visible.withScope {} scope).qualifyColumn [] c.column =
      .ok (mergedColumn (c.tables.map FromTable.ident) c.column) := by
    have hresolve : resolveIn c.column false [scope] =
        .ok (some (mergedColumn (c.tables.map FromTable.ident) c.column)) := by
      rw [resolveIn, hchained.resolve_eq hlength, hlabels]
    have hscopes : (Visible.withScope {} scope).scopes = [scope] := rfl
    rw [Visible.qualifyColumn, List.any_nil, hscopes, hresolve]
  have hitem : SelectItem.qualifyList x (Visible.withScope {} scope) scope 0 [c.written] =
      .ok [c.merged] :=
    bind_eq_ok.mpr ⟨_, bind_eq_ok.mpr ⟨_, hcolumn, rfl⟩, rfl⟩
  have hjoins : c.tree.qualifyJoins x (Visible.withScope {} scope) (c.complete x.defaults).tree =
      .ok (c.complete x.defaults).tree :=
    bind_eq_ok.mpr ⟨_, rfl, bind_eq_ok.mpr ⟨_, JoinedTable.qualifyJoinsList_joins _ c.joined, rfl⟩⟩
  refine (Qualifier.qualify_plain rfl htree hjoins _).trans ?_
  rw [hitem]
  rfl

end qualify

theorem factors_query (item : SelectItem) :
    (Select.plain [item] [c.tree]).factors = c.tables.map FromTable.factor := by
  change (c.first.factor :: Join.factorsList (c.joined.map (JoinedTable.join c.column))) ++ [] = _
  rw [JoinedTable.factorsList_joins, List.append_nil]
  rfl

end UsingChain

theorem references_mergedColumn (owners : List Ident) (column : Ident) :
    (mergedColumn owners column).references =
      owners.map fun o => .column (some o.value) column.value := by
  have hargs : ∀ owners : List Ident, Argument.referencesList (owners.map fun o =>
      .positional (.expr (qualifiedColumn o column))) =
        owners.map fun o => .column (some o.value) column.value := by
    intro owners
    induction owners with
    | nil => rfl
    | cons o rest ih => exact congrArg (.column (some o.value) column.value :: ·) ih
  unfold mergedColumn
  split
  · rfl
  · exact (List.append_nil _).trans ((List.append_nil _).trans (hargs owners))

namespace UsingChain

variable {c : UsingChain}

theorem trace_merged
    (hbase : ∀ t ∈ c.tables, t.reference.isCteIn (c.query c.merged).cteNames = false)
    (hdistinct : (c.tables.map FromTable.key).Nodup) (hdotless : '.' ∉ c.column.value.toList)
    (catalog : Catalog) (d : Defaults) (limit : Nat) :
    (c.query c.merged).trace catalog d (limit + 1) c.column.value =
      .ok (Text.sorted (c.tables.map fun t =>
        (FullName.ofObjectName t.name d).column c.column.value)) := by
  let reads : List TableColumn := c.tables.map (⟨·, c.column.value⟩)
  have hreads : List.Forall₂ TableColumn.WrittenAs reads c.merged.references := by
    rw [merged, SelectItem.references, references_mergedColumn, List.map_map,
      List.forall₂_map_left_iff, List.forall₂_map_right_iff, List.forall₂_same]
    exact fun t _ => ⟨t.ident.value, congrArg Text.toLower t.ident_value, rfl⟩
  have hread : ∀ r ∈ reads, r.table ∈ c.tables ∧ '.' ∉ r.column.toList := by
    intro r hr
    obtain ⟨t, ht, rfl⟩ := List.mem_map.mp hr
    exact ⟨ht, hdotless⟩
  have hfirst : FirstNamesake [some c.column.value] c.column.value 0 :=
    position?_eq_some_iff.mp (by simp [position?, Text.equalIgnoringCase_refl])
  have htrace := Query.traceOf_dotless (i := 0) rfl (factors_query _) hbase hdistinct rfl hreads
    (fun r hr => (hread r hr).1) catalog d limit fun r hr => (hread r hr).2
  have hname := Query.trace_eq_of_firstNamesake (q := c.query c.merged) hfirst catalog d (limit + 1)
  rw [hname, htrace, List.map_map]
  rfl

end UsingChain

/-- The tables `t₁ JOIN t₂ USING (c) JOIN … USING (c)` may have any names and may be joined in any
way, if their aliases differ, also in small letters, and if the catalog knows that all of them have
the column `c`, which has no dot. Then `SELECT c` can be qualified, and its column is traced to the
columns `c` of all tables. -/
theorem Qualifier.trace_usingChain {x : Qualifier} {c : UsingChain} (hjoined : c.joined ≠ [])
    (hdotless : '.' ∉ c.column.value.toList) (hnames : ∀ t ∈ c.tables, t.name.parts ≠ [])
    (hbase : ∀ t ∈ c.tables, t.reference.isCteIn (c.query c.written).cteNames = false)
    (hknown : ∀ t ∈ c.tables, ∃ definition,
      x.catalog.lookup? t.reference x.defaults = some definition ∧
        definition.hasColumn c.column.value = true)
    (hdistinct : (c.tables.map FromTable.key).Nodup) :
    ∃ q, x.qualify (c.query c.written) = .ok q ∧
      ∀ limit, q.trace x.catalog x.defaults (limit + 1) c.column.value =
        .ok (Text.sorted (c.tables.map fun t =>
          (FullName.ofObjectName t.name x.defaults).column c.column.value)) := by
  have hmay : ∀ t ∈ c.tables, (t.source x).MayHave c.column.value := by
    intro t ht
    obtain ⟨definition, hdefinition, hcolumn⟩ := hknown t ht
    exact FromTable.mayHave (hnames t ht) hdefinition hcolumn
  have hqualify := UsingChain.qualify_query hjoined hmay hdistinct
  -- The tables get their full names, which changes neither their labels nor what they mean.
  rw [← UsingChain.merged_complete hnames x.defaults] at hqualify
  have hbase' : ∀ t ∈ (c.complete x.defaults).tables, t.reference.isCteIn
      ((c.complete x.defaults).query (c.complete x.defaults).merged).cteNames = false := by
    rw [Qualifier.cteNames_of_qualify hqualify, c.tables_complete, List.forall_mem_map]
    exact fun t ht => FromTable.isCteIn_complete (hnames t ht) _ (hbase t ht)
  have hkeys : ((c.complete x.defaults).tables.map FromTable.key).Nodup := by
    rw [c.tables_complete, List.map_map]
    exact (List.map_congr_left fun t ht => FromTable.key_complete (hnames t ht) x.defaults) ▸
      hdistinct
  refine ⟨_, hqualify, fun limit => ?_⟩
  refine (UsingChain.trace_merged hbase' hkeys hdotless _ _ limit).trans ?_
  rw [c.tables_complete, List.map_map]
  exact congrArg (fun columns => Except.ok (Text.sorted columns))
    (List.map_congr_left fun t ht => congrArg (FullName.column · c.column.value)
      (FullName.ofObjectName_complete (hnames t ht) x.defaults))

/-- The table `t`, known as `u`. -/
def FromTable.labelled (t u : String) : FromTable :=
  ⟨⟨[⟨t, none⟩]⟩, false, some ⟨⟨u, none⟩, []⟩, []⟩

/-- A catalog of two tables that have the column `c`. -/
def sharedCatalog : Catalog :=
  (Catalog.addTable ⟨∅⟩ "d" "s" "t" [("c", "INT")]).addTable "d" "s" "u" [("C", "INT"), ("a", "INT")]

/-- `t AS x JOIN u AS y USING (c) LEFT JOIN t AS z USING (c)` -/
def UsingChain.three : UsingChain :=
  ⟨⟨"c", none⟩, .labelled "t" "x",
    [⟨false, .inner, .labelled "u" "y"⟩, ⟨false, .left, .labelled "t" "z"⟩]⟩

theorem Qualifier.trace_usingChain_three :
    ∃ q, Qualifier.qualify ⟨sharedCatalog, ⟨some "d", some "s"⟩⟩
        (UsingChain.three.query UsingChain.three.written) = .ok q ∧
      q.trace sharedCatalog ⟨some "d", some "s"⟩ 1 "c" = .ok ["d.s.t.c", "d.s.u.c"] := by
  have hnames : ∀ t ∈ UsingChain.three.tables, t.name.parts ≠ [] := by
    simp [UsingChain.tables, UsingChain.three, FromTable.labelled]
  have hbase : ∀ t ∈ UsingChain.three.tables,
      t.reference.isCteIn (UsingChain.three.query UsingChain.three.written).cteNames = false := by
    decide
  obtain ⟨q, hqualify, htrace⟩ := @Qualifier.trace_usingChain
    ⟨sharedCatalog, ⟨some "d", some "s"⟩⟩ UsingChain.three (by simp [UsingChain.three]) (by decide)
    hnames hbase
    (List.forall_mem_cons.mpr ⟨⟨_, rfl, by decide⟩, List.forall_mem_cons.mpr
      ⟨⟨_, rfl, by decide⟩, List.forall_mem_singleton.mpr ⟨_, rfl, by decide⟩⟩⟩)
    (by decide)
  exact ⟨q, hqualify, htrace 0⟩

end ColumnLineage
