import ColumnLineage.Proofs.UsingChains
import ColumnLineage.Proofs.Wrapping

/-!
# Column lists of aliases

The alias of a source may have a list of column names, as in `AS u (v, w)`. Only a query in a `FROM`
clause takes its column names from there. A base table has the columns that the catalog knows, and a
common table those of its own declaration, whatever the list says.

* `Qualifier.trace_columnList`: which sources the list renames the columns of.
-/

namespace ColumnLineage

/-! ## Columns of the only source -/

instance (source : Source) (column : String) : Decidable (source.MayHave column) :=
  inferInstanceAs (Decidable (_ ∨ _))

/-- A scope with one source gives a column to it, if the source may have the column. -/
theorem Scope.resolve_only (source : Source) (column : Ident) :
    (Scope.register {} source.label source.columns).resolve column false =
      if source.MayHave column.value then .replace (qualifiedColumn source.label column)
      else .pass := by
  obtain ⟨label, columns⟩ := source
  have hvalues : (Scope.register {} label columns).sources.values = [⟨label, columns⟩] := rfl
  have hmerged : ∀ key, (Scope.register {} label columns).merged.get? key = none := fun _ => rfl
  unfold Scope.resolve Scope.holders Scope.unknowns Source.MayHave
  rw [hvalues, hmerged]
  cases columns with
  | unknown => simp [Columns.contains]
  | known names =>
    by_cases hcontains : (Columns.known names).contains column.value = true <;> simp [hcontains]

/-- A column that a select reads. -/
structure ColumnRead where
  /-- The alias before it, if one is written. -/
  qualifier : Option Ident
  column : Ident
  /-- The name that it gets, if one is written. -/
  label : Option Ident

namespace ColumnRead

def item (r : ColumnRead) : SelectItem :=
  .expr (r.qualifier.elim (.column r.column) (qualifiedColumn · r.column)) r.label

/-- The item with an alias and a name. -/
def qualified (label : Ident) (r : ColumnRead) : SelectItem :=
  .expr (qualifiedColumn (r.qualifier.getD label) r.column) (some (r.label.getD r.column))

/-- Without an alias, a column is found only if the source may have it. -/
def Found (source : Source) (r : ColumnRead) : Prop :=
  r.qualifier = none → source.MayHave r.column.value

instance (source : Source) (r : ColumnRead) : Decidable (r.Found source) :=
  inferInstanceAs (Decidable (_ → _))

/-- The items of a select that reads from one source, or the first column that is not found. -/
def qualifyAll (source : Source) (reads : List ColumnRead) : Except QualifyError (List SelectItem) :=
  match reads.find? fun r => ¬ r.Found source with
  | some r => .error (.unresolved r.column.value)
  | none => .ok (reads.map (qualified source.label))

section qualify

variable {x : Qualifier} {v : Visible} (hv : v.scopes = []) (source : Source)

include hv

theorem qualify_item (k : Nat) (r : ColumnRead) :
    r.item.qualify x (v.withScope (Scope.register {} source.label source.columns))
        (Scope.register {} source.label source.columns) k =
      if r.Found source then .ok [r.qualified source.label]
      else .error (.unresolved r.column.value) := by
  obtain ⟨qualifier, column, label⟩ := r
  cases qualifier with
  | some l =>
    have hfound : Found source ⟨some l, column, label⟩ := nofun
    rw [if_pos hfound]
    rfl
  | none =>
    have hscopes : (v.withScope (Scope.register {} source.label source.columns)).scopes =
        [Scope.register {} source.label source.columns] := by
      rw [Visible.withScope, hv]
    have hfound : Found source ⟨none, column, label⟩ ↔ source.MayHave column.value :=
      ⟨fun h => h rfl, fun h _ => h⟩
    change (Visible.qualifyColumn _ [] column >>= _) = _
    rw [Visible.qualifyColumn, hscopes, List.any_nil, resolveIn, Scope.resolve_only]
    by_cases hmay : source.MayHave column.value
    · rw [if_pos hmay, if_pos (hfound.mpr hmay)]
      rfl
    · rw [if_neg hmay, if_neg (mt hfound.mp hmay)]
      rfl

/-- Columns that are read from the only source, one after another. -/
theorem qualifyList_eq : (reads : List ColumnRead) → (k : Nat) →
    SelectItem.qualifyList x (v.withScope (Scope.register {} source.label source.columns))
        (Scope.register {} source.label source.columns) k (reads.map item) =
      qualifyAll source reads
  | [], _ => rfl
  | r :: reads, k => by
      change (r.item.qualify x _ _ k >>= fun first => _ >>= _) = _
      rw [qualify_item hv]
      by_cases hr : r.Found source
      · rw [if_pos hr, qualifyAll, List.find?_cons_of_neg (by simpa using hr)]
        change (SelectItem.qualifyList x _ _ (k + 1) (reads.map item) >>= _) = _
        rw [qualifyList_eq reads (k + 1), qualifyAll]
        cases reads.find? fun r => ¬ r.Found source <;> rfl
      · rw [if_neg hr, qualifyAll, List.find?_cons_of_pos (by simpa using hr)]
        rfl

end qualify

theorem partsList_qualified (label : Ident) : (reads : List ColumnRead) →
    SelectItem.partsList (reads.map (qualified label)) = []
  | [] => rfl
  | r :: reads => by
      rw [List.map_cons, SelectItem.partsList, partsList_qualified label reads]
      simp [qualified, qualifiedColumn, SelectItem.parts, Expr.parts]

end ColumnRead

/-! ## Sources with an alias -/

/-- A name that is bare after qualification was the same name before. -/
theorem TableRead.ofObjectName_of_isBare {r : TableRead} {d : Defaults} (hr : r.name.parts ≠ [])
    (h : (TableReference.ofObjectName (r.qualified d)).isBare = true) :
    TableReference.ofObjectName (r.qualified d) = .ofObjectName r.name := by
  unfold TableRead.qualified at h ⊢
  split at h
  · rename_i hcomplete
    rw [TableReference.ofObjectName_complete hr] at h
    rw [if_pos hcomplete, TableReference.ofObjectName_complete hr,
      TableReference.complete_of_isBare h]
  · rename_i hcomplete
    rw [if_neg hcomplete]

theorem Qualifier.avoids_of_qualify {x : Qualifier} {q q' : Query} {name : Ident} (havoids : q.Avoids name)
    (hnamed : ∀ t ∈ q.allTables, t.1.parts ≠ []) (h : x.qualify q = .ok q') : q'.Avoids name := by
  intro u hu hbare heq
  rw [q'.tableUses_eq_reads .outside, Qualifier.reads_of_qualify h, List.map_map] at hu
  obtain ⟨r, hr, hu⟩ := List.mem_map.mp hu
  have href : u.reference = .ofObjectName (r.qualified x.defaults) :=
    (congrArg TableUse.reference hu).symm
  have hparts : r.name.parts ≠ [] := by
    refine hnamed (r.name, r.label) ?_
    rw [q.allTables_eq_reads .outside]
    exact List.mem_map.mpr ⟨r, hr, rfl⟩
  rw [href] at hbare heq
  have hsame := TableRead.ofObjectName_of_isBare hparts hbare
  rw [hsame] at hbare heq
  have hmem : (⟨r.label.map fun a => a.name.value, .ofObjectName r.name⟩ : TableUse) ∈
      q.tableUses := by
    rw [q.tableUses_eq_reads .outside]
    exact List.mem_map.mpr ⟨r, hr, rfl⟩
  exact havoids _ hmem hbare heq

/-- The only source of a select, which has an alias. -/
inductive AliasedSource
  | table (name : ObjectName)
  /-- A common table and the name by which it is read. -/
  | cte (declaration : TableAlias) (name : Ident) (query : Query)
  | derived (query : Query)

namespace AliasedSource

def query (a : TableAlias) (items : List SelectItem) : AliasedSource → Query
  | table name => .plain [] (.select (.plain items [.mk (.table name false (some a) []) []]))
  | cte declaration name q => q.fromCte declaration name (some a) items
  | derived q => q.fromSource a items

/-- The columns that are declared for the source. Only a query in the `FROM` clause takes them from
its alias. -/
def declared? (a : TableAlias) : AliasedSource → Option Columns
  | table _ => none
  | cte declaration _ _ => Columns.declared? declaration
  | derived _ => Columns.declared? a

/-- The source under its full name or with its query qualified, and its own columns. -/
def qualify (x : Qualifier) : AliasedSource → Except QualifyError (AliasedSource × Columns)
  | table name =>
    let full := name.complete x.defaults
    return (table full, x.tableColumns (.ofObjectName full))
  | cte declaration name q => do
    let (q, columns) ← q.qualify x {}
    return (cte declaration name q, columns)
  | derived q => do
    let (q, columns) ← q.qualify x {}
    return (derived q, columns)

/-- The lineage of the column of a name, one level below the select. -/
def lineage (a : TableAlias) (catalog : Catalog) (d : Defaults) (m : Nat) (column : String) :
    AliasedSource → Except TraceError (List String)
  | table name => .ok [(FullName.ofObjectName name d).column (behindLastDot column)]
  | cte declaration _ q =>
    (q.traceOf catalog d m (declaredTarget declaration.columnNames column)).mapError
      (TraceError.under (m + 1))
  | derived q =>
    (q.traceOf catalog d m (declaredTarget a.columnNames column)).mapError
      (TraceError.under (m + 1))

/-- All names have a part, and a common table is found by its name, in small letters or not, and is
not read by its own query. -/
def Proper : AliasedSource → Prop
  | table name => name.parts ≠ []
  | cte declaration name q =>
    Text.equalIgnoringCase declaration.name.value name.value = true ∧
      Text.equalIgnoringCase (Text.toLower declaration.name.value) name.value = true ∧
      q.Avoids declaration.name ∧ ∀ t ∈ q.allTables, t.1.parts ≠ []
  | derived _ => True

variable {s s' : AliasedSource} {a : TableAlias} {own : Columns} {x : Qualifier}

def source (a : TableAlias) (own : Columns) (s : AliasedSource) : Source :=
  ⟨a.name, (s.declared? a).getD own⟩

/-- A select from one source is qualified by the columns that the source has. -/
theorem qualify_query (h : s.Proper) (hs : s.qualify x = .ok (s', own)) (reads : List ColumnRead) :
    x.qualify (s.query a (reads.map ColumnRead.item)) =
      (ColumnRead.qualifyAll (s.source a own) reads).map (s'.query a ·) := by
  cases s with
  | table name =>
    cases pure_eq_ok.mp hs
    have hctes : Cte.qualifyList x false {} [] = .ok ([], {}) := rfl
    let t : FromTable := ⟨name, false, some a, []⟩
    have htree : (TableTree.mk t.factor []).register x {} {} =
        .ok (.mk (t.complete x.defaults).factor [], _) :=
      bind_eq_ok.mpr ⟨_, t.register_factor x {}, rfl⟩
    refine (Qualifier.qualify_plain hctes htree rfl _).trans ?_
    have hitems := ColumnRead.qualifyList_eq (x := x) (v := {}) rfl (t.source x) reads 0
    exact congrArg (Except.map _) hitems
  | cte declaration name q =>
    obtain ⟨⟨q', columns⟩, hq, hs⟩ := bind_eq_ok.mp hs
    cases pure_eq_ok.mp hs
    obtain ⟨-, hname, -⟩ := h
    have hctes : Cte.qualifyList x false {} [.mk declaration none q none] =
        .ok ([.mk declaration none q' none], Visible.withCte {} declaration.name.value
          ((Columns.declared? declaration).getD own)) :=
      bind_eq_ok.mpr ⟨_, bind_eq_ok.mpr ⟨_, hq, rfl⟩, rfl⟩
    have hcte : (Visible.withCte {} declaration.name.value
        ((Columns.declared? declaration).getD own)).cteOf? ⟨[name]⟩ =
          some ((Columns.declared? declaration).getD own) := by
      simp [Visible.cteOf?, Visible.cteColumns?, Visible.withCte, hname]
    have htree : (TableTree.mk (.table ⟨[name]⟩ false (some a) []) []).register x
        (Visible.withCte {} declaration.name.value ((Columns.declared? declaration).getD own)) {} =
        .ok (.mk (.table ⟨[name]⟩ false (some a) []) [],
          Scope.register {} a.name ((Columns.declared? declaration).getD own)) := by
      refine bind_eq_ok.mpr ⟨(.table ⟨[name]⟩ false (some a) [],
        Scope.register {} a.name ((Columns.declared? declaration).getD own)), ?_, rfl⟩
      rw [TableFactor.register, Scope.registerTable, hcte]
      rfl
    refine (Qualifier.qualify_plain hctes htree rfl _).trans ?_
    exact congrArg (Except.map _) (ColumnRead.qualifyList_eq rfl
      ⟨a.name, (Columns.declared? declaration).getD own⟩ reads 0)
  | derived q =>
    obtain ⟨⟨q', columns⟩, hq, hs⟩ := bind_eq_ok.mp hs
    cases pure_eq_ok.mp hs
    have hctes : Cte.qualifyList x false {} [] = .ok ([], {}) := rfl
    have htree : (TableTree.mk (.derived false q (some a)) []).register x {} {} =
        .ok (.mk (.derived false q' (some a)) [],
          Scope.register {} a.name ((Columns.declared? a).getD own)) :=
      bind_eq_ok.mpr ⟨_, bind_eq_ok.mpr ⟨_, hq, rfl⟩, rfl⟩
    refine (Qualifier.qualify_plain hctes htree rfl _).trans ?_
    exact congrArg (Except.map _) (ColumnRead.qualifyList_eq (x := x) (v := {}) rfl
      ⟨a.name, (Columns.declared? a).getD own⟩ reads 0)

theorem cteNames_table (name : ObjectName) {items : List SelectItem}
    (hitems : SelectItem.partsList items = []) : ((table name).query a items).cteNames = [] := by
  rw [Query.cteNames_eq, query, Query.parts_plain, hitems]
  simp [Cte.partsList, TableTree.partsList, TableTree.parts, TableFactor.parts, Join.partsList,
    Expr.partsList, declaredNames]
  rfl

/-- A column of a select from one source is traced to the column of its name in the source. -/
theorem traceOf_query (h : s.Proper) (hs : s.qualify x = .ok (s', own)) {reads : List ColumnRead}
    (hreads : ∀ r ∈ reads, ∀ l ∈ r.qualifier, Text.toLower l.value = Text.toLower a.name.value)
    {j : Nat} {r : ColumnRead} (hr : reads[j]? = some r) (catalog : Catalog) (d : Defaults)
    (m : Nat) :
    (s'.query a (reads.map (ColumnRead.qualified a.name))).traceOf catalog d (m + 1) (.index j) =
      s'.lineage a catalog d m r.column.value := by
  have hitems := ColumnRead.partsList_qualified a.name reads
  have hitem : (reads.map (ColumnRead.qualified a.name))[j]? = some (r.qualified a.name) := by
    rw [List.getElem?_map, hr, Option.map_some]
  have hlabel : Text.toLower (r.qualifier.getD a.name).value = Text.toLower a.name.value := by
    cases hq : r.qualifier with
    | none => rfl
    | some l => exact hreads r (List.mem_of_getElem? hr) l hq
  cases s with
  | table name =>
    cases pure_eq_ok.mp hs
    let t : FromTable := ⟨name.complete x.defaults, false, some a, []⟩
    have hbase : ∀ u ∈ [t], u.reference.isCteIn
        ((table t.name).query a (reads.map (ColumnRead.qualified a.name))).cteNames = false := by
      intro u _
      rw [cteNames_table t.name hitems]
      exact Bool.and_false _
    have hwritten : List.Forall₂ TableColumn.WrittenAs [⟨t, r.column.value⟩]
        (r.qualified a.name).references :=
      .cons ⟨_, hlabel, rfl⟩ .nil
    have htrace := Query.traceOf_distinct rfl rfl hbase (List.nodup_singleton _) hitem hwritten
      (by simp) catalog d m
    refine htrace.trans ?_
    rw [List.map_singleton, TableColumn.firstIn_singleton]
    rfl
  | cte declaration name q =>
    obtain ⟨⟨q', columns⟩, hq, hs⟩ := bind_eq_ok.mp hs
    cases pure_eq_ok.mp hs
    obtain ⟨hname, -, havoids, hnamed⟩ := h
    have hq' : x.qualify q = .ok q' := bind_eq_ok.mpr ⟨_, hq, rfl⟩
    exact (Wrapping.ofCte declaration (Qualifier.avoids_of_qualify havoids hnamed hq') hname (some a)
      hitems hlabel ⟨_, hitem, rfl⟩).traceOf_outer catalog d m
  | derived q =>
    obtain ⟨⟨q', columns⟩, hq, hs⟩ := bind_eq_ok.mp hs
    cases pure_eq_ok.mp hs
    exact (Wrapping.ofSource q' a hitems hlabel ⟨_, hitem, rfl⟩).traceOf_outer catalog d m

section listed

variable {q : Query} {column : String} {i : Nat}
  (hi : FirstNamesake (a.columnNames.map some) column i)

include hi

theorem findIdx?_columnNames :
    a.columnNames.findIdx? (Text.equalIgnoringCase · column) = some i := by
  rw [← position?_eq_some_iff, position?, List.findIdx?_map] at hi
  exact hi

/-- A query in the `FROM` clause has the columns that its alias declares. -/
theorem mayHave_derived : ((derived q).source a own).MayHave column := by
  have hany : a.columnNames.any (Text.equalIgnoringCase · column) = true := by
    rw [← List.findIdx?_isSome, findIdx?_columnNames hi]
    rfl
  have hcolumns : Columns.declared? a = some (.known a.columnNames) := by
    unfold Columns.declared?
    split
    · rename_i hnil
      simp [TableAlias.columnNames, hnil] at hany
    · rfl
  rw [source, declared?, hcolumns]
  exact Or.inl hany

theorem lineage_derived (catalog : Catalog) (d : Defaults) (m : Nat) :
    (derived q).lineage a catalog d m column =
      (q.traceOf catalog d m (.index i)).mapError (TraceError.under (m + 1)) := by
  rw [lineage, declaredTarget, findIdx?_columnNames hi]

end listed

end AliasedSource

/-- Columns are read from one source with an alias, behind the alias or alone. They become columns
behind the alias, unless one that stands alone is not known to the source; and each of them is traced
to the column of its name in the source. A query in the `FROM` clause goes by the names in the list
of its alias: all of them can be read, and each leads to the column at its position. A base table and
a common table go by their own names, so there the list has no effect. -/
theorem Qualifier.trace_columnList {x : Qualifier} {s s' : AliasedSource} {a : TableAlias}
    {own : Columns} (h : s.Proper) (hs : s.qualify x = .ok (s', own)) {reads : List ColumnRead}
    (hreads : ∀ r ∈ reads, ∀ l ∈ r.qualifier, Text.toLower l.value = Text.toLower a.name.value) :
    x.qualify (s.query a (reads.map ColumnRead.item)) =
        (ColumnRead.qualifyAll (s.source a own) reads).map (s'.query a ·) ∧
      (∀ j r m, reads[j]? = some r →
        (s'.query a (reads.map (ColumnRead.qualified a.name))).traceOf x.catalog x.defaults (m + 1)
            (.index j) = s'.lineage a x.catalog x.defaults m r.column.value) ∧
      ∀ q, s = .derived q →
        (∀ r ∈ reads, ∃ i, FirstNamesake (a.columnNames.map some) r.column.value i) →
        ∃ q', x.qualify q = .ok q' ∧
          x.qualify (q.fromSource a (reads.map ColumnRead.item)) =
            .ok (q'.fromSource a (reads.map (ColumnRead.qualified a.name))) ∧
          ∀ j r i m, reads[j]? = some r →
            FirstNamesake (a.columnNames.map some) r.column.value i →
            (q'.fromSource a (reads.map (ColumnRead.qualified a.name))).traceOf x.catalog x.defaults
                (m + 1) (.index j) =
              (q'.traceOf x.catalog x.defaults m (.index i)).mapError (TraceError.under (m + 1)) := by
  have hqualify := AliasedSource.qualify_query (a := a) h hs reads
  have htrace : ∀ j r m, reads[j]? = some r → _ := fun j r m hr =>
    AliasedSource.traceOf_query h hs hreads hr x.catalog x.defaults m
  refine ⟨hqualify, htrace, ?_⟩
  rintro q rfl hlisted
  obtain ⟨⟨q', columns⟩, hq, hs⟩ := bind_eq_ok.mp hs
  cases pure_eq_ok.mp hs
  refine ⟨q', bind_eq_ok.mpr ⟨_, hq, rfl⟩, ?_, ?_⟩
  · have hall : reads.find? (fun r => ¬ r.Found ((AliasedSource.derived q).source a own)) =
        none := by
      refine List.find?_eq_none.mpr fun r hr => ?_
      obtain ⟨i, hi⟩ := hlisted r hr
      have hfound : r.Found ((AliasedSource.derived q).source a own) :=
        fun _ => AliasedSource.mayHave_derived hi
      simpa using hfound
    rw [ColumnRead.qualifyAll, hall] at hqualify
    exact hqualify
  · intro j r i m hr hi
    exact (htrace j r m hr).trans (AliasedSource.lineage_derived hi _ _ m)

/-- The alias `w (v, k)`. -/
def TableAlias.renaming : TableAlias :=
  ⟨⟨"w", none⟩, [⟨⟨"v", none⟩, none⟩, ⟨⟨"k", none⟩, none⟩]⟩

/-- `K, W.v AS z` -/
def ColumnRead.renamed : List ColumnRead :=
  [⟨none, ⟨"K", none⟩, none⟩, ⟨some ⟨"W", none⟩, ⟨"v", none⟩, some ⟨"z", none⟩⟩]

/-- `SELECT y.a AS a, y.C AS C FROM t`, where the alias of the table is `y`. -/
def FromTable.twoColumns (t : FromTable) : Query :=
  .plain [] (.select (.plain [.plain "y" "a", .plain "y" "C"] [.mk t.factor []]))

/-- `SELECT K, W.v AS z FROM (SELECT y.a, y.C FROM u AS y) AS w (v, k)` reads the columns of the
query, and `SELECT K, W.v AS z FROM u AS w (v, k)` fails. -/
theorem Qualifier.trace_columnList_renaming :
    (∃ q, Qualifier.qualify ⟨sharedCatalog, ⟨some "d", some "s"⟩⟩
        ((FromTable.labelled "u" "y").twoColumns.fromSource .renaming
          (ColumnRead.renamed.map ColumnRead.item)) = .ok q ∧
      q.traceOf sharedCatalog ⟨some "d", some "s"⟩ 2 (.index 0) = .ok ["d.s.u.C"]) ∧
    Qualifier.qualify ⟨sharedCatalog, ⟨some "d", some "s"⟩⟩
        ((AliasedSource.table ⟨[⟨"u", none⟩]⟩).query .renaming
          (ColumnRead.renamed.map ColumnRead.item)) = .error (.unresolved "K") := by
  let x : Qualifier := ⟨sharedCatalog, ⟨some "d", some "s"⟩⟩
  let t := (FromTable.labelled "u" "y").complete x.defaults
  have hreads : ∀ r ∈ ColumnRead.renamed, ∀ l ∈ r.qualifier,
      Text.toLower l.value = Text.toLower TableAlias.renaming.name.value := by
    decide
  have hderived : (AliasedSource.derived (FromTable.labelled "u" "y").twoColumns).qualify x =
      .ok (.derived t.twoColumns, .known ["a", "C"]) := rfl
  have htable : (AliasedSource.table ⟨[⟨"u", none⟩]⟩).qualify x =
      .ok (.table t.name, .known ["C", "a"]) := rfl
  have hK : FirstNamesake (TableAlias.renaming.columnNames.map some) "K" 1 :=
    position?_eq_some_iff.mp (by decide)
  have hv : FirstNamesake (TableAlias.renaming.columnNames.map some) "v" 0 :=
    position?_eq_some_iff.mp (by decide)
  have hlisted : ∀ r ∈ ColumnRead.renamed, ∃ i,
      FirstNamesake (TableAlias.renaming.columnNames.map some) r.column.value i :=
    List.forall_mem_cons.mpr ⟨⟨1, hK⟩, List.forall_mem_singleton.mpr ⟨0, hv⟩⟩
  obtain ⟨q', hq', hqualify, htrace⟩ :=
    (Qualifier.trace_columnList (s := .derived _) trivial hderived hreads).2.2 _ rfl hlisted
  obtain rfl : q' = t.twoColumns := (Except.ok.inj hq').symm
  refine ⟨⟨_, hqualify, (htrace 0 _ 1 1 rfl hK).trans ?_⟩, ?_⟩
  · have hinner : t.twoColumns.traceOf sharedCatalog x.defaults 1 (.index 1) =
        .ok ["d.s.u.C"] := by
      decide
    rw [hinner]
    rfl
  · exact (Qualifier.trace_columnList (by simp [AliasedSource.Proper]) htable hreads).1

end ColumnLineage
