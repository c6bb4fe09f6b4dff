import ColumnLineage.Proofs.Dependencies
import ColumnLineage.Proofs.SmallLetters
import ColumnLineage.Proofs.StarCalls
import ColumnLineage.Proofs.TableReads

/-!
# Which tables a statement depends on

A statement depends on the base tables that its query reads. They are looked for in the qualified
query, where a table counts as a common table if its name is bare and a common table of that name is
declared anywhere. Base tables get full names, so this test is right for them, with one exception: a
base table whose name stays bare is hidden by a common table of its name, wherever that one is
declared. Names stay bare if there is no default schema, and in clauses that are not visited.

* `AnalysisContext.dependsOn_iff`: a statement depends on the base tables that are not hidden.
-/

namespace ColumnLineage

/-! ## One table -/

namespace TableRead

/-- A table is hidden by a common table of its name, declared anywhere, if its name stays bare: there
is no default schema, or the table is not visited. -/
def isHidden (d : Defaults) (names : List String) (r : TableRead) : Bool :=
  (TableReference.ofObjectName r.name).isCteIn names && (d.schema.isNone || !r.around.visited)

def fullName (d : Defaults) (r : TableRead) : FullName :=
  FullName.ofObjectName r.name d

theorem isBase_eq_false {r : TableRead} : r.isBase = false ↔
    ∃ only, r.name.parts = [only] ∧ ∃ n ∈ r.around.ctes, Text.equalIgnoringCase n only.value := by
  obtain ⟨⟨parts⟩, label, around⟩ := r
  match parts with
  | [] => simp [isBase]
  | _ :: _ :: _ => simp [isBase]
  | [only] => simp [isBase]

/-- The bare name of a common table in view is the name of a common table. -/
theorem isCteIn_of_not_base {names : List String} (hlower : ∀ n ∈ names, Text.toLower n = n)
    {r : TableRead} (hctes : r.around.ctes ⊆ names) (hr : r.isBase = false) :
    (TableReference.ofObjectName r.name).isCteIn names = true := by
  obtain ⟨only, hparts, n, hn, heq⟩ := isBase_eq_false.mp hr
  have hsame : Text.toLower only.value = n := by
    rw [← Text.toLower_eq_of_equalIgnoringCase heq]
    exact hlower n (hctes hn)
  rw [TableReference.ofObjectName_single hparts]
  change names.contains (Text.toLower only.value) = true
  rw [hsame]
  exact List.contains_iff_mem.mpr (hctes hn)

/-- A base table counts as a common table exactly if it is hidden. -/
theorem isCteIn_of_base {r : TableRead} (hnamed : r.name.parts ≠ []) (d : Defaults)
    (names : List String) (hr : r.isBase = true) :
    (TableReference.ofObjectName (r.qualified d)).isCteIn names = r.isHidden d names := by
  unfold qualified isHidden
  cases hvisited : r.around.visited with
  | false => simp
  | true =>
    rw [hr, Bool.and_self, if_pos rfl, TableReference.ofObjectName_complete hnamed,
      TableReference.isCteIn_complete, Bool.not_true, Bool.or_false]

/-- What the test for common tables says about a table of the qualified query. -/
theorem isCteIn_qualified {names : List String} (hlower : ∀ n ∈ names, Text.toLower n = n)
    {r : TableRead} (hnamed : r.name.parts ≠ []) (hctes : r.around.ctes ⊆ names) (d : Defaults) :
    (TableReference.ofObjectName (r.qualified d)).isCteIn names =
      !(r.isBase && !r.isHidden d names) := by
  cases hr : r.isBase with
  | true =>
    rw [isCteIn_of_base hnamed d names hr]
    simp
  | false =>
    have hname : r.qualified d = r.name := by simp [qualified, hr]
    rw [hname, isCteIn_of_not_base hlower hctes hr]
    rfl

end TableRead

/-! ## All tables -/

theorem Query.toLower_cteNames (q : Query) : ∀ n ∈ q.cteNames, Text.toLower n = n := by
  intro n hn
  obtain ⟨c, -, rfl⟩ := List.mem_map.mp hn
  exact Text.toLower_toLower c.name.value

namespace AnalysisContext

/-- The query that is analysed reads the tables of the query that is written, under the names that
qualification gives to them, and declares the same names. -/
theorem reads_of_prepare {x : AnalysisContext} {q qualified : Query}
    (h : x.prepare q = .ok qualified) :
    qualified.reads .outside =
        (q.reads .outside).map (TableRead.rename (TableRead.qualified x.defaults)) ∧
      qualified.cteNames = q.cteNames := by
  have hreads := Qualifier.reads_of_qualify h
  have hnames := Qualifier.cteNames_of_qualify h
  rw [Query.reads_expandStars, Query.reads_unwrap] at hreads
  rw [Query.cteNames_expandStars, Query.cteNames_unwrap] at hnames
  exact ⟨hreads, hnames⟩

/-- The base tables of the query that is analysed are the base tables that are not hidden. -/
theorem dependencies_eq {x : AnalysisContext} {q qualified : Query}
    (h : x.prepare q = .ok qualified) (hnamed : ∀ r ∈ q.reads .outside, r.name.parts ≠ []) :
    x.dependencies qualified =
      Text.sorted (((q.reads .outside).filter fun r =>
        r.isBase && !r.isHidden x.defaults q.cteNames).map fun r =>
          (r.fullName x.defaults).text) := by
  obtain ⟨hreads, hnames⟩ := reads_of_prepare h
  have hkept : ∀ r ∈ q.reads .outside,
      (!(TableReference.ofObjectName (r.qualified x.defaults)).isCteIn q.cteNames) =
        (r.isBase && !r.isHidden x.defaults q.cteNames) := by
    intro r hr
    have hctes : r.around.ctes ⊆ q.cteNames := by
      have hsub := Query.reads_around hr
      rwa [Surroundings.outside, List.append_nil] at hsub
    rw [TableRead.isCteIn_qualified q.toLower_cteNames (hnamed r hr) hctes, Bool.not_not]
  have hname : ∀ r ∈ q.reads .outside,
      (FullName.ofObjectName (r.qualified x.defaults) x.defaults).text =
        (r.fullName x.defaults).text := by
    intro r hr
    exact congrArg FullName.text (TableRead.ofObjectName_qualified (hnamed r hr) x.defaults)
  unfold dependencies Query.baseTables
  rw [hnames, qualified.tableUses_eq_reads .outside, hreads, List.map_map, List.filter_map,
    List.map_map]
  refine congrArg Text.sorted ?_
  refine (congrArg (List.map _) (List.filter_congr hkept)).trans ?_
  exact List.map_congr_left fun r hr => hname r (List.mem_filter.mp hr).1

/-- A statement depends on the base tables that its query reads and that are not hidden by a common
table of their name, each once and in order. So it depends on all base tables if there is a default
schema and all tables are visited. -/
theorem dependsOn_iff (x : AnalysisContext) (target : ObjectName) {q qualified : Query}
    (h : x.prepare q = .ok qualified) (hnamed : ∀ t ∈ q.allTables, t.1.parts ≠ []) :
    ∃ lineage, (x.analyze target q).lineage = some lineage ∧
      Text.Ascending lineage.dependsOn ∧
      (∀ f, f ∈ lineage.dependsOn ↔ ∃ r ∈ q.reads .outside, r.isBase = true ∧
        r.isHidden x.defaults q.cteNames = false ∧ (r.fullName x.defaults).text = f) ∧
      (x.defaults.schema.isSome → (∀ r ∈ q.reads .outside, r.around.visited = true) →
        ∀ f, f ∈ lineage.dependsOn ↔
          ∃ r ∈ q.reads .outside, r.isBase = true ∧ (r.fullName x.defaults).text = f) := by
  have hparts : ∀ r ∈ q.reads .outside, r.name.parts ≠ [] := by
    intro r hr
    refine hnamed (r.name, r.label) ?_
    rw [q.allTables_eq_reads .outside]
    exact List.mem_map.mpr ⟨r, hr, rfl⟩
  have hlineage : (x.analyze target q).lineage = some (x.lineageOf qualified).1 := by
    unfold analyze
    rw [h]
  have hdepends := (x.lineageOf_spec qualified).1
  rw [dependencies_eq h hparts] at hdepends
  have hiff : ∀ f, f ∈ (x.lineageOf qualified).1.dependsOn ↔ ∃ r ∈ q.reads .outside,
      r.isBase = true ∧ r.isHidden x.defaults q.cteNames = false ∧
        (r.fullName x.defaults).text = f := by
    intro f
    rw [hdepends, Text.sorted, Text.mem_sortDistinct, List.mem_map]
    simp only [List.mem_filter, Bool.and_eq_true, Bool.not_eq_true', and_assoc]
  refine ⟨_, hlineage, ?_, hiff, ?_⟩
  · rw [hdepends]
    exact Text.ascending_sorted _
  · intro hschema hvisited f
    have hseen : ∀ r ∈ q.reads .outside, r.isHidden x.defaults q.cteNames = false := by
      intro r hr
      simp [TableRead.isHidden, hvisited r hr, Option.isNone_eq_false_iff.mpr hschema]
    rw [hiff]
    constructor
    · rintro ⟨r, hr, hbase, -, hf⟩
      exact ⟨r, hr, hbase, hf⟩
    · rintro ⟨r, hr, hbase, hf⟩
      exact ⟨r, hr, hbase, hseen r hr, hf⟩

/-- Without a default schema, a common table hides the table of the same name that it reads. -/
theorem dependsOn_iff_sameNamed :
    (analyze ⟨⟨∅⟩, ⟨some "db", none⟩, 8⟩ ⟨[⟨"v", none⟩]⟩ (sameNamed [])).lineage =
        some ⟨[], ∅⟩ ∧
      ∃ lineage, (analyze ⟨⟨∅⟩, ⟨some "db", none⟩, 8⟩ ⟨[⟨"v", none⟩]⟩ (sameNamed [])).lineage =
          some lineage ∧
        Text.Ascending lineage.dependsOn ∧
        (∀ f, f ∈ lineage.dependsOn ↔ ∃ r ∈ (sameNamed []).reads .outside, r.isBase = true ∧
          r.isHidden ⟨some "db", none⟩ (sameNamed []).cteNames = false ∧
          (r.fullName ⟨some "db", none⟩).text = f) ∧
        ((none : Option String).isSome →
          (∀ r ∈ (sameNamed []).reads .outside, r.around.visited = true) →
          ∀ f, f ∈ lineage.dependsOn ↔ ∃ r ∈ (sameNamed []).reads .outside, r.isBase = true ∧
            (r.fullName ⟨some "db", none⟩).text = f) := by
  have h : prepare ⟨⟨∅⟩, ⟨some "db", none⟩, 8⟩ (sameNamed []) = .ok (sameNamed []) := by
    rfl
  exact ⟨by decide, dependsOn_iff _ _ h (by decide)⟩

end AnalysisContext

end ColumnLineage
