import ColumnLineage.Analysis.Script
import ColumnLineage.Proofs.ExactDependencies

/-!
# Tables that are found before the analysis

The names of the tables that a script reads are collected before its statements are analysed. A
statement depends on its base tables. Their names are among those that are collected, unless a query
somewhere in the script has a common table of that name: it hides the name wherever it stands, also
behind a schema and in other statements.

* `AnalysisContext.mem_discoverTables_iff`: which names of base tables are among them.
-/

namespace ColumnLineage

/-- The missing parts of a name are supplied before the name itself. -/
theorem TableRead.name_qualified {r : TableRead} (hr : r.name.parts ≠ []) (d : Defaults) :
    (TableReference.ofObjectName (r.qualified d)).name =
      (TableReference.ofObjectName r.name).name := by
  unfold TableRead.qualified
  split
  · exact TableReference.name_complete hr d
  · rfl

/-- The names that are collected are those of tables and not those of common tables. -/
theorem mem_sourceTables {queries : List Query} {name : String} :
    name ∈ sourceTables queries ↔ (∃ q ∈ queries, ∃ u ∈ q.tableUses, u.reference.name = name) ∧
      ∀ q ∈ queries, Text.toLower name ∉ q.cteNames := by
  unfold sourceTables
  rw [Text.sorted, Text.mem_sortDistinct, List.mem_filter, List.mem_map]
  simp only [List.mem_flatMap, Bool.not_eq_true', List.contains_eq_mem, decide_eq_false_iff_not,
    not_exists, not_and]
  constructor
  · rintro ⟨⟨u, ⟨q, hq, hu⟩, hn⟩, hnot⟩
    exact ⟨⟨q, hq, u, hu, hn⟩, hnot⟩
  · rintro ⟨⟨q, hq, u, hu, hn⟩, hnot⟩
    exact ⟨⟨u, ⟨q, hq, hu⟩, hn⟩, hnot⟩

theorem Statement.source?_of_tableQuery? {s : Statement} {target : ObjectName} {q : Query}
    (h : s.tableQuery? = some (target, q)) : s.source? = some q := by
  cases s with
  | createTable t =>
    obtain ⟨q', hq, he⟩ := Option.map_eq_some_iff.mp h
    cases he
    exact hq
  | _ => cases h

namespace AnalysisContext

variable {x : AnalysisContext} {q qualified : Query}

/-- The query that is analysed reads tables by the names that are written. -/
theorem name_mem_tableUses (h : x.prepare q = .ok qualified)
    (hnamed : ∀ t ∈ q.allTables, t.1.parts ≠ []) {u : TableUse} (hu : u ∈ qualified.tableUses) :
    ∃ v ∈ q.tableUses, v.reference.name = u.reference.name := by
  rw [qualified.tableUses_eq_reads .outside, (reads_of_prepare h).1, List.map_map] at hu
  obtain ⟨r, hr, rfl⟩ := List.mem_map.mp hu
  have hparts : r.name.parts ≠ [] := by
    refine hnamed (r.name, r.label) ?_
    rw [q.allTables_eq_reads .outside]
    exact List.mem_map.mpr ⟨r, hr, rfl⟩
  refine ⟨⟨r.label.map fun a => a.name.value, .ofObjectName r.name⟩, ?_, ?_⟩
  · rw [q.tableUses_eq_reads .outside]
    exact List.mem_map.mpr ⟨r, hr, rfl⟩
  · exact (TableRead.name_qualified hparts x.defaults).symm

/-- The name of a base table that a statement depends on is collected, unless some query in the
script has a common table of that name. -/
theorem mem_discoverTables_iff {dialect : Dialect} {sql : String}
    {statements : List ScriptStatement} (hparse : Script.parse dialect true sql = .ok statements)
    {target : ObjectName} (hq : (target, q) ∈ statements.filterMap fun s => s.statement.tableQuery?)
    (h : x.prepare q = .ok qualified) (hnamed : ∀ t ∈ q.allTables, t.1.parts ≠ []) {u : TableUse}
    (hu : u ∈ qualified.baseTables) :
    u.reference.name ∈ discoverTables dialect sql ↔
      ∀ s ∈ statements, ∀ q', s.statement.source? = some q' →
        Text.toLower u.reference.name ∉ q'.cteNames := by
  have hdiscover : discoverTables dialect sql =
      sourceTables (statements.filterMap fun s => s.statement.source?) := by
    unfold discoverTables
    rw [hparse]
  have hread : ∃ q ∈ statements.filterMap fun s => s.statement.source?,
      ∃ v ∈ q.tableUses, v.reference.name = u.reference.name := by
    obtain ⟨s, hs, htable⟩ := List.mem_filterMap.mp hq
    have hsource := Statement.source?_of_tableQuery? htable
    exact ⟨q, List.mem_filterMap.mpr ⟨s, hs, hsource⟩,
      name_mem_tableUses h hnamed (List.mem_filter.mp hu).1⟩
  rw [hdiscover, mem_sourceTables, and_iff_right hread]
  simp only [List.mem_filterMap]
  constructor
  · intro hnot s hs q' hq'
    exact hnot q' ⟨s, hs, hq'⟩
  · rintro hnot q' ⟨s, hs, hq'⟩
    exact hnot s hs q' hq'

/-- A script whose query has a common table that is named like the table it reads. -/
def namedAlike : String :=
  "create table v as with users as (select id from raw.users) select users.id, t.a from users, t"

/-- The statement depends on `raw.users` and on `t`. Only the name of the second one is collected,
since the common table hides the name of the first. -/
theorem mem_discoverTables_iff_namedAlike :
    ∃ statements target q qualified,
      Script.parse .greenplum true namedAlike = .ok statements ∧
      (target, q) ∈ (statements.filterMap fun s => s.statement.tableQuery?) ∧
      prepare ⟨⟨∅⟩, {}, 8⟩ q = .ok qualified ∧
      (∀ t ∈ q.allTables, t.1.parts ≠ []) ∧
      qualified.baseTables = [⟨none, ⟨none, some "raw", "users"⟩⟩, ⟨none, ⟨none, none, "t"⟩⟩] ∧
      discoverTables .greenplum namedAlike = ["t"] ∧
      (∀ s ∈ statements, ∀ q', s.statement.source? = some q' →
        Text.toLower "t" ∉ q'.cteNames) ∧
      ¬ ∀ s ∈ statements, ∀ q', s.statement.source? = some q' →
        Text.toLower "users" ∉ q'.cteNames := by
  have hrun : ((Script.parse .greenplum true namedAlike).toOption.bind fun statements =>
      (statements.filterMap fun s => s.statement.tableQuery?).head?.bind fun r =>
        (prepare ⟨⟨∅⟩, {}, 8⟩ r.2).toOption.map fun qualified =>
          (decide (∀ t ∈ r.2.allTables, t.1.parts ≠ []), qualified.baseTables)) =
        some (true, [⟨none, ⟨none, some "raw", "users"⟩⟩, ⟨none, ⟨none, none, "t"⟩⟩]) ∧
      discoverTables .greenplum namedAlike = ["t"] := by
    decide +kernel
  obtain ⟨hrun, hfound⟩ := hrun
  obtain ⟨statements, hparse, hrun⟩ := Option.bind_eq_some_iff.mp hrun
  obtain ⟨⟨target, q⟩, hq, hrun⟩ := Option.bind_eq_some_iff.mp hrun
  obtain ⟨qualified, hprepare, hrun⟩ := Option.map_eq_some_iff.mp hrun
  obtain ⟨hnamed, hbase⟩ := Prod.mk.inj hrun
  have hparse := eq_ok_of_toOption hparse
  have hprepare := eq_ok_of_toOption hprepare
  have hnamed := of_decide_eq_true hnamed
  have hq := List.mem_of_head? hq
  have husers : (⟨none, ⟨none, some "raw", "users"⟩⟩ : TableUse) ∈ qualified.baseTables := by
    rw [hbase]
    exact List.mem_cons_self
  have ht : (⟨none, ⟨none, none, "t"⟩⟩ : TableUse) ∈ qualified.baseTables := by
    rw [hbase]
    exact List.mem_cons_of_mem _ (List.mem_singleton_self _)
  have hiffUsers := mem_discoverTables_iff hparse hq hprepare hnamed husers
  have hiffT := mem_discoverTables_iff hparse hq hprepare hnamed ht
  rw [hfound] at hiffUsers hiffT
  refine ⟨statements, target, q, qualified, hparse, hq, hprepare, hnamed, hbase, hfound, ?_, ?_⟩
  · exact hiffT.mp (List.mem_singleton_self _)
  · exact fun hnot => absurd (hiffUsers.mpr hnot) (by decide)

end AnalysisContext

end ColumnLineage
