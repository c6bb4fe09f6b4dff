import ColumnLineage.Proofs.Discovery
import ColumnLineage.Proofs.NamedTables
import ColumnLineage.Proofs.QualifierLookups

/-!
# Tables that a script does not read

A catalog may describe many more tables than a script reads. It is consulted in three places: for
the columns that stars in calls stand for, for the columns of the tables in `FROM` clauses, and for
the owner of a column without a qualifier. Each of them asks for a table under its name, so a table
that is named differently from all that a script reads changes nothing.

* `AnalysisOptions.analyze_addTable`: a script is analysed alike with a table added.
-/

namespace ColumnLineage

/-! ## Catalogs with one more table -/

namespace OrderedMap

section entries

variable {κ α β : Type} [DecidableEq κ] {key : κ} {value : α}

/-- Entries give the same together if the new one gives what its place gave before. -/
theorem flatMap_putEntry {g : κ × α → List β} {entries : List (κ × α)}
    (hold : ∀ a, (key, a) ∈ entries → g (key, value) = g (key, a))
    (hnew : key ∉ entries.map Prod.fst → g (key, value) = []) :
    (putEntry key value entries).flatMap g = entries.flatMap g := by
  induction entries with
  | nil => simp [putEntry, hnew]
  | cons e rest ih =>
    obtain ⟨k, a⟩ := e
    by_cases hk : k = key
    · subst hk
      simp [putEntry, hold a List.mem_cons_self]
    · have hrest := ih (fun a' ha' => hold a' (List.mem_cons_of_mem _ ha'))
        fun hn => hnew (by simpa [Ne.symm hk] using hn)
      simp [putEntry, hk, hrest]

/-- A search that passes over the key of an entry does not see the entry. -/
theorem find?_putEntry {p : κ → Bool} (h : p key = false) (entries : List (κ × α)) :
    (putEntry key value entries).find? (fun e => p e.1) = entries.find? fun e => p e.1 := by
  induction entries with
  | nil => simp [putEntry, h]
  | cons e rest ih =>
    obtain ⟨k, a⟩ := e
    by_cases hk : k = key
    · subst hk
      simp [putEntry, h]
    · simp [putEntry, hk, List.find?_cons, ih]

theorem flatMap_alter (m : OrderedMap κ α) (key : κ) (f : Option α → α) {g : κ × α → List β}
    (hg : ∀ old, g (key, f old) = (old.map fun a => g (key, a)).getD []) :
    (m.alter key f).entries.flatMap g = m.entries.flatMap g := by
  refine flatMap_putEntry ?_ ?_
  · intro a ha
    rw [get?_of_mem ha, hg, Option.map_some, Option.getD_some]
  · intro hnew
    have hnone : m.get? key = none := by
      rw [← Option.not_isSome_iff_eq_none, get?_isSome_iff]
      exact hnew
    rw [hnone, hg, Option.map_none, Option.getD_none]

end entries

/-- A key is not found under a name that differs from it by more than its case. -/
theorem getIgnoringCase?_alter {α : Type} (m : OrderedMap String α) {key name : String}
    (h : Text.equalIgnoringCase name key = false) (f : Option α → α) :
    (m.alter key f).getIgnoringCase? name = m.getIgnoringCase? name := by
  have hne : key ≠ name := by
    rintro rfl
    rw [Text.equalIgnoringCase_refl] at h
    cases h
  rw [Text.equalIgnoringCase_comm] at h
  unfold getIgnoringCase? alter
  rw [get?_insert, if_neg hne]
  exact congrArg (fun found => (m.get? name).or (found.map Prod.snd))
    (find?_putEntry (p := (Text.equalIgnoringCase · name)) h m.entries)

end OrderedMap

namespace Catalog

variable {c : Catalog} {r : TableReference} {table : String}

/-- The table of a schema that a reference may mean. -/
def schemaTables (r : TableReference) (s : String × Schema) : List TableDefinition :=
  if partAgrees r.schema s.1 then (s.2.tables.getIgnoringCase? r.name).toList else []

/-- The tables of a database that a reference may mean. -/
def databaseTables (r : TableReference) (d : String × Database) : List TableDefinition :=
  if partAgrees r.catalog d.1 then d.2.schemas.entries.flatMap (schemaTables r) else []

theorem candidates_eq (c : Catalog) (r : TableReference) :
    c.candidates r = c.databases.entries.flatMap (databaseTables r) := by
  have hfilter : ∀ {α β : Type} (p : α → Bool) (f : α → List β) (as : List α),
      (as.filter p).flatMap f = as.flatMap fun a => if p a then f a else [] := by
    intro α β p f as
    induction as with
    | nil => rfl
    | cons a as ih => cases hp : p a <;> simp [hp, ih]
  unfold candidates databaseTables schemaTables
  simp only [List.filterMap_eq_flatMap_toList, hfilter]

/-- A table of another name is none that a reference may mean. -/
theorem candidates_addTable (h : Text.equalIgnoringCase r.name table = false)
    (catalog schema : String) (columns : List (String × String)) :
    (c.addTable catalog schema table columns).candidates r = c.candidates r := by
  rw [candidates_eq, candidates_eq]
  refine OrderedMap.flatMap_alter _ _ _ fun d => ?_
  have hschemas : ∀ schemas : OrderedMap String Schema,
      (schemas.alter schema fun s => ⟨((s.map Schema.tables).getD ∅).alter table fun t =>
        ⟨((t.map TableDefinition.columns).getD ∅).insertAll columns⟩⟩).entries.flatMap
          (schemaTables r) = schemas.entries.flatMap (schemaTables r) := by
    intro schemas
    refine OrderedMap.flatMap_alter _ _ _ fun s => ?_
    unfold schemaTables
    rw [OrderedMap.getIgnoringCase?_alter _ h]
    cases s with
    | none => cases partAgrees r.schema schema <;> rfl
    | some s => rfl
  unfold databaseTables
  rw [hschemas]
  cases d with
  | none => cases partAgrees r.catalog catalog <;> rfl
  | some d => rfl

theorem findTable?_addTable (h : Text.equalIgnoringCase r.name table = false)
    (catalog schema : String) (columns : List (String × String)) :
    (c.addTable catalog schema table columns).findTable? r = c.findTable? r := by
  unfold findTable?
  rw [candidates_addTable h]

/-- A table that is added leaves the first database the first. -/
theorem first?_addTable (hc : c.isEmpty = false) (catalog schema : String)
    (columns : List (String × String)) :
    (c.addTable catalog schema table columns).first? = c.first? := by
  have hkeys : c.databases.keys ≠ [] := by
    unfold isEmpty OrderedMap.isEmpty at hc
    unfold OrderedMap.keys
    simpa using hc
  unfold first? addTable OrderedMap.alter
  rw [OrderedMap.keys_insert]
  split
  · rfl
  · exact List.head?_append_of_ne_nil _ hkeys

end Catalog

/-! ## Catalogs that find the same -/

/-- Two catalogs find the same tables under a name, whatever parts stand before it. -/
def Catalog.Alike (c c' : Catalog) (name : String) : Prop :=
  ∀ r : TableReference, r.name = name → c.findTable? r = c'.findTable? r

section alike

variable {c c' : Catalog}

theorem Catalog.Alike.lookup? {r : TableReference} (h : c.Alike c' r.name) (d : Defaults) :
    c.lookup? r d = c'.lookup? r d := by
  unfold Catalog.lookup?
  rw [h (r.complete d) rfl, h r rfl]

theorem StarContext.sources_congr {q : Query}
    (h : ∀ u ∈ q.tableUses, c.Alike c' u.reference.name) (d : Defaults)
    (ctes : OrderedMap String (List String)) :
    StarContext.sources ⟨c, d, ctes⟩ q = StarContext.sources ⟨c', d, ctes⟩ q := by
  unfold StarContext.sources
  congr 1
  refine List.flatMap_congr fun u hu => ?_
  unfold StarContext.columns?
  rw [(h u hu).lookup?]

theorem Qualifier.table_alike {name : ObjectName} (hname : name.parts ≠ [])
    (h : c.Alike c' (TableReference.ofObjectName name).name) (d : Defaults)
    (label : Option TableAlias) : (Part.table name label).Alike ⟨c, d⟩ ⟨c', d⟩ := by
  intro scope v
  have hfull := TableReference.name_complete hname d
  have hcolumns : Qualifier.tableColumns ⟨c, d⟩ (.ofObjectName (name.complete d)) =
      Qualifier.tableColumns ⟨c', d⟩ (.ofObjectName (name.complete d)) := by
    unfold Qualifier.tableColumns
    rw [Catalog.Alike.lookup? (hfull ▸ h)]
  simp only [Scope.registerTable, hcolumns]

/-! ## Owners of columns -/

theorem SelectView.sourceOf?_congr {v : SelectView}
    (h : ∀ key label r, (key, label, .table r) ∈ v.sources.entries →
      c.findTable? r = c'.findTable? r) (qualifier : Option String) (column : String) :
    v.sourceOf? c qualifier column = v.sourceOf? c' qualifier column := by
  cases qualifier with
  | some q => rfl
  | none =>
    have howns : ∀ x ∈ v.sources.values, ownsColumn c column x.2 = ownsColumn c' column x.2 := by
      rintro ⟨label, source⟩ hx
      obtain ⟨key, hm⟩ := OrderedMap.exists_mem_of_mem_values hx
      cases source with
      | table r => simp only [ownsColumn, h key label r hm]
      | _ => rfl
    simp only [SelectView.sourceOf?, soleOwner?_eq, List.filter_congr howns]

theorem PlacedBody.plan_congr {b : PlacedBody}
    (h : ∀ r, b.Reads r → c.findTable? r = c'.findTable? r) (target : Target) :
    b.plan c target = b.plan c' target := by
  unfold PlacedBody.plan
  cases hb : b.opened.body with
  | select s =>
    have hwanted : ∀ qualifier column,
        (b.view s).wanted c qualifier column = (b.view s).wanted c' qualifier column := by
      intro qualifier column
      unfold SelectView.wanted
      rw [SelectView.sourceOf?_congr fun key label r hm => h r ⟨s, key, label, hb, hm⟩]
    have hreferences : ∀ (i k : Nat) (references : List Reference),
        (b.view s).wantedReferences c i k references =
          (b.view s).wantedReferences c' i k references := by
      intro i k references
      induction references generalizing k with
      | nil => rfl
      | cons r rest ih =>
        cases r <;>
          simp only [SelectView.wantedReferences, SelectView.wantedReference, hwanted, ih]
    refine congrArg (Except.map · (s.pick target)) (funext fun pick => ?_)
    cases pick <;> simp only [Plan.ofPick, hwanted, hreferences]
  | _ => rfl

theorem columnWithin_catalog {limit : Nat} : (n : Nat) → {b : PlacedBody} →
    (∀ b', Relation.ReflTransGen PlacedBody.Enters b b' → ∀ r, b'.Reads r →
      c.findTable? r = c'.findTable? r) → (target : Target) →
    columnWithin c limit n b target = columnWithin c' limit n b target
  | 0, _, _, _ => rfl
  | n + 1, b, h, target => by
      have hdeeper : ∀ b', b.Enters b' → columnWithin c limit n b' = columnWithin c' limit n b' := by
        intro b' hb'
        funext target'
        exact columnWithin_catalog n (fun b'' hb'' => h b'' (.head hb' hb'')) target'
      rw [columnWithin, columnWithin, bodyColumn_congr hdeeper, bodyColumn_eq, bodyColumn_eq,
        PlacedBody.plan_congr (h b .refl)]

theorem Query.trace_congr {q : Query} (h : ∀ u ∈ q.tableUses, c.Alike c' u.reference.name)
    (d : Defaults) (limit : Nat) (column : String) :
    q.trace c d limit column = q.trace c' d limit column := by
  have hgraph : q.lineageGraph c column limit = q.lineageGraph c' column limit := by
    unfold Query.lineageGraph
    rw [columnWithin_catalog]
    intro b hv r hr
    obtain ⟨u, hu, rfl⟩ := Query.Visits.mem_tableUses hv hr
    exact h u hu _ rfl
  unfold Query.trace
  rw [hgraph]

/-! ## Statements -/

variable {q : Query}

theorem AnalysisContext.prepare_congr (hnamed : ∀ t ∈ q.allTables, t.1.parts ≠ [])
    (h : ∀ u ∈ q.tableUses, c.Alike c' u.reference.name) (d : Defaults) (limit : Nat) :
    prepare ⟨c, d, limit⟩ q = prepare ⟨c', d, limit⟩ q := by
  have huses : q.unwrap.tableUses = q.tableUses := by
    rw [q.unwrap.tableUses_eq_reads .outside, q.tableUses_eq_reads .outside, q.reads_unwrap]
  have hstars : StarContext.sources ⟨c, d, q.unwrap.cteColumns⟩ q.unwrap =
      StarContext.sources ⟨c', d, q.unwrap.cteColumns⟩ q.unwrap :=
    StarContext.sources_congr (fun u hu => h u (huses ▸ hu)) d _
  unfold prepare Query.expandStars
  dsimp only
  rw [hstars]
  -- The stars are expanded alike now; the tables of the query are those that are written.
  change Qualifier.qualify _ (q.unwrap.expandStars ⟨c', d, q.unwrap.cteColumns⟩) =
    Qualifier.qualify _ (q.unwrap.expandStars ⟨c', d, q.unwrap.cteColumns⟩)
  have hquery : (Part.query (q.unwrap.expandStars ⟨c', d, q.unwrap.cteColumns⟩)).Alike
      ⟨c, d⟩ ⟨c', d⟩ := by
    refine Query.qualify_congr (s := .outside) fun r hr => ?_
    rw [Query.reads_expandStars, Query.reads_unwrap] at hr
    have hname : r.name.parts ≠ [] := by
      refine hnamed (r.name, r.label) ?_
      rw [q.allTables_eq_reads .outside]
      exact List.mem_map.mpr ⟨r, hr, rfl⟩
    refine Qualifier.table_alike hname ?_ d r.label
    refine h ⟨r.label.map fun a => a.name.value, .ofObjectName r.name⟩ ?_
    rw [q.tableUses_eq_reads .outside]
    exact List.mem_map.mpr ⟨r, hr, rfl⟩
  unfold Qualifier.qualify
  rw [hquery]

/-- A statement is analysed alike with catalogs that find the same under the names of its tables. -/
theorem AnalysisContext.analyze_congr (hnamed : ∀ t ∈ q.allTables, t.1.parts ≠ [])
    (h : ∀ u ∈ q.tableUses, c.Alike c' u.reference.name) (d : Defaults) (limit : Nat)
    (target : ObjectName) : analyze ⟨c, d, limit⟩ target q = analyze ⟨c', d, limit⟩ target q := by
  have hprepare := prepare_congr hnamed h d limit
  unfold analyze
  rw [← hprepare]
  cases hq : prepare ⟨c, d, limit⟩ q with
  | error e => rfl
  | ok qualified =>
    have huses : ∀ u ∈ qualified.tableUses, c.Alike c' u.reference.name := by
      intro u hu
      obtain ⟨u₀, hu₀, hname⟩ := name_mem_tableUses hq hnamed hu
      exact hname ▸ h u₀ hu₀
    have htrace : ∀ column, trace ⟨c, d, limit⟩ qualified column =
        trace ⟨c', d, limit⟩ qualified column :=
      qualified.trace_congr huses d limit
    have hadd : addColumn ⟨c, d, limit⟩ qualified = addColumn ⟨c', d, limit⟩ qualified := by
      funext found column
      unfold addColumn
      rw [htrace]
    have hlineage : lineageOf ⟨c, d, limit⟩ qualified = lineageOf ⟨c', d, limit⟩ qualified := by
      unfold lineageOf
      rw [hadd]
      rfl
    simp only [hlineage]

end alike

/-! ## Scripts -/

/-- A table that is added to a catalog changes nothing for a script that reads no table of its
name. -/
theorem AnalysisOptions.analyze_addTable (o : AnalysisOptions) {c : Catalog}
    (hc : c.isEmpty = false) (catalog schema table : String) (columns : List (String × String))
    {sql : String}
    (hother : ∀ statements, o.parse sql = .ok statements → ∀ s ∈ statements, ∀ target q,
      s.statement.tableQuery? = some (target, q) → ∀ u ∈ q.tableUses,
        Text.equalIgnoringCase u.reference.name table = false) :
    o.analyze (c.addTable catalog schema table columns) sql = o.analyze c sql := by
  unfold analyze
  cases hparse : o.parse sql with
  | error e => rfl
  | ok statements =>
    have hcontext : o.context (c.addTable catalog schema table columns) statements =
        { o.context c statements with catalog := c.addTable catalog schema table columns } := by
      unfold context
      rw [Catalog.first?_addTable hc]
    have hsame : ∀ t ∈ statements.filterMap fun s => s.statement.tableQuery?,
        (o.context (c.addTable catalog schema table columns) statements).analyze t.1 t.2 =
          (o.context c statements).analyze t.1 t.2 := by
      rintro ⟨target, q⟩ ht
      obtain ⟨s, hs, hq⟩ := List.mem_filterMap.mp ht
      have hnamed : Named q.parts :=
        Script.named_of_parse hparse s hs q (Statement.source?_of_tableQuery? hq)
      rw [hcontext]
      refine AnalysisContext.analyze_congr (Query.parts_ne_nil_of_named hnamed) ?_ _ _ target
      intro u hu r hr
      have hname := hother statements hparse s hs target q hq u hu
      exact Catalog.findTable?_addTable (hr ▸ hname) catalog schema columns
    unfold analyzeStatements
    exact List.foldl_ext _ _ _ fun f t ht => congrArg (Outcome.record · f) (hsame t ht)

/-- A script that reads all columns of a table. -/
def allColumns : String :=
  "create table v as select * from t"

def oneTable : Catalog :=
  Catalog.empty.addTable "db" "s" "t" [("a", "int")]

/-- A table of another name changes nothing. One of the same name in another schema does, since the
script does not say which of the two it means. -/
theorem AnalysisOptions.analyze_addTable_oneTable :
    oneTable.isEmpty = false ∧
      (∀ statements, parse {} allColumns = .ok statements → ∀ s ∈ statements, ∀ target q,
        s.statement.tableQuery? = some (target, q) → ∀ u ∈ q.tableUses,
          Text.equalIgnoringCase u.reference.name "u" = false) ∧
      analyze {} (oneTable.addTable "db" "s" "u" [("a", "int")]) allColumns =
        analyze {} oneTable allColumns ∧
      analyze {} (oneTable.addTable "db" "w" "T" [("a", "int")]) allColumns ≠
        analyze {} oneTable allColumns := by
  have hrun : ((parse {} allColumns).toOption.map fun statements =>
        statements.filterMap fun s => s.statement.tableQuery?.map fun r =>
          r.2.tableUses.map fun u => u.reference.name) = some [["t"]] ∧
      (analyze {} (oneTable.addTable "db" "w" "T" [("a", "int")]) allColumns).lineage ≠
        (analyze {} oneTable allColumns).lineage := by
    decide +kernel
  obtain ⟨hnames, hchange⟩ := hrun
  have hc : oneTable.isEmpty = false := rfl
  have hother : ∀ statements, parse {} allColumns = .ok statements → ∀ s ∈ statements, ∀ target q,
      s.statement.tableQuery? = some (target, q) → ∀ u ∈ q.tableUses,
        Text.equalIgnoringCase u.reference.name "u" = false := by
    intro statements hparse s hs target q hq u hu
    rw [hparse] at hnames
    have hfound : q.tableUses.map (fun u => u.reference.name) ∈ [["t"]] := by
      rw [← Option.some.inj hnames]
      exact List.mem_filterMap.mpr ⟨s, hs, by rw [hq]; rfl⟩
    have hu : u.reference.name ∈ q.tableUses.map fun u => u.reference.name :=
      List.mem_map.mpr ⟨u, hu, rfl⟩
    rw [List.mem_singleton.mp hfound, List.mem_singleton] at hu
    rw [hu]
    decide
  refine ⟨hc, hother, analyze_addTable {} hc "db" "s" "u" [("a", "int")] hother, ?_⟩
  exact fun h => hchange (congrArg Findings.lineage h)

end ColumnLineage
