import ColumnLineage.Proofs.Dependencies

/-!
# The lineage that a column is recorded with

The columns of a statement are listed by position, but each of them is traced by its name. The
builder looks a name up among the names of all columns, ignoring the case of ASCII letters, and
takes the first one that fits. So a column is recorded with the lineage of its first namesake,
which may be another column.

* `AnalysisContext.recorded_eq_first_namesake`: a column carries its own lineage exactly if it and
  its first namesake leave the same trace, so always if no column before it is a namesake.
-/

namespace ColumnLineage

/-! ## Namesakes -/

/-- The name at a position equals a given one, ignoring the case of ASCII letters. -/
def Namesake (names : List (Option String)) (name : String) (i : Nat) : Prop :=
  ∃ other, names[i]? = some (some other) ∧ Text.equalIgnoringCase other name = true

/-- The first position whose name equals a given one, ignoring the case of ASCII letters. -/
structure FirstNamesake (names : List (Option String)) (name : String) (j : Nat) : Prop where
  namesake : Namesake names name j
  first : ∀ k < j, ¬ Namesake names name k

variable {names : List (Option String)} {name : String}

theorem namesake_iff {i : Nat} :
    Namesake names name i ↔
      ∃ h : i < names.length, names[i].any (Text.equalIgnoringCase · name) = true := by
  constructor
  · rintro ⟨other, hi, he⟩
    obtain ⟨hlt, hget⟩ := List.getElem?_eq_some_iff.mp hi
    refine ⟨hlt, ?_⟩
    rw [hget]
    exact he
  · rintro ⟨hlt, hany⟩
    cases hget : names[i] with
    | none =>
      rw [hget] at hany
      cases hany
    | some other =>
      rw [hget] at hany
      exact ⟨other, List.getElem?_eq_some_iff.mpr ⟨hlt, hget⟩, hany⟩

theorem position?_eq_some_iff {j : Nat} :
    position? names name = some j ↔ FirstNamesake names name j := by
  unfold position?
  rw [List.findIdx?_eq_some_iff_getElem]
  constructor
  · rintro ⟨hj, hany, hfirst⟩
    refine ⟨namesake_iff.mpr ⟨hj, hany⟩, ?_⟩
    intro k hk hn
    obtain ⟨_, hany'⟩ := namesake_iff.mp hn
    exact hfirst k hk hany'
  · rintro ⟨hn, hfirst⟩
    obtain ⟨hj, hany⟩ := namesake_iff.mp hn
    refine ⟨hj, hany, ?_⟩
    intro k hk hany'
    exact hfirst k hk (namesake_iff.mpr ⟨hk.trans hj, hany'⟩)

/-- Every column has a first namesake, which does not stand behind it. -/
theorem exists_firstNamesake {i : Nat} (h : names[i]? = some (some name)) :
    ∃ j ≤ i, FirstNamesake names name j := by
  have hself : Namesake names name i := ⟨name, h, Text.equalIgnoringCase_refl name⟩
  cases hj : position? names name with
  | some j =>
    have hfirst := position?_eq_some_iff.mp hj
    refine ⟨j, ?_, hfirst⟩
    by_contra hlt
    exact hfirst.first i (by omega) hself
  | none =>
    obtain ⟨hlt, hany⟩ := namesake_iff.mp hself
    have hnone := List.findIdx?_eq_none_iff.mp hj _ (List.getElem_mem hlt)
    rw [hany] at hnone
    cases hnone

theorem FirstNamesake.eq_of_none_before {i j : Nat} (hj : FirstNamesake names name j) (hle : j ≤ i)
    (h : ∀ k < i, ¬ Namesake names name k) : j = i := by
  by_contra hne
  exact h j (by omega) hj.namesake

/-! ## Columns by name and by position -/

theorem Body.positionalNames_opened : (b : Body) → (place : Place) → (ctes : List PlacedCte) →
    (b.opened place ctes).body.positionalNames = b.positionalNames
  | .parens { ctes := own, body, .. }, place, ctes =>
      body.positionalNames_opened (.inner :: place) (placedCtes (.inner :: place) own ++ ctes)
  | .select _, _, _ => rfl
  | .setOperation _ _ _ _, _, _ => rfl
  | .values _ _, _, _ => rfl
  | .defaultValues, _, _ => rfl
  | .table _, _, _ => rfl
  | .insert _, _, _ => rfl
  | .update _, _, _ => rfl

theorem Body.opened_ne_parens {q : Query} : (b : Body) → (place : Place) →
    (ctes : List PlacedCte) → (b.opened place ctes).body ≠ .parens q
  | .parens { ctes := own, body, .. }, place, ctes =>
      body.opened_ne_parens (.inner :: place) (placedCtes (.inner :: place) own ++ ctes)
  | .select _, _, _ => by simp [Body.opened]
  | .setOperation _ _ _ _, _, _ => by simp [Body.opened]
  | .values _ _, _, _ => by simp [Body.opened]
  | .defaultValues, _, _ => by simp [Body.opened]
  | .table _, _, _ => by simp [Body.opened]
  | .insert _, _, _ => by simp [Body.opened]
  | .update _, _, _ => by simp [Body.opened]

section bodies

variable {catalog : Catalog} {deeper : Deeper}

/-- A column that is looked for by name is that of its first namesake. -/
theorem bodyColumn_name {b : PlacedBody} {column : String} {j : Nat}
    (h : FirstNamesake b.body.positionalNames column j) :
    bodyColumn catalog deeper b (.name column) = bodyColumn catalog deeper b (.index j) := by
  have hj : position? b.opened.body.positionalNames column = some j := by
    rw [PlacedBody.opened, Body.positionalNames_opened]
    exact position?_eq_some_iff.mpr h
  have hplan : b.plan catalog (.name column) = b.plan catalog (.index j) := by
    unfold PlacedBody.plan
    cases ho : b.opened.body with
    | parens q => exact absurd ho (b.body.opened_ne_parens b.place b.ctes)
    | select s =>
      have hs : position? s.outputNames column = some j := by rwa [ho] at hj
      simp only [Select.pick, hs]
    | setOperation op quantifier left right =>
      rw [ho] at hj
      simp only [positionOf, hj]
    | _ =>
      rw [ho] at hj
      cases hj
  rw [bodyColumn_eq, bodyColumn_eq, hplan]

end bodies

/-- The base table columns that a column of a query is computed from, in order. The column is
given by its name or by its position. -/
def Query.traceOf (q : Query) (catalog : Catalog) (d : Defaults) (limit : Nat) (target : Target) :
    Except TraceError (List String) :=
  match columnWithin catalog limit (limit + 1) (q.placed [] []) target {} with
  | .error e => .error (.ofGraphError e)
  | .ok (root, draft) =>
    ((q.traceContext d limit ⟨draft.nodes, root⟩).lineage (limit + 1) root ∅).map Prod.fst

theorem Query.trace_eq_traceOf (q : Query) (catalog : Catalog) (d : Defaults) (limit : Nat)
    (column : String) : q.trace catalog d limit column = q.traceOf catalog d limit (.name column) := by
  unfold Query.trace Query.traceOf Query.lineageGraph
  cases columnWithin catalog limit (limit + 1) (q.placed [] []) (.name column) {} with
  | error e => rfl
  | ok r => rfl

/-- A trace that ends has collected what the node of the column emits. -/
theorem Query.traced_of_traceOf {q : Query} {catalog : Catalog} {d : Defaults} {limit : Nat}
    {target : Target} {root : Nat} {draft : Draft}
    (hrun : columnWithin catalog limit (limit + 1) (q.placed [] []) target {} = .ok (root, draft))
    {found : List String} (h : q.traceOf catalog d limit target = .ok found) :
    (q.traceContext d limit ⟨draft.nodes, root⟩).Traced root found := by
  unfold Query.traceOf at h
  rw [hrun] at h
  obtain ⟨⟨found', memo⟩, hl, rfl⟩ := map_eq_ok.mp h
  exact (TraceContext.lineage_traced (limit + 1) TraceContext.remembers_empty hl).1

/-- The trace of a name is that of the position of its first namesake. -/
theorem Query.trace_eq_of_firstNamesake {q : Query} {column : String} {j : Nat}
    (h : FirstNamesake q.body.positionalNames column j) (catalog : Catalog) (d : Defaults)
    (limit : Nat) : q.trace catalog d limit column = q.traceOf catalog d limit (.index j) := by
  have hsame : columnWithin catalog limit (limit + 1) (q.placed [] []) (.name column) =
      columnWithin catalog limit (limit + 1) (q.placed [] []) (.index j) :=
    bodyColumn_name h
  rw [Query.trace_eq_traceOf]
  unfold Query.traceOf
  rw [hsame]

/-! ## What is recorded -/

/-- What a trace leaves in the lineage of a table: nothing if it fails or finds nothing. -/
def recordable : Except TraceError (List String) → Option (List String)
  | .ok [] => none
  | .ok (s :: rest) => some (s :: rest)
  | .error _ => none

theorem recordable_eq_some_iff {traced : Except TraceError (List String)}
    {sources : List String} :
    recordable traced = some sources ↔ traced = .ok sources ∧ sources ≠ [] := by
  unfold recordable
  split
  · simp
  · rename_i s rest
    constructor
    · intro h
      cases h
      exact ⟨rfl, by simp⟩
    · rintro ⟨h, -⟩
      cases h
      rfl
  · simp

namespace AnalysisContext

/-- The base table columns that the column of a qualified query at a position is computed from. -/
def traceAt (x : AnalysisContext) (q : Query) (i : Nat) : Except TraceError (List String) :=
  q.traceOf x.catalog x.defaults x.limit (.index i)

variable {x : AnalysisContext} {q : Query}

/-- One more column changes what is recorded under its own name only. -/
theorem get?_addColumn (found : TableLineage × List StatementError) (column c : String) :
    (x.addColumn q found column).1.columns.get? c =
      if c = column then (recordable (x.trace q c)).or (found.1.columns.get? c)
      else found.1.columns.get? c := by
  by_cases hc : c = column
  · subst hc
    rw [if_pos rfl]
    unfold addColumn
    cases x.trace q c with
    | error e => rfl
    | ok sources =>
      cases sources with
      | nil => rfl
      | cons s rest =>
        dsimp only
        rw [OrderedMap.get?_insert, if_pos rfl]
        rfl
  · rw [if_neg hc]
    unfold addColumn
    split
    · rfl
    · dsimp only
      rw [OrderedMap.get?_insert, if_neg fun h => hc h.symm]
    · rfl

theorem get?_foldl_addColumn (columns : List String) (found : TableLineage × List StatementError)
    (c : String) :
    (columns.foldl (x.addColumn q) found).1.columns.get? c =
      if c ∈ columns then (recordable (x.trace q c)).or (found.1.columns.get? c)
      else found.1.columns.get? c := by
  induction columns generalizing found with
  | nil => rfl
  | cons column rest ih =>
    rw [List.foldl_cons, ih, get?_addColumn]
    by_cases hc : c = column
    · -- The name is traced again whenever it comes back, with the same result.
      simp only [hc, if_true, List.mem_cons_self]
      split
      · rw [← Option.or_assoc, Option.or_self]
      · rfl
    · simp only [hc, if_false, List.mem_cons, false_or]

theorem get?_lineageOf {c : String} (h : c ∈ q.body.outputNames) :
    (x.lineageOf q).1.columns.get? c = recordable (x.trace q c) := by
  unfold lineageOf
  rw [get?_foldl_addColumn, if_pos h]
  exact Option.or_none

/-- A column carries its own lineage: what is recorded under its name is what it is traced to, and
if that is something, it is recorded. -/
structure CarriesOwn (lineage : TableLineage) (name : String)
    (traced : Except TraceError (List String)) : Prop where
  /-- What is recorded is what the column is traced to. -/
  own : ∀ sources, lineage.columns.get? name = some sources → traced = .ok sources
  /-- A column that is traced to something is recorded. -/
  recorded : ∀ sources, traced = .ok sources → sources ≠ [] →
    (lineage.columns.get? name).isSome = true

theorem carriesOwn_iff {lineage : TableLineage} {traced first : Except TraceError (List String)}
    (h : lineage.columns.get? name = recordable first) :
    CarriesOwn lineage name traced ↔ recordable traced = recordable first := by
  constructor
  · rintro ⟨hown, hrecorded⟩
    rw [← h]
    cases hget : lineage.columns.get? name with
    | none =>
      refine Option.eq_none_iff_forall_ne_some.mpr fun sources hs => ?_
      obtain ⟨ht, hne⟩ := recordable_eq_some_iff.mp hs
      have hsome := hrecorded sources ht hne
      rw [hget] at hsome
      cases hsome
    | some sources =>
      have hfirst : recordable first = some sources := h.symm.trans hget
      exact recordable_eq_some_iff.mpr
        ⟨hown sources hget, (recordable_eq_some_iff.mp hfirst).2⟩
  · intro he
    have hget : lineage.columns.get? name = recordable traced := h.trans he.symm
    constructor
    · intro sources hs
      exact (recordable_eq_some_iff.mp (hget.symm.trans hs)).1
    · intro sources ht hne
      rw [hget, recordable_eq_some_iff.mpr ⟨ht, hne⟩]
      rfl

/-- A column is recorded with the lineage of its first namesake. So it carries its own lineage
exactly if both leave the same, and always if no column before it is a namesake. -/
theorem recorded_eq_first_namesake (x : AnalysisContext) (target : ObjectName) (q : Query)
    {qualified : Query} (h : x.prepare q = .ok qualified) {i : Nat} {name : String}
    (hi : qualified.body.positionalNames[i]? = some (some name)) :
    ∃ lineage j, (x.analyze target q).lineage = some lineage ∧
      j ≤ i ∧ FirstNamesake qualified.body.positionalNames name j ∧
      lineage.columns.get? name = recordable (x.traceAt qualified j) ∧
      (CarriesOwn lineage name (x.traceAt qualified i) ↔
        recordable (x.traceAt qualified i) = recordable (x.traceAt qualified j)) ∧
      ((∀ k < i, ¬ Namesake qualified.body.positionalNames name k) →
        CarriesOwn lineage name (x.traceAt qualified i)) := by
  obtain ⟨j, hle, hfirst⟩ := exists_firstNamesake hi
  have hname : name ∈ qualified.body.outputNames :=
    List.mem_filterMap.mpr ⟨some name, List.mem_of_getElem? hi, rfl⟩
  have hget : (x.lineageOf qualified).1.columns.get? name =
      recordable (x.traceAt qualified j) := by
    rw [get?_lineageOf hname, trace, Query.trace_eq_of_firstNamesake hfirst]
    rfl
  have hanalyzed : (x.analyze target q).lineage = some (x.lineageOf qualified).1 := by
    unfold analyze
    rw [h]
  refine ⟨_, j, hanalyzed, hle, hfirst, hget, carriesOwn_iff hget, ?_⟩
  intro hnone
  obtain rfl := hfirst.eq_of_none_before hle hnone
  exact (carriesOwn_iff hget).mpr rfl

/-- `SELECT t.a AS "X", t.b AS x FROM t`, with parts before the name of `t`. -/
def capitalAndSmall (front : List Ident) : Query :=
  .plain [] (.select (.plain
    [.expr (.path [⟨"t", none⟩, ⟨"a", none⟩]) (some ⟨"X", some .double⟩),
      .expr (.path [⟨"t", none⟩, ⟨"b", none⟩]) (some ⟨"x", none⟩)]
    [.mk (.table ⟨front ++ [⟨"t", none⟩]⟩ false none []) []]))

/-- The column `x` is computed from `b`, but recorded with the lineage of `X`. -/
theorem recorded_eq_first_namesake_capital :
    (analyze ⟨⟨∅⟩, ⟨none, some "s"⟩, 8⟩ ⟨[⟨"v", none⟩]⟩ (capitalAndSmall [])).lineage =
        some ⟨["s.t"], .ofList [("X", ["s.t.a"]), ("x", ["s.t.a"])]⟩ ∧
      traceAt ⟨⟨∅⟩, ⟨none, some "s"⟩, 8⟩ (capitalAndSmall [⟨"s", none⟩]) 1 = .ok ["s.t.b"] ∧
      ∃ lineage j,
        (analyze ⟨⟨∅⟩, ⟨none, some "s"⟩, 8⟩ ⟨[⟨"v", none⟩]⟩ (capitalAndSmall [])).lineage =
          some lineage ∧
        j ≤ 1 ∧ FirstNamesake [some "X", some "x"] "x" j ∧
        lineage.columns.get? "x" = recordable
          (traceAt ⟨⟨∅⟩, ⟨none, some "s"⟩, 8⟩ (capitalAndSmall [⟨"s", none⟩]) j) ∧
        (CarriesOwn lineage "x"
            (traceAt ⟨⟨∅⟩, ⟨none, some "s"⟩, 8⟩ (capitalAndSmall [⟨"s", none⟩]) 1) ↔
          recordable (traceAt ⟨⟨∅⟩, ⟨none, some "s"⟩, 8⟩ (capitalAndSmall [⟨"s", none⟩]) 1) =
            recordable (traceAt ⟨⟨∅⟩, ⟨none, some "s"⟩, 8⟩ (capitalAndSmall [⟨"s", none⟩]) j)) ∧
        ((∀ k < 1, ¬ Namesake [some "X", some "x"] "x" k) →
          CarriesOwn lineage "x"
            (traceAt ⟨⟨∅⟩, ⟨none, some "s"⟩, 8⟩ (capitalAndSmall [⟨"s", none⟩]) 1)) := by
  have h : prepare ⟨⟨∅⟩, ⟨none, some "s"⟩, 8⟩ (capitalAndSmall []) =
      .ok (capitalAndSmall [⟨"s", none⟩]) := by
    rfl
  have hi : (capitalAndSmall [⟨"s", none⟩]).body.positionalNames[1]? = some (some "x") := by
    rfl
  exact ⟨by decide, by decide, recorded_eq_first_namesake _ _ _ h hi⟩

end AnalysisContext

end ColumnLineage
