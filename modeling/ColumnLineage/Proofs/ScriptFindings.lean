import ColumnLineage.Analysis.Script
import ColumnLineage.Proofs.Steps

/-!
# What the statements of a script give

Every statement that makes a table from a query is analysed by itself, and its outcome is recorded
under the full name of the table. Statements have nothing in common but the default parts of names,
on which their queries have no influence.

* `AnalysisOptions.analyze_reports`: so do the findings in a script, and another query in a
  statement changes them under the table of the statement only.
-/

namespace ColumnLineage

/-! ## Outcomes -/

def Outcome.messages (o : Outcome) : List String :=
  o.errors.map StatementError.message

/-- The outcomes for the table of a full name. -/
def outcomesFor (outcomes : List Outcome) (key : String) : List Outcome :=
  outcomes.filter fun o => o.target.text = key

theorem mem_outcomesFor {outcomes : List Outcome} {key : String} {o : Outcome} :
    o ∈ outcomesFor outcomes key ↔ o ∈ outcomes ∧ o.target.text = key := by
  simp [outcomesFor]

theorem outcomesFor_append_singleton (outcomes : List Outcome) (o : Outcome) (key : String) :
    outcomesFor (outcomes ++ [o]) key =
      outcomesFor outcomes key ++ if o.target.text = key then [o] else [] := by
  unfold outcomesFor
  rw [List.filter_append]
  by_cases h : o.target.text = key <;> simp [h]

/-- All messages about a table, in their order. -/
def messagesFor (outcomes : List Outcome) (key : String) : List String :=
  (outcomesFor outcomes key).flatMap Outcome.messages

/-- The lineage of a table in the last outcome that has one. -/
def lastLineage? (outcomes : List Outcome) (key : String) : Option TableLineage :=
  ((outcomesFor outcomes key).filterMap Outcome.lineage).getLast?

def unlessEmpty (messages : List String) : Option (List String) :=
  if messages = [] then none else some messages

@[simp] theorem getD_unlessEmpty (messages : List String) :
    (unlessEmpty messages).getD [] = messages := by
  unfold unlessEmpty
  by_cases h : messages = []
  · rw [if_pos h, h]
    rfl
  · rw [if_neg h]
    rfl

theorem isSome_unlessEmpty {messages : List String} :
    (unlessEmpty messages).isSome ↔ messages ≠ [] := by
  unfold unlessEmpty
  by_cases h : messages = [] <;> simp [h]

theorem unlessEmpty_append_singleton (messages : List String) (message : String) :
    unlessEmpty (messages ++ [message]) = some (messages ++ [message]) := by
  simp [unlessEmpty]

/-! ## Recording -/

namespace Findings

variable {f : Findings}

theorem get?_addError (f : Findings) (key message key' : String) :
    (f.addError key message).errors.get? key' =
      if key = key' then some ((f.errors.get? key').getD [] ++ [message])
      else f.errors.get? key' := by
  unfold addError addErrors OrderedMap.alter
  rw [OrderedMap.get?_insert]
  by_cases h : key = key'
  · rw [if_pos h, if_pos h, h]
  · rw [if_neg h, if_neg h]

theorem get?_addMessages (key key' : String) (errors : List StatementError) {before : List String}
    (h : f.errors.get? key' = unlessEmpty before) :
    (errors.foldl (fun f e => f.addError key e.message) f).errors.get? key' =
      unlessEmpty (before ++ if key = key' then errors.map StatementError.message else []) := by
  -- What is there already grows with every message, so the induction is over all of it.
  induction errors generalizing f before with
  | nil => simpa using h
  | cons e rest ih =>
    have hstep : (f.addError key e.message).errors.get? key' =
        unlessEmpty (before ++ if key = key' then [e.message] else []) := by
      rw [get?_addError, h, getD_unlessEmpty]
      by_cases hk : key = key'
      · rw [if_pos hk, if_pos hk, unlessEmpty_append_singleton]
      · rw [if_neg hk, if_neg hk, List.append_nil]
    rw [List.foldl_cons, ih hstep]
    by_cases hk : key = key' <;> simp [hk]

theorem lineage_addMessages (f : Findings) (key : String) (errors : List StatementError) :
    (errors.foldl (fun f e => f.addError key e.message) f).lineage = f.lineage := by
  induction errors generalizing f with
  | nil => rfl
  | cons e rest ih => exact ih _

/-- Findings hold what outcomes say, and nothing else. -/
structure Reports (f : Findings) (outcomes : List Outcome) : Prop where
  errors : ∀ key, f.errors.get? key = unlessEmpty (messagesFor outcomes key)
  lineage : ∀ key, f.lineage.get? key = lastLineage? outcomes key

theorem reports_nil : Findings.Reports {} [] where
  errors _ := rfl
  lineage _ := rfl

theorem Reports.record {outcomes : List Outcome} (h : f.Reports outcomes) (o : Outcome) :
    (o.record f).Reports (outcomes ++ [o]) where
  errors key := by
    have hkeep : (o.record f).errors =
        (o.errors.foldl (fun f e => f.addError o.target.text e.message) f).errors := by
      unfold Outcome.record
      cases o.lineage <;> rfl
    rw [hkeep, get?_addMessages _ _ _ (h.errors key)]
    unfold messagesFor
    rw [outcomesFor_append_singleton, List.flatMap_append]
    by_cases hk : o.target.text = key <;> simp [hk, Outcome.messages]
  lineage key := by
    rw [lastLineage?, outcomesFor_append_singleton, List.filterMap_append]
    unfold Outcome.record
    cases hl : o.lineage with
    | none =>
      dsimp only
      rw [lineage_addMessages, h.lineage, lastLineage?]
      by_cases hk : o.target.text = key <;> simp [hk, hl]
    | some lineage =>
      simp only [setLineage, OrderedMap.get?_insert, lineage_addMessages, h.lineage]
      by_cases hk : o.target.text = key <;> simp [hk, hl, lastLineage?]

theorem Reports.recordAll {outcomes : List Outcome} (h : f.Reports outcomes) (more : List Outcome) :
    (more.foldl (fun f o => o.record f) f).Reports (outcomes ++ more) := by
  induction more generalizing f outcomes with
  | nil => simpa using h
  | cons o rest ih =>
    have hrest := ih (h.record o)
    rwa [List.append_assoc, List.singleton_append] at hrest

/-- If every outcome says something, findings hold just the tables of the outcomes. -/
theorem Reports.mem_keys {outcomes : List Outcome} (h : f.Reports outcomes)
    (hsay : ∀ o ∈ outcomes, o.lineage = none → o.errors ≠ []) (key : String) :
    key ∈ f.errors.keys ∨ key ∈ f.lineage.keys ↔ ∃ o ∈ outcomes, o.target.text = key := by
  rw [← OrderedMap.get?_isSome_iff, ← OrderedMap.get?_isSome_iff, h.errors, h.lineage,
    isSome_unlessEmpty, lastLineage?, List.getLast?_isSome]
  constructor
  · rintro (hm | hl)
    · obtain ⟨message, hm⟩ := List.exists_mem_of_ne_nil _ hm
      obtain ⟨o, ho, -⟩ := List.mem_flatMap.mp hm
      exact ⟨o, mem_outcomesFor.mp ho⟩
    · obtain ⟨lineage, hl⟩ := List.exists_mem_of_ne_nil _ hl
      obtain ⟨o, ho, -⟩ := List.mem_filterMap.mp hl
      exact ⟨o, mem_outcomesFor.mp ho⟩
  · rintro ⟨o, ho, hk⟩
    have hfor : o ∈ outcomesFor outcomes key := mem_outcomesFor.mpr ⟨ho, hk⟩
    cases hl : o.lineage with
    | none =>
      left
      obtain ⟨e, he⟩ := List.exists_mem_of_ne_nil _ (hsay o ho hl)
      exact List.ne_nil_of_mem (List.mem_flatMap.mpr ⟨o, hfor, List.mem_map_of_mem he⟩)
    | some lineage =>
      right
      exact List.ne_nil_of_mem (List.mem_filterMap.mpr ⟨o, hfor, hl⟩)

end Findings

/-! ## Statements -/

namespace AnalysisContext

variable (x : AnalysisContext)

theorem target_analyze (target : ObjectName) (q : Query) :
    (x.analyze target q).target = FullName.ofObjectName target x.defaults := by
  unfold analyze
  cases x.prepare q <;> rfl

theorem errors_ne_nil_of_analyze {target : ObjectName} {q : Query}
    (h : (x.analyze target q).lineage = none) : (x.analyze target q).errors ≠ [] := by
  unfold analyze at h ⊢
  cases hp : x.prepare q with
  | error e => simp
  | ok qualified =>
    rw [hp] at h
    cases h

/-- The outcome of a statement, if it makes a table from a query. -/
def outcome? (s : ScriptStatement) : Option Outcome :=
  s.statement.tableQuery?.map fun (target, q) => x.analyze target q

/-- The full name of the table that a statement makes from a query. -/
def target? (s : ScriptStatement) : Option String :=
  s.statement.tableQuery?.map fun (target, _) => (FullName.ofObjectName target x.defaults).text

theorem target?_eq (s : ScriptStatement) :
    x.target? s = (x.outcome? s).map fun o => o.target.text := by
  simp only [target?, outcome?, Option.map_map, Function.comp_def, target_analyze]

end AnalysisContext

/-- The statement with another query in place of the one that its table is made from. -/
def ScriptStatement.withQuery (q : Query) (s : ScriptStatement) : ScriptStatement :=
  match s.statement with
  | .createTable t =>
    { s with statement := .createTable { t with query := t.query.map fun _ => q } }
  | _ => s

section replacing

variable (q : Query)

theorem ScriptStatement.tableQuery?_withQuery (s : ScriptStatement) :
    (s.withQuery q).statement.tableQuery? = s.statement.tableQuery?.map fun r => (r.1, q) := by
  obtain ⟨statement, distribution⟩ := s
  cases statement with
  | createTable t =>
    simp only [withQuery, Statement.tableQuery?, Option.map_map]
    rfl
  | _ => rfl

theorem ScriptStatement.searchPath?_withQuery (s : ScriptStatement) :
    (s.withQuery q).statement.searchPath? = s.statement.searchPath? := by
  obtain ⟨statement, distribution⟩ := s
  cases statement <;> rfl

theorem searchPath?_modify (statements : List ScriptStatement) (i : Nat) :
    searchPath? (statements.modify i (ScriptStatement.withQuery q)) = searchPath? statements := by
  have hpaths : (statements.modify i (ScriptStatement.withQuery q)).map
      (fun s => s.statement.searchPath?) = statements.map fun s => s.statement.searchPath? := by
    induction statements generalizing i with
    | nil => rw [List.modify_nil]
    | cons s rest ih =>
      cases i with
      | zero =>
        rw [List.modify_zero_cons, List.map_cons, List.map_cons,
          ScriptStatement.searchPath?_withQuery]
      | succ i => rw [List.modify_succ_cons, List.map_cons, List.map_cons, ih]
  have hfind : ∀ l : List ScriptStatement,
      searchPath? l = (l.map fun s => s.statement.searchPath?).reverse.findSome? id := by
    intro l
    rw [← List.map_reverse, List.findSome?_map]
    rfl
  rw [hfind, hfind, hpaths]

namespace AnalysisContext

variable (x : AnalysisContext) {key : String}

theorem target?_withQuery (s : ScriptStatement) : x.target? (s.withQuery q) = x.target? s := by
  unfold target?
  rw [ScriptStatement.tableQuery?_withQuery, Option.map_map]
  rfl

theorem outcomesFor_cons {s : ScriptStatement} (h : x.target? s ≠ some key)
    (rest : List ScriptStatement) :
    outcomesFor ((s :: rest).filterMap x.outcome?) key =
      outcomesFor (rest.filterMap x.outcome?) key := by
  rw [target?_eq] at h
  rw [List.filterMap_cons]
  cases ho : x.outcome? s with
  | none => rfl
  | some o =>
    have hne : o.target.text ≠ key := by
      intro hk
      rw [ho] at h
      exact h (congrArg some hk)
    unfold outcomesFor
    rw [List.filter_cons, if_neg (by simpa using hne)]

/-- Another query in a statement is not seen under other tables. -/
theorem outcomesFor_modify (statements : List ScriptStatement) (i : Nat)
    (h : statements[i]?.bind x.target? ≠ some key) :
    outcomesFor ((statements.modify i (ScriptStatement.withQuery q)).filterMap x.outcome?) key =
      outcomesFor (statements.filterMap x.outcome?) key := by
  induction statements generalizing i with
  | nil => rw [List.modify_nil]
  | cons s rest ih =>
    cases i with
    | zero =>
      have hs : x.target? s ≠ some key := h
      have hs' : x.target? (s.withQuery q) ≠ some key := by rwa [target?_withQuery]
      rw [List.modify_zero_cons, x.outcomesFor_cons hs, x.outcomesFor_cons hs']
    | succ i =>
      have hrest := ih i h
      unfold outcomesFor at hrest ⊢
      rw [List.modify_succ_cons, List.filterMap_cons, List.filterMap_cons]
      cases x.outcome? s with
      | none => exact hrest
      | some o => rw [List.filter_cons, List.filter_cons, hrest]

end AnalysisContext

end replacing

/-! ## Scripts -/

namespace AnalysisOptions

variable (o : AnalysisOptions) (catalog : Catalog)

/-- The outcomes of the statements that make tables from queries, in the order of the script. -/
def outcomes (statements : List ScriptStatement) : List Outcome :=
  statements.filterMap (o.context catalog statements).outcome?

theorem reports_analyzeStatements (statements : List ScriptStatement) :
    (o.analyzeStatements catalog statements).Reports (o.outcomes catalog statements) := by
  have hfold : o.analyzeStatements catalog statements =
      (o.outcomes catalog statements).foldl (fun f outcome => outcome.record f) {} := by
    have houtcomes : o.outcomes catalog statements =
        (statements.filterMap fun s => s.statement.tableQuery?).map
          fun r => (o.context catalog statements).analyze r.1 r.2 := by
      rw [List.map_filterMap]
      rfl
    rw [houtcomes, List.foldl_map]
    rfl
  rw [hfold]
  exact Findings.reports_nil.recordAll _

/-- There are findings for just the tables that statements make from queries. -/
theorem mem_keys_analyzeStatements (statements : List ScriptStatement) (key : String) :
    key ∈ (o.analyzeStatements catalog statements).errors.keys ∨
        key ∈ (o.analyzeStatements catalog statements).lineage.keys ↔
      ∃ s ∈ statements, (o.context catalog statements).target? s = some key := by
  have hsay : ∀ outcome ∈ o.outcomes catalog statements,
      outcome.lineage = none → outcome.errors ≠ [] := by
    intro outcome ho
    obtain ⟨s, -, hs⟩ := List.mem_filterMap.mp ho
    obtain ⟨r, -, rfl⟩ := Option.map_eq_some_iff.mp hs
    exact (o.context catalog statements).errors_ne_nil_of_analyze
  rw [(o.reports_analyzeStatements catalog statements).mem_keys hsay]
  simp only [AnalysisContext.target?_eq, Option.map_eq_some_iff]
  constructor
  · rintro ⟨outcome, ho, hk⟩
    obtain ⟨s, hs, ho⟩ := List.mem_filterMap.mp ho
    exact ⟨s, hs, outcome, ho, hk⟩
  · rintro ⟨s, hs, outcome, ho, hk⟩
    exact ⟨outcome, List.mem_filterMap.mpr ⟨s, hs, ho⟩, hk⟩

theorem outcomesFor_replaced (statements : List ScriptStatement) {i : Nat} {key : String}
    (h : statements[i]?.bind (o.context catalog statements).target? ≠ some key) (q : Query) :
    outcomesFor (o.outcomes catalog (statements.modify i (ScriptStatement.withQuery q))) key =
      outcomesFor (o.outcomes catalog statements) key := by
  have hcontext : o.context catalog (statements.modify i (ScriptStatement.withQuery q)) =
      o.context catalog statements := by
    unfold context
    rw [searchPath?_modify]
  unfold outcomes
  rw [hcontext]
  exact (o.context catalog statements).outcomesFor_modify q statements i h

/-- The findings in a script are those of its statements, each analysed by itself. There are
messages or lineage for just the tables that statements make from queries. Under each table stand
the messages of all its statements, in the order of the script, and the lineage of the last one that
has lineage. With another query in one statement, nothing changes under other tables. -/
theorem analyze_reports {sql : String} {statements : List ScriptStatement}
    (h : o.parse sql = .ok statements) :
    (∀ key, key ∈ (o.analyze catalog sql).errors.keys ∨
        key ∈ (o.analyze catalog sql).lineage.keys ↔
      ∃ s ∈ statements, (o.context catalog statements).target? s = some key) ∧
    (∀ key, (o.analyze catalog sql).errors.get? key =
      unlessEmpty (messagesFor (o.outcomes catalog statements) key)) ∧
    (∀ key, (o.analyze catalog sql).lineage.get? key =
      lastLineage? (o.outcomes catalog statements) key) ∧
    ∀ i q key, statements[i]?.bind (o.context catalog statements).target? ≠ some key →
      let replaced :=
        o.analyzeStatements catalog (statements.modify i (ScriptStatement.withQuery q))
      replaced.errors.get? key = (o.analyze catalog sql).errors.get? key ∧
        replaced.lineage.get? key = (o.analyze catalog sql).lineage.get? key := by
  have hanalyze : o.analyze catalog sql = o.analyzeStatements catalog statements := by
    unfold analyze
    rw [h]
  rw [hanalyze]
  have hreports := o.reports_analyzeStatements catalog statements
  refine ⟨?_, hreports.errors, hreports.lineage, ?_⟩
  · exact o.mem_keys_analyzeStatements catalog statements
  · intro i q key hi
    have hreplaced := o.reports_analyzeStatements catalog
      (statements.modify i (ScriptStatement.withQuery q))
    have hsame := o.outcomesFor_replaced catalog statements hi q
    constructor
    · rw [hreplaced.errors, hreports.errors, messagesFor, hsame, messagesFor]
    · rw [hreplaced.lineage, hreports.lineage, lastLineage?, hsame, lastLineage?]

/-- A script that makes one table twice and another one once. The second query cannot be
analysed. -/
def tableTwice : String :=
  "create table v as select t.a from t;
  create table v as select a from (select t.b from t) d;
  create table w as select u.b from u"

def tableTwiceStatements : List ScriptStatement :=
  (parse {} tableTwice).toOption.getD []

/-- The messages about the table that is made twice are those of its second statement, and its
lineage is that of the first. The other table keeps its lineage whatever the second query is. -/
theorem analyze_reports_tableTwice :
    (parse {} tableTwice).isOk ∧
      messagesFor (outcomes {} ⟨∅⟩ tableTwiceStatements) "v" =
        ["Could not analyze statement: Column 'a' could not be resolved"] ∧
      lastLineage? (outcomes {} ⟨∅⟩ tableTwiceStatements) "v" =
        some ⟨["t"], .ofList [("a", ["t.a"])]⟩ ∧
      ∀ q, (analyzeStatements {} ⟨∅⟩
          (tableTwiceStatements.modify 1 (ScriptStatement.withQuery q))).lineage.get? "w" =
        some ⟨["u"], .ofList [("b", ["u.b"])]⟩ := by
  have hrun : (parse {} tableTwice).isOk ∧
      tableTwiceStatements[1]?.bind (context {} ⟨∅⟩ tableTwiceStatements).target? ≠ some "w" ∧
      analyze {} ⟨∅⟩ tableTwice =
        ⟨.ofList [("v", ["Could not analyze statement: Column 'a' could not be resolved"])],
          .ofList [("v", ⟨["t"], .ofList [("a", ["t.a"])]⟩),
            ("w", ⟨["u"], .ofList [("b", ["u.b"])]⟩)]⟩ := by
    decide +kernel
  obtain ⟨hok, hsecond, hfound⟩ := hrun
  obtain ⟨-, hmessages, hlast, hreplaced⟩ := analyze_reports {} ⟨∅⟩ (eq_ok_getD (a := []) hok)
  rw [hfound] at hmessages hlast hreplaced
  refine ⟨hok, ?_, ?_, ?_⟩
  · rw [← getD_unlessEmpty (messagesFor _ _)]
    exact congrArg (Option.getD · []) (hmessages "v").symm
  · exact (hlast "v").symm
  · exact fun q => (hreplaced 1 q "w" hsecond).2

end AnalysisOptions

end ColumnLineage
