import ColumnLineage.Proofs.QualifierSteps

/-!
# The columns that a qualified query gives

A query gives its columns in two ways: qualification hands them to whatever stands around the query,
and they can be read off the leftmost select of the qualified query. Both ways lead to the same
operand, the leftmost one. If that is a select, they agree; if it is a list of rows, qualification
numbers the columns, and nothing can be read off.

* `Query.knownNames_qualify_iff`: the two agree exactly if no row of values comes first.
-/

namespace ColumnLineage

/-! ## Items -/

theorem SelectItem.outputNames_append (bs : List SelectItem) : (as : List SelectItem) →
    (index : Nat) → SelectItem.outputNames index (as ++ bs) =
      SelectItem.outputNames index as ++ SelectItem.outputNames (index + as.length) bs
  | [], _ => rfl
  | a :: as, index => by
      rw [List.cons_append, SelectItem.outputNames, SelectItem.outputNames,
        SelectItem.outputNames_append bs as, List.length_cons, Nat.add_right_comm, List.cons_append,
        Nat.add_assoc]

theorem SelectItem.outputName?_label (e e' : Expr) (label : Option Ident) (index : Nat) :
    SelectItem.outputName? index (.expr e' (some (label.getD (itemAlias e index)))) =
      SelectItem.outputName? index (.expr e label) := by
  cases label with
  | some l => rfl
  | none =>
    unfold itemAlias
    simp only [SelectItem.outputName?, Option.getD_none]
    cases e.outputName? <;> rfl

theorem nameItems_names : (items : List SelectItem) → (index : Nat) →
    SelectItem.outputNames index (nameItems index items) = SelectItem.outputNames index items ∧
      (nameItems index items).length = items.length
  | [], _ => ⟨rfl, rfl⟩
  | .expr e label :: rest, index => by
      obtain ⟨hnames, hlength⟩ := nameItems_names rest (index + 1)
      rw [nameItems, SelectItem.outputNames, SelectItem.outputNames, hnames,
        SelectItem.outputName?_label, List.length_cons, List.length_cons, hlength]
      exact ⟨rfl, rfl⟩
  | .star :: rest, index => by
      obtain ⟨hnames, hlength⟩ := nameItems_names rest (index + 1)
      exact ⟨congrArg (none :: ·) hnames, congrArg (· + 1) hlength⟩
  | .starOf name :: rest, index => by
      obtain ⟨hnames, hlength⟩ := nameItems_names rest (index + 1)
      exact ⟨congrArg (none :: ·) hnames, congrArg (· + 1) hlength⟩

section items

variable {x : Qualifier} {v : Visible} {scope : Scope}

/-- An item becomes as many items as it stands for, with the same names. -/
theorem SelectItem.outputNames_qualify {index : Nat} {i : SelectItem} {items : List SelectItem}
    (h : i.qualify x v scope index = .ok items) :
    SelectItem.outputNames index items = SelectItem.outputNames index (scope.expandItem i) ∧
      items.length = (scope.expandItem i).length := by
  cases i with
  | expr e label =>
    rw [SelectItem.qualify] at h
    obtain ⟨e', -, h⟩ := bind_eq_ok.mp h
    obtain rfl := pure_eq_ok.mp h
    exact ⟨congrArg (· :: []) (SelectItem.outputName?_label e e' label index), rfl⟩
  | star =>
    cases h
    exact nameItems_names scope.expandStar index
  | starOf name =>
    cases h
    exact nameItems_names (scope.expandStarOf name) index

/-- Qualification keeps the names that items have once stars are expanded. -/
theorem SelectItem.outputNames_qualifyList : (items₀ : List SelectItem) → {index : Nat} →
    {items : List SelectItem} → SelectItem.qualifyList x v scope index items₀ = .ok items →
      SelectItem.outputNames index items = SelectItem.outputNames index (scope.expandItems items₀)
  | [], _, _, h => by
      cases h
      rfl
  | i :: rest, index, _, h => by
      rw [SelectItem.qualifyList] at h
      obtain ⟨first, hf, h⟩ := bind_eq_ok.mp h
      obtain ⟨others, ho, h⟩ := bind_eq_ok.mp h
      obtain rfl := pure_eq_ok.mp h
      obtain ⟨hnames, hlength⟩ := SelectItem.outputNames_qualify hf
      rw [Scope.expandItems, List.flatMap_cons, SelectItem.outputNames_append,
        SelectItem.outputNames_append, hnames, SelectItem.outputNames_qualifyList rest ho, hlength]
      rfl

end items

/-! ## Bodies -/

/-- The leftmost operand of a body, inside all parentheses. -/
def Body.leading : Body → Body
  | .parens { body, .. } => body.leading
  | .setOperation _ _ left _ => left.leading
  | .select s => .select s
  | .values explicitRow rows => .values explicitRow rows
  | .defaultValues => .defaultValues
  | .table name => .table name
  | .insert i => .insert i
  | .update u => .update u
termination_by structural b => b

/-- The columns of an operand: those of the items of a select, and numbered ones of rows of
values. -/
def Body.operandColumns : Body → Columns
  | .select s => .ofOption (allSome s.outputNames)
  | .values _ rows => valuesColumns rows
  | _ => .unknown

/-- The names that can be read off an operand. -/
def Body.operandNames : Body → List (Option String)
  | .select s => s.outputNames
  | _ => []

theorem Body.positionalNames_leading : (b : Body) → b.positionalNames = b.leading.operandNames
  | .parens { body, .. } => body.positionalNames_leading
  | .setOperation _ _ left _ => left.positionalNames_leading
  | .select _ => rfl
  | .values _ _ => rfl
  | .defaultValues => rfl
  | .table _ => rfl
  | .insert _ => rfl
  | .update _ => rfl

section bodies

variable {x : Qualifier}

theorem Select.columns_of_qualify {v : Visible} {s₀ s : Select} {columns : Columns} {scope : Scope}
    (h : s₀.qualify x v = .ok (s, columns, scope)) :
    columns = .ofOption (allSome s.outputNames) := by
  obtain ⟨registered, hs, rfl⟩ := Select.qualified_of_qualify h
  rw [← SelectItem.outputNames_qualifyList s₀.items hs.items]
  rfl

/-- The columns that are handed on are those of the leftmost operand. -/
theorem Body.columns_of_qualify : (b₀ : Body) → {v : Visible} → {b : Body} → {columns : Columns} →
    {scope : Option Scope} → b₀.qualify x v = .ok (b, columns, scope) →
      columns = b.leading.operandColumns
  | .select s₀, _, _, _, _, h => by
      obtain ⟨s, own, rfl, hs, -⟩ := Body.qualify_select h
      exact Select.columns_of_qualify hs
  | .parens { isRecursive, ctes, body, orderBy, limit, offset, offsetWord, fetch, locks }, _, _, _,
      _, h => by
      obtain ⟨q, rfl, hq⟩ := Body.qualify_parens h
      obtain ⟨inner, scope, -, hb, -, -⟩ := Query.qualify_eq_ok hq
      have hcolumns := body.columns_of_qualify hb
      cases q
      exact hcolumns
  | .setOperation _ _ l₀ r₀, _, _, _, _, h => by
      rw [Body.qualify] at h
      obtain ⟨⟨l, columns, scope⟩, hl, h⟩ := bind_eq_ok.mp h
      obtain ⟨⟨r, right⟩, -, h⟩ := bind_eq_ok.mp h
      cases h
      have hcolumns := l₀.columns_of_qualify hl
      exact hcolumns
  | .values _ _, _, _, _, _, h => by
      cases h
      rfl
  | .defaultValues, _, _, _, _, h => by
      cases h
      rfl
  | .table _, _, _, _, _, h => by
      cases h
      rfl
  | .insert _, _, _, _, _, h => by
      cases h
      rfl
  | .update _, _, _, _, _, h => by
      cases h
      rfl

end bodies

/-! ## Queries -/

/-- Rows of values have no columns exactly if the first of them is missing or empty. -/
theorem valuesColumns_eq_nil_iff {rows : List (List Expr)} :
    valuesColumns rows = .known [] ↔ ∀ row rest, rows = row :: rest → row = [] := by
  unfold valuesColumns
  cases rows with
  | nil => simp
  | cons row rest => cases row <;> simp

/-- Whatever is in view, if a query is qualified and hands on known columns, then the same columns
in the same order can be read off the qualified query, unless its leftmost operand is a list of rows
with columns: then no column can be read off. -/
theorem Query.knownNames_qualify_iff {x : Qualifier} {v : Visible} {q₀ q : Query}
    {names : List String} (h : q₀.qualify x v = .ok (q, .known names)) :
    (q.knownNames = some names ↔
        ∀ explicitRow row rest, q.body.leading = .values explicitRow (row :: rest) → row = []) ∧
      (∀ explicitRow rows, q.body.leading = .values explicitRow rows → q.knownNames = some []) := by
  obtain ⟨inner, scope, -, hb, -, -⟩ := Query.qualify_eq_ok h
  have hcolumns := q₀.body.columns_of_qualify hb
  rw [Query.knownNames, Body.positionalNames_leading]
  generalize q.body.leading = operand at hcolumns
  cases operand with
  | select s =>
    -- The columns of a select are known only if all its items have names.
    have hnames : allSome s.outputNames = some names := by
      change Columns.known names = .ofOption (allSome s.outputNames) at hcolumns
      cases hall : allSome s.outputNames with
      | some found =>
        rw [hall] at hcolumns
        cases hcolumns
        rfl
      | none =>
        rw [hall] at hcolumns
        cases hcolumns
    refine ⟨⟨fun _ => ?_, fun _ => hnames⟩, ?_⟩ <;> intros <;> contradiction
  | values explicitRow rows =>
    have hrows : valuesColumns rows = .known names := hcolumns.symm
    refine ⟨?_, fun _ _ _ => rfl⟩
    have hread : allSome (Body.values explicitRow rows).operandNames = some names ↔
        valuesColumns rows = .known [] := by
      rw [hrows]
      change some [] = some names ↔ _
      simp [eq_comm]
    rw [hread, valuesColumns_eq_nil_iff]
    constructor
    · rintro hempty _ row rest he
      cases he
      exact hempty row rest rfl
    · rintro hempty row rest rfl
      exact hempty explicitRow row rest rfl
  | _ => cases hcolumns

/-- `(SELECT t.a AS a FROM t) UNION ALL VALUES (NULL)` -/
def selectFirst : Query :=
  .plain [] (.setOperation .union .all
    (.parens (.plain [] (.select (.plain [.plain "t" "a"] [.plain "t"]))))
    (.values false [[.literal .null]]))

/-- `VALUES (NULL, NULL) UNION ALL SELECT t.a AS a FROM t` -/
def rowsFirst : Query :=
  .plain [] (.setOperation .union .all (.values false [[.literal .null, .literal .null]])
    (.select (.plain [.plain "t" "a"] [.plain "t"])))

/-- The columns of a union that starts with a select can be read off it. Those of one that starts
with rows of values have numbered names, which cannot. -/
theorem Query.knownNames_qualify_iff_union :
    (∃ q, selectFirst.qualify ⟨⟨∅⟩, {}⟩ {} = .ok (q, .known ["a"]) ∧ q.knownNames = some ["a"]) ∧
      ∃ q, rowsFirst.qualify ⟨⟨∅⟩, {}⟩ {} = .ok (q, .known ["column1", "column2"]) ∧
        q.knownNames = some [] ∧ q.knownNames ≠ some ["column1", "column2"] := by
  have hselect : selectFirst.qualify ⟨⟨∅⟩, {}⟩ {} = .ok (selectFirst, .known ["a"]) := rfl
  have hrows : rowsFirst.qualify ⟨⟨∅⟩, {}⟩ {} =
      .ok (rowsFirst, .known ["column1", "column2"]) := rfl
  refine ⟨⟨_, hselect, (Query.knownNames_qualify_iff hselect).1.mpr ?_⟩, _, hrows,
    (Query.knownNames_qualify_iff hrows).2 _ _ rfl, ?_⟩
  · intro explicitRow row rest he
    cases he
  · intro hnames
    cases (Query.knownNames_qualify_iff hrows).1.mp hnames _ _ _ rfl

end ColumnLineage
