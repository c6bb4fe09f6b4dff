import ColumnLineage.Proofs.Maps
import ColumnLineage.Proofs.Parts
import ColumnLineage.Proofs.Rewriting

/-!
# Steps of qualification

What a successful qualification says about the parts of a query, a common table, a body and a
select: each of them was qualified in turn, with this or that in view.
-/

namespace ColumnLineage

variable {x : Qualifier} {v : Visible}

/-! ## Queries and common tables -/

def Visible.behind (v : Visible) (scope : Option Scope) : Visible :=
  match scope with
  | some s => v.withScope s
  | none => v

variable {columns : Columns}

theorem Query.qualify_eq_ok {q₀ q : Query} (h : q₀.qualify x v = .ok (q, columns)) :
    ∃ inner scope, Cte.qualifyList x q₀.isRecursive v q₀.ctes = .ok (q.ctes, inner) ∧
      q₀.body.qualify x inner = .ok (q.body, columns, scope) ∧
      OrderItem.qualifyList x (inner.behind scope) columns.names q₀.orderBy = .ok q.orderBy ∧
      q = { q₀ with ctes := q.ctes, body := q.body, orderBy := q.orderBy } := by
  obtain ⟨isRecursive, ctes, body, orderBy, limit, offset, offsetWord, fetch, locks⟩ := q₀
  rw [Query.qualify] at h
  obtain ⟨⟨ctes', inner⟩, hc, h⟩ := bind_eq_ok.mp h
  obtain ⟨⟨body', columns', scope⟩, hb, h⟩ := bind_eq_ok.mp h
  obtain ⟨orderBy', ho, h⟩ := bind_eq_ok.mp h
  obtain ⟨rfl, rfl⟩ := Prod.mk.inj (pure_eq_ok.mp h)
  exact ⟨inner, scope, hc, hb, ho, rfl⟩

/-- What the query of a common table sees. -/
def Cte.seen (isRecursive : Bool) (v : Visible) (c : Cte) : Visible :=
  match c with
  | .mk label _ query _ =>
    if isRecursive then
      v.withCte label.name.value ((Columns.declared? label).getD (.ofOption query.knownNames))
    else v

theorem Cte.qualify_eq_ok {isRecursive : Bool} {c₀ c : Cte}
    (h : c₀.qualify x isRecursive v = .ok (c, columns)) :
    ∃ inner, c₀.query.qualify x (c₀.seen isRecursive v) = .ok (c.query, inner) ∧
      c.name = c₀.name := by
  obtain ⟨label, materialized, query, source⟩ := c₀
  rw [Cte.qualify] at h
  obtain ⟨⟨query', inner⟩, hq, h⟩ := bind_eq_ok.mp h
  obtain ⟨rfl, rfl⟩ := Prod.mk.inj (pure_eq_ok.mp h)
  exact ⟨inner, hq, rfl⟩

theorem Cte.qualifyList_cons {isRecursive : Bool} {c₀ : Cte} {cs₀ cs : List Cte} {w : Visible}
    (h : Cte.qualifyList x isRecursive v (c₀ :: cs₀) = .ok (cs, w)) :
    ∃ c cs' columns, cs = c :: cs' ∧ c₀.qualify x isRecursive v = .ok (c, columns) ∧
      Cte.qualifyList x isRecursive (v.withCte c.name.value columns) cs₀ = .ok (cs', w) := by
  rw [Cte.qualifyList] at h
  obtain ⟨⟨c, columns⟩, hc, h⟩ := bind_eq_ok.mp h
  obtain ⟨⟨cs', w'⟩, hcs, h⟩ := bind_eq_ok.mp h
  obtain ⟨rfl, rfl⟩ := Prod.mk.inj (pure_eq_ok.mp h)
  exact ⟨c, cs', columns, rfl, hc, hcs⟩

theorem Cte.qualifyList_concat {isRecursive : Bool} {c₀ c : Cte} {columns : Columns} {w : Visible} :
    {cs₀ cs : List Cte} → {v : Visible} → Cte.qualifyList x isRecursive v cs₀ = .ok (cs, w) →
      c₀.qualify x isRecursive w = .ok (c, columns) →
      Cte.qualifyList x isRecursive v (cs₀ ++ [c₀]) =
        .ok (cs ++ [c], w.withCte c.name.value columns)
  | [], cs, v, h, hc => by
      cases h
      rw [List.nil_append, Cte.qualifyList, hc]
      rfl
  | c₁ :: cs₀, cs, v, h, hc => by
      obtain ⟨c₁', cs', columns', rfl, h₁, hs⟩ := Cte.qualifyList_cons h
      rw [List.cons_append, Cte.qualifyList, h₁]
      change (Cte.qualifyList x isRecursive _ (cs₀ ++ [c₀]) >>= _) = _
      rw [Cte.qualifyList_concat hs hc]
      rfl

/-! ## Selects -/

/-- A select is qualified clause by clause. -/
structure Select.Qualified (x : Qualifier) (v : Visible) (s₀ s : Select) (scope : Scope)
    (registered : List TableTree) (outputs : List String) : Prop where
  /-- The tables come first and make the scope. -/
  tables : TableTree.registerList x v {} s₀.sources = .ok (registered, scope)
  sources : TableTree.qualifyJoinsList x (v.withScope scope) s₀.sources registered = .ok s.sources
  items : SelectItem.qualifyList x (v.withScope scope) scope 0 s₀.items = .ok s.items
  distinct : s₀.distinct.qualify x (v.withScope scope) = .ok s.distinct
  filter : Expr.qualifyOption x (v.withScope scope) [] s₀.filter = .ok s.filter
  groupBy : s₀.groupBy.qualify x (v.withScope scope) outputs = .ok s.groupBy
  having : Expr.qualifyOption x (v.withScope scope) outputs s₀.having = .ok s.having
  others : s = { s₀ with
    sources := s.sources, items := s.items, distinct := s.distinct, filter := s.filter,
    groupBy := s.groupBy, having := s.having }

section selects

variable {s₀ s : Select} {columns : Columns} {scope : Scope} {registered : List TableTree}

/-- The names of the outputs are those of the items with their stars expanded. -/
theorem Select.qualified_of_qualify (h : s₀.qualify x v = .ok (s, columns, scope)) :
    ∃ registered, Select.Qualified x v s₀ s scope registered
        ((SelectItem.outputNames 0 (scope.expandItems s₀.items)).filterMap id) ∧
      columns = .ofOption (allSome (SelectItem.outputNames 0 (scope.expandItems s₀.items))) := by
  obtain ⟨distinct, top, topCount, items, into, sources, lateralViews, lateralRows, filter, groupBy,
    clusterBy, distributeBy, sortBy, having, windows, windowFilter, windowsFirst⟩ := s₀
  rw [Select.qualify] at h
  obtain ⟨⟨registered, scope'⟩, ht, h⟩ := bind_eq_ok.mp h
  obtain ⟨sources', hs, h⟩ := bind_eq_ok.mp h
  obtain ⟨items', hi, h⟩ := bind_eq_ok.mp h
  obtain ⟨distinct', hd, h⟩ := bind_eq_ok.mp h
  obtain ⟨filter', hf, h⟩ := bind_eq_ok.mp h
  obtain ⟨groupBy', hg, h⟩ := bind_eq_ok.mp h
  obtain ⟨having', hh, h⟩ := bind_eq_ok.mp h
  obtain ⟨rfl, he⟩ := Prod.mk.inj (pure_eq_ok.mp h)
  obtain ⟨rfl, rfl⟩ := Prod.mk.inj he
  exact ⟨registered, ⟨ht, hs, hi, hd, hf, hg, hh, rfl⟩, rfl⟩

theorem Select.qualify_eq_ok (h : s₀.qualify x v = .ok (s, columns, scope)) :
    ∃ registered outputs, Select.Qualified x v s₀ s scope registered outputs := by
  obtain ⟨registered, hs, -⟩ := Select.qualified_of_qualify h
  exact ⟨registered, _, hs⟩

theorem Select.Qualified.qualify (h : Select.Qualified x v s₀ s scope registered
      ((SelectItem.outputNames 0 (scope.expandItems s₀.items)).filterMap id)) :
    s₀.qualify x v = .ok (s,
      .ofOption (allSome (SelectItem.outputNames 0 (scope.expandItems s₀.items))), scope) := by
  obtain ⟨distinct, top, topCount, items, into, sources, lateralViews, lateralRows, filter, groupBy,
    clusterBy, distributeBy, sortBy, having, windows, windowFilter, windowsFirst⟩ := s₀
  simp only [Select.qualify, h.tables, h.sources, h.items, h.distinct, h.filter, h.groupBy,
    h.having, bind, Except.bind, pure, Except.pure]
  exact congrArg (fun s => Except.ok (s, _, scope)) h.others.symm

end selects

/-! ## Bodies -/

variable {scope : Option Scope}

theorem Body.qualify_select {s₀ : Select} {b : Body}
    (h : (Body.select s₀).qualify x v = .ok (b, columns, scope)) :
    ∃ s own, b = .select s ∧ s₀.qualify x v = .ok (s, columns, own) ∧ scope = some own := by
  obtain ⟨⟨s, columns', own⟩, hs, h⟩ := bind_eq_ok.mp h
  obtain ⟨rfl, he⟩ := Prod.mk.inj (pure_eq_ok.mp h)
  obtain ⟨rfl, rfl⟩ := Prod.mk.inj he
  exact ⟨s, own, rfl, hs, rfl⟩

theorem Body.qualify_parens {q₀ : Query} {b : Body}
    (h : (Body.parens q₀).qualify x v = .ok (b, columns, scope)) :
    ∃ q, b = .parens q ∧ q₀.qualify x v = .ok (q, columns) := by
  obtain ⟨⟨q, columns'⟩, hq, h⟩ := bind_eq_ok.mp h
  obtain ⟨rfl, he⟩ := Prod.mk.inj (pure_eq_ok.mp h)
  obtain ⟨rfl, rfl⟩ := Prod.mk.inj he
  exact ⟨q, rfl, hq⟩

theorem Body.qualify_setOperation {op : SetOperator} {quantifier : SetQuantifier} {l₀ r₀ b : Body}
    (h : (Body.setOperation op quantifier l₀ r₀).qualify x v = .ok (b, columns, scope)) :
    ∃ l r left right, b = .setOperation op quantifier l r ∧ l₀.qualify x v = .ok (l, left) ∧
      r₀.qualify x v = .ok (r, right) := by
  obtain ⟨⟨l, columns', scope'⟩, hl, h⟩ := bind_eq_ok.mp h
  obtain ⟨⟨r, right⟩, hr, h⟩ := bind_eq_ok.mp h
  obtain ⟨rfl, he⟩ := Prod.mk.inj (pure_eq_ok.mp h)
  exact ⟨l, r, _, _, rfl, hl, hr⟩

theorem Body.select_of_qualify {b₀ : Body} {s : Select}
    (h : b₀.qualify x v = .ok (.select s, columns, scope)) :
    ∃ s₀ own, b₀ = .select s₀ ∧ s₀.qualify x v = .ok (s, columns, own) := by
  cases b₀ with
  | select s₀ =>
    obtain ⟨s', own, he, hs, -⟩ := Body.qualify_select h
    cases he
    exact ⟨s₀, own, rfl, hs⟩
  | parens q₀ =>
    obtain ⟨q, he, -⟩ := Body.qualify_parens h
    cases he
  | setOperation op quantifier l₀ r₀ =>
    obtain ⟨l, r, left, right, he, -⟩ := Body.qualify_setOperation h
    cases he
  | _ => cases h

theorem Body.parens_of_qualify {b₀ : Body} {q : Query}
    (h : b₀.qualify x v = .ok (.parens q, columns, scope)) :
    ∃ q₀, b₀ = .parens q₀ ∧ q₀.qualify x v = .ok (q, columns) := by
  cases b₀ with
  | select s₀ =>
    obtain ⟨s, own, he, -⟩ := Body.qualify_select h
    cases he
  | parens q₀ =>
    obtain ⟨q', he, hq⟩ := Body.qualify_parens h
    cases he
    exact ⟨q₀, rfl, hq⟩
  | setOperation op quantifier l₀ r₀ =>
    obtain ⟨l, r, left, right, he, -⟩ := Body.qualify_setOperation h
    cases he
  | _ => cases h

theorem Body.setOperation_of_qualify {b₀ l r : Body} {op : SetOperator} {quantifier : SetQuantifier}
    (h : b₀.qualify x v = .ok (.setOperation op quantifier l r, columns, scope)) :
    ∃ l₀ r₀ left right, b₀ = .setOperation op quantifier l₀ r₀ ∧ l₀.qualify x v = .ok (l, left) ∧
      r₀.qualify x v = .ok (r, right) := by
  cases b₀ with
  | select s₀ =>
    obtain ⟨s, own, he, -⟩ := Body.qualify_select h
    cases he
  | parens q₀ =>
    obtain ⟨q', he, -⟩ := Body.qualify_parens h
    cases he
  | setOperation op' quantifier' l₀ r₀ =>
    obtain ⟨l', r', left, right, he, hl, hr⟩ := Body.qualify_setOperation h
    cases he
    exact ⟨l₀, r₀, left, right, rfl, hl, hr⟩
  | _ => cases h

/-! ## Items -/

/-- An item that a star stands for: all columns in it have a qualifier. -/
def SelectItem.IsExpanded (i : SelectItem) : Prop :=
  ∀ a ∈ i.atoms, ∃ segments, a = .path segments

theorem mergedColumn_atoms (owners : List Ident) (column : Ident) :
    (mergedColumn owners column).atoms = owners.map fun o => .path [o, column] := by
  have hargs : ∀ owners : List Ident, Argument.atomsList (owners.map fun o =>
      .positional (.expr (qualifiedColumn o column))) = owners.map fun o => .path [o, column] := by
    intro owners
    induction owners with
    | nil => rfl
    | cons o rest ih =>
      rw [List.map_cons, Argument.atomsList, ih]
      rfl
  unfold mergedColumn
  split
  · rfl
  · simp [Expr.atoms, Arguments.atoms, hargs, OrderItem.atomsList, Expr.atomsOption, Window.atoms]

theorem Scope.isExpanded_columnItem (label : Ident) (column : String) :
    (Scope.columnItem label column).IsExpanded := by
  intro a ha
  exact ⟨_, List.mem_singleton.mp ha⟩

theorem Scope.isExpanded_expandStar (scope : Scope) : ∀ i ∈ scope.expandStar, i.IsExpanded := by
  intro i hi
  unfold Scope.expandStar at hi
  split at hi
  · obtain rfl := List.mem_singleton.mp hi
    intro a ha
    cases ha
  · rcases List.mem_append.mp hi with hi | hi
    · obtain ⟨m, -, rfl⟩ := List.mem_map.mp hi
      intro a ha
      rw [SelectItem.atoms, mergedColumn_atoms] at ha
      obtain ⟨o, -, rfl⟩ := List.mem_map.mp ha
      exact ⟨_, rfl⟩
    · obtain ⟨⟨label, column⟩, -, rfl⟩ := List.mem_map.mp hi
      exact Scope.isExpanded_columnItem label column

theorem Scope.isExpanded_expandStarOf (scope : Scope) (name : ObjectName) :
    ∀ i ∈ scope.expandStarOf name, i.IsExpanded := by
  intro i hi
  unfold Scope.expandStarOf at hi
  split at hi
  · obtain ⟨column, -, rfl⟩ := List.mem_map.mp hi
    exact Scope.isExpanded_columnItem _ column
  · obtain rfl := List.mem_singleton.mp hi
    intro a ha
    cases ha

theorem isExpanded_nameItems : (items : List SelectItem) → {index : Nat} →
    (∀ i ∈ items, i.IsExpanded) → ∀ i ∈ nameItems index items, i.IsExpanded
  | [], _, _, i, hi => by cases hi
  | .expr e label :: rest, index, h, i, hi => by
      rcases List.mem_cons.mp hi with rfl | hi
      · exact h (.expr e label) List.mem_cons_self
      · exact isExpanded_nameItems rest (fun j hj => h j (List.mem_cons_of_mem _ hj)) i hi
  | .star :: rest, index, h, i, hi => by
      rcases List.mem_cons.mp hi with rfl | hi
      · exact h _ List.mem_cons_self
      · exact isExpanded_nameItems rest (fun j hj => h j (List.mem_cons_of_mem _ hj)) i hi
  | .starOf name :: rest, index, h, i, hi => by
      rcases List.mem_cons.mp hi with rfl | hi
      · exact h _ List.mem_cons_self
      · exact isExpanded_nameItems rest (fun j hj => h j (List.mem_cons_of_mem _ hj)) i hi

/-- What an item of a select becomes: its expression is rewritten, and a star gives way to columns
with qualifiers. -/
def SelectItem.Becomes (r : Rewriting) : SelectItem → List SelectItem → Prop
  | .expr e _, items => ∃ name, items = [.expr (e.rewrite r) (some name)]
  | _, items => ∀ i ∈ items, i.IsExpanded

theorem SelectItem.qualify_eq_ok {scope : Scope} {index : Nat} {i : SelectItem}
    {items : List SelectItem} (h : i.qualify x v scope index = .ok items) :
    Settled x v [] i.atoms ∧ i.Becomes (x.rewriting v []) items := by
  cases i with
  | expr e label =>
    rw [SelectItem.qualify] at h
    obtain ⟨e', he, h⟩ := bind_eq_ok.mp h
    obtain rfl := pure_eq_ok.mp h
    obtain ⟨hs, rfl⟩ := e.qualify_eq_ok.mp he
    exact ⟨hs, _, rfl⟩
  | star =>
    obtain rfl := ok_eq_ok.mp h
    exact ⟨settled_nil, isExpanded_nameItems _ scope.isExpanded_expandStar⟩
  | starOf name =>
    obtain rfl := ok_eq_ok.mp h
    exact ⟨settled_nil, isExpanded_nameItems _ (scope.isExpanded_expandStarOf name)⟩

theorem SelectItem.qualifyList_eq_ok {scope : Scope} : (items₀ : List SelectItem) →
    {index : Nat} → {items : List SelectItem} →
      SelectItem.qualifyList x v scope index items₀ = .ok items →
      Settled x v [] (items₀.flatMap SelectItem.atoms) ∧
        ∃ pieces, items = pieces.flatten ∧
          List.Forall₂ (SelectItem.Becomes (x.rewriting v [])) items₀ pieces
  | [], _, _, h => by
      cases h
      exact ⟨settled_nil, [], rfl, .nil⟩
  | i :: items₀, index, _, h => by
      rw [SelectItem.qualifyList] at h
      obtain ⟨first, hf, h⟩ := bind_eq_ok.mp h
      obtain ⟨rest, hr, h⟩ := bind_eq_ok.mp h
      obtain rfl := pure_eq_ok.mp h
      obtain ⟨hs, hb⟩ := SelectItem.qualify_eq_ok hf
      obtain ⟨hss, pieces, rfl, hbs⟩ := SelectItem.qualifyList_eq_ok items₀ hr
      exact ⟨settled_append.mpr ⟨hs, hss⟩, first :: pieces, rfl, .cons hb hbs⟩

/-! ## Expressions -/

theorem Scope.resolve_replace {scope : Scope} {column : Ident} {isAlias : Bool} {e : Expr}
    (h : scope.resolve column isAlias = .replace e) : ∃ owners, e = mergedColumn owners column := by
  unfold Scope.resolve at h
  dsimp only at h
  split at h
  · cases h
    exact ⟨_, rfl⟩
  · split at h
    · cases h
    · rename_i only _ _
      cases h
      exact ⟨[only.label], rfl⟩
    · rename_i only _ _
      split at h <;> cases h
      exact ⟨[only.label], rfl⟩
    · cases h
    · cases h

theorem resolveIn_some {column : Ident} {isAlias : Bool} {e : Expr} :
    (scopes : List Scope) → resolveIn column isAlias scopes = .ok (some e) →
      ∃ owners, e = mergedColumn owners column
  | [], h => by
      unfold resolveIn at h
      split at h <;> cases h
  | scope :: rest, h => by
      unfold resolveIn at h
      split at h
      · exact resolveIn_some rest h
      · cases h
      · rename_i e' he
        cases h
        exact Scope.resolve_replace he
      · cases h

variable {outputs : List String}

/-- A column without a qualifier gets owners, or stays as it is written. -/
theorem Visible.qualifyColumn_eq_ok {column : Ident} {e : Expr}
    (h : v.qualifyColumn outputs column = .ok e) :
    e = .column column ∨ ∃ owners, e = mergedColumn owners column := by
  unfold Visible.qualifyColumn at h
  split at h
  · rename_i e' he
    cases h
    exact Or.inr (resolveIn_some _ he)
  · cases h
    exact Or.inl rfl
  · cases h

theorem Visible.qualifyPath_eq (parts : List Ident) :
    ∃ segments, v.qualifyPath parts = .path segments := by
  unfold Visible.qualifyPath
  split
  · split <;> exact ⟨_, rfl⟩
  · exact ⟨_, rfl⟩

def Atom.query? : Atom → Option Query
  | .query q => some q
  | _ => none

def Atom.queries (atoms : List Atom) : List Query :=
  atoms.filterMap Atom.query?

theorem Atom.queries_append (as bs : List Atom) :
    Atom.queries (as ++ bs) = Atom.queries as ++ Atom.queries bs :=
  List.filterMap_append

theorem Atom.mem_queries {atoms : List Atom} {q : Query} :
    q ∈ Atom.queries atoms ↔ .query q ∈ atoms := by
  unfold Atom.queries
  rw [List.mem_filterMap]
  constructor
  · rintro ⟨a, ha, he⟩
    cases a with
    | query q' => rwa [← Option.some.inj he]
    | _ => cases he
  · exact fun h => ⟨_, h, rfl⟩

theorem Atom.queries_eq_nil {atoms : List Atom} (h : ∀ a ∈ atoms, ∃ segments, a = .path segments) :
    Atom.queries atoms = [] := by
  refine List.filterMap_eq_nil_iff.mpr fun a ha => ?_
  obtain ⟨segments, rfl⟩ := h a ha
  rfl

/-- With some things in view, a query becomes another one. -/
def Query.Qualifies (x : Qualifier) (v : Visible) (q₀ q : Query) : Prop :=
  ∃ columns, q₀.qualify x v = .ok (q, columns)

/-- An atom that is rewritten gives a query exactly if it is one. -/
theorem Atom.queries_rewrite {a : Atom} (h : a.Settled x v outputs) :
    List.Forall₂ (Query.Qualifies x v) (Atom.queries [a])
      (Atom.queries (a.rewrite (x.rewriting v outputs))) := by
  cases a with
  | column name =>
    obtain ⟨e, he⟩ := h
    rw [Atom.rewrite, Qualifier.rewriting_column he]
    rcases Visible.qualifyColumn_eq_ok he with rfl | ⟨owners, rfl⟩
    · exact .nil
    · have hnone : Atom.queries (mergedColumn owners name).atoms = [] := by
        refine Atom.queries_eq_nil fun a ha => ?_
        rw [mergedColumn_atoms] at ha
        obtain ⟨o, -, rfl⟩ := List.mem_map.mp ha
        exact ⟨_, rfl⟩
      rw [hnone]
      exact .nil
  | path segments =>
    obtain ⟨segments', he⟩ := v.qualifyPath_eq segments
    have hpath : (x.rewriting v outputs).path segments = .path segments' := he
    rw [Atom.rewrite, hpath]
    exact .nil
  | query q₀ =>
    obtain ⟨⟨q, columns⟩, hq⟩ := h
    rw [Atom.rewrite, Qualifier.rewriting_query hq]
    exact .cons ⟨columns, hq⟩ .nil

/-- The queries among atoms that are rewritten correspond to the queries among the atoms. -/
theorem Settled.queries {outputs : List String} : (atoms : List Atom) →
    Settled x v outputs atoms → List.Forall₂ (Query.Qualifies x v) (Atom.queries atoms)
      (Atom.queries (atoms.flatMap (Atom.rewrite (x.rewriting v outputs))))
  | [], _ => .nil
  | a :: atoms, h => by
      obtain ⟨ha, hrest⟩ := List.forall_mem_cons.mp h
      rw [List.flatMap_cons, Atom.queries_append, ← List.singleton_append, Atom.queries_append]
      exact List.rel_append (Atom.queries_rewrite ha) (Settled.queries atoms hrest)

/-- The queries in the items of a qualified select come from queries in its items. -/
theorem Select.Qualified.query_of_item {s₀ s : Select} {scope : Scope} {registered : List TableTree}
    (h : Select.Qualified x v s₀ s scope registered outputs) {item : SelectItem}
    (hi : item ∈ s.items) {q : Query} (hq : .query q ∈ item.atoms) :
    ∃ e₀ label q₀ columns, .expr e₀ label ∈ s₀.items ∧ .query q₀ ∈ e₀.atoms ∧
      q₀.qualify x (v.withScope scope) = .ok (q, columns) := by
  obtain ⟨hs, pieces, he, hb⟩ := SelectItem.qualifyList_eq_ok s₀.items h.items
  rw [he] at hi
  obtain ⟨piece, hp, hi⟩ := List.mem_flatten.mp hi
  obtain ⟨i, hget⟩ := List.mem_iff_getElem?.mp hp
  obtain ⟨item₀, h₀, hbecomes⟩ := forall₂_exists_left hb hget
  have hmem := List.mem_of_getElem? h₀
  cases item₀ with
  | expr e₀ label =>
    obtain ⟨name, rfl⟩ := hbecomes
    obtain rfl := List.mem_singleton.mp hi
    rw [SelectItem.atoms, e₀.atoms_rewrite] at hq
    have hs₀ : Settled x (v.withScope scope) [] e₀.atoms := fun a ha =>
      hs a (List.mem_flatMap.mpr ⟨_, hmem, ha⟩)
    obtain ⟨k, hk⟩ := List.mem_iff_getElem?.mp (Atom.mem_queries.mpr hq)
    obtain ⟨q₀, hq₀, columns, hq⟩ := forall₂_exists_left (Settled.queries _ hs₀) hk
    exact ⟨e₀, label, q₀, columns, hmem, Atom.mem_queries.mp (List.mem_of_getElem? hq₀), hq⟩
  | star =>
    obtain ⟨segments, hs⟩ := hbecomes item hi _ hq
    cases hs
  | starOf name =>
    obtain ⟨segments, hs⟩ := hbecomes item hi _ hq
    cases hs

end ColumnLineage
