import ColumnLineage.Proofs.FromClause
import ColumnLineage.Proofs.Lexical

/-!
# What nested queries see

Queries stand in the common tables of a query, in the `FROM` clauses and the other clauses of its
selects, in its parentheses and in its order. `Query.nested` says what each of them sees: what is
visible around the query, the common tables before it, and the scope of the select in whose clause
it stands. A query in a `FROM` clause sees no scope of its own select, or, if it is lateral, the
scope that the tables before it make.
-/

namespace ColumnLineage

/-! ## Queries inside a query -/

/-- The atoms in what is said about equal rows. -/
def Distinct.atoms : Distinct → List Atom
  | .on keys => Expr.atomsList keys
  | _ => []

def GroupBy.atoms : GroupBy → List Atom
  | .keys es => Expr.atomsList es
  | .all => []

/-- The atoms in the clauses of a select: its items, the conditions of its joins, what it says about
equal rows, its condition on rows, its grouping and its condition on groups. -/
def Select.clauses (s : Select) : List (List Atom) :=
  [s.items.flatMap SelectItem.atoms, s.sources.flatMap TableTree.conditionAtoms, s.distinct.atoms,
    Expr.atomsOption s.filter, s.groupBy.atoms, Expr.atomsOption s.having]

/-- The query that a table of a `FROM` clause is. -/
def TableFactor.query? : TableFactor → Option Query
  | .derived _ q _ => some q
  | _ => none

/-- The queries in the clauses of a select, and those among its tables. -/
def Select.queries (s : Select) : List Query :=
  s.clauses.flatMap Atom.queries ++ s.factors.filterMap TableFactor.query?

def Body.queries : Body → List Query
  | .select s => s.queries
  | .parens q => [q]
  | .setOperation _ _ left right => left.queries ++ right.queries
  | _ => []
termination_by structural b => b

/-- The queries of common tables, in the body of a query and in its order. -/
def Query.queries (q : Query) : List Query :=
  q.ctes.map Cte.query ++ (q.body.queries ++ Atom.queries (OrderItem.atomsList q.orderBy))

/-- A query stands inside another one at any depth. -/
inductive Query.Encloses (q : Query) : Query → Prop
  | self : Encloses q q
  /-- What stands in an enclosed query is enclosed. -/
  | step {r t : Query} (h : Encloses q r) (ht : t ∈ r.queries) : Encloses q t

/-! ## What they see -/

/-- The scope that the tables of a select make. -/
def Select.scope (x : Qualifier) (v : Visible) (s : Select) : Scope :=
  Scope.after {} (TableTree.registerList x v {} s.sources)

/-- What a query in a `FROM` clause sees, if tables before it have made a scope. -/
def TableFactor.nested? (v : Visible) (start : Scope) : TableFactor → Option (Visible × Query)
  | .derived lateral q _ => some (if lateral then v.withScope start else v, q)
  | _ => none

/-- The queries in a select with what they see. -/
def Select.nested (x : Qualifier) (v : Visible) (s : Select) : List (Visible × Query) :=
  (s.clauses.flatMap Atom.queries).map (Prod.mk (v.withScope (s.scope x v))) ++
    (List.zipWith (TableFactor.nested? v) (TableTree.startsList x v {} s.sources)
      s.factors).reduceOption

/-- The queries in a body with what they see. -/
def Body.nested (x : Qualifier) (v : Visible) : Body → List (Visible × Query)
  | .select s => s.nested x v
  | .parens q => [(v, q)]
  | .setOperation _ _ left right => left.nested x v ++ right.nested x v
  | _ => []
termination_by structural b => b

/-- The scope that the order behind a body sees. -/
def Body.scope? (x : Qualifier) (v : Visible) : Body → Option Scope
  | .select s => some (s.scope x v)
  | _ => none

/-- What is visible behind a common table. -/
def Cte.behind (x : Qualifier) (isRecursive : Bool) (v : Visible) (c : Cte) : Visible :=
  match c.qualify x isRecursive v with
  | .ok (c', columns) => v.withCte c'.name.value columns
  | .error _ => v

/-- The queries of common tables with what they see. -/
def Cte.nestedList (x : Qualifier) (isRecursive : Bool) (v : Visible) :
    List Cte → List (Visible × Query)
  | [] => []
  | c :: cs =>
    (c.seen isRecursive v, c.query) :: Cte.nestedList x isRecursive (c.behind x isRecursive v) cs

def Query.inner (x : Qualifier) (v : Visible) (q : Query) : Visible :=
  q.ctes.foldl (fun w c => c.behind x q.isRecursive w) v

/-- The queries inside a query with what they see. -/
def Query.nested (x : Qualifier) (v : Visible) (q : Query) : List (Visible × Query) :=
  Cte.nestedList x q.isRecursive v q.ctes ++
    (q.body.nested x (q.inner x v) ++
      (Atom.queries (OrderItem.atomsList q.orderBy)).map
        (Prod.mk ((q.inner x v).behind (q.body.scope? x (q.inner x v)))))

/-! ## One step down -/

variable {q₀ q : Query}

section steps

variable {x : Qualifier} {v : Visible}

/-- Each query, with what it sees, becomes the query at the same position. -/
def BecomeAll (x : Qualifier) (nested : List (Visible × Query)) (queries : List Query) : Prop :=
  List.Forall₂ (fun p q => p.2.Qualifies x p.1 q) nested queries

theorem BecomeAll.append {nested nested' : List (Visible × Query)} {queries queries' : List Query}
    (h : BecomeAll x nested queries) (h' : BecomeAll x nested' queries') :
    BecomeAll x (nested ++ nested') (queries ++ queries') :=
  List.rel_append h h'

theorem BecomeAll.of_qualifies {queries₀ queries : List Query}
    (h : List.Forall₂ (Query.Qualifies x v) queries₀ queries) :
    BecomeAll x (queries₀.map (Prod.mk v)) queries :=
  List.forall₂_map_left_iff.mpr h

theorem map_snd_seen (v : Visible) (queries : List Query) :
    (queries.map (Prod.mk v)).map Prod.snd = queries := by
  rw [List.map_map]
  exact List.map_id queries

theorem TableFactor.Registered.nested? {f₀ f : TableFactor} {scope scope' : Scope}
    (h : TableFactor.Registered x v scope f₀ f scope') :
    Option.Rel (fun p q => p.2.Qualifies x p.1 q) (f₀.nested? v scope) f.query? := by
  cases h with
  | table _ => exact .none
  | derived _ hq => exact .some ⟨_, hq⟩
  | other _ hd _ _ =>
    cases f₀ with
    | derived lateral q label => exact absurd rfl (hd lateral q label)
    | _ => exact .none

/-- The queries among tables are qualified with what they see. -/
theorem Registers.nested {scope scope' : Scope} {factors factors' : List TableFactor}
    {starts : List Scope} (h : Registers x v scope factors factors' starts scope') :
    BecomeAll x (List.zipWith (TableFactor.nested? v) starts factors).reduceOption
      (factors'.filterMap TableFactor.query?) := by
  induction h with
  | nil => exact .nil
  | @add scope scope₁ scope₂ factor factor' factors factors' starts hf _ ih =>
    have hfirst := hf.nested?
    rw [List.zipWith_cons_cons, List.filterMap_cons]
    generalize factor.nested? v scope = p at hfirst
    generalize factor'.query? = q at hfirst
    cases hfirst with
    | none => exact ih
    | some hpq => exact .cons hpq ih
  | merge _ ih => exact ih

theorem Registers.nested_queries {scope scope' : Scope} {factors factors' : List TableFactor}
    {starts : List Scope} (h : Registers x v scope factors factors' starts scope') :
    (List.zipWith (TableFactor.nested? v) starts factors).reduceOption.map Prod.snd =
      factors.filterMap TableFactor.query? := by
  induction h with
  | nil => rfl
  | @add scope scope₁ scope₂ factor factor' factors factors' starts _ _ ih =>
    rw [List.zipWith_cons_cons, List.filterMap_cons]
    cases factor with
    | derived lateral query label => exact congrArg (query :: ·) ih
    | _ => exact ih
  | merge _ ih => exact ih

section clauses

variable {s₀ s : Select} {scope : Scope} {registered : List TableTree} {outputs : List String}

theorem Select.Qualified.scope_eq (h : Select.Qualified x v s₀ s scope registered outputs) :
    s₀.scope x v = scope := by
  rw [Select.scope, h.tables]
  rfl

theorem Expr.queries_of_qualifyOption {e₀ e : Option Expr}
    (h : Expr.qualifyOption x v outputs e₀ = .ok e) :
    List.Forall₂ (Query.Qualifies x v) (Atom.queries (Expr.atomsOption e₀))
      (Atom.queries (Expr.atomsOption e)) := by
  obtain ⟨hs, rfl⟩ := (Expr.qualifyOption_eq_ok e₀).mp h
  rw [Expr.atomsOption_rewrite]
  exact Settled.queries _ hs

theorem Expr.queries_of_qualifyList {es₀ es : List Expr}
    (h : Expr.qualifyList x v outputs es₀ = .ok es) :
    List.Forall₂ (Query.Qualifies x v) (Atom.queries (Expr.atomsList es₀))
      (Atom.queries (Expr.atomsList es)) := by
  obtain ⟨hs, rfl⟩ := (Expr.qualifyList_eq_ok es₀).mp h
  rw [Expr.atomsList_rewrite]
  exact Settled.queries _ hs

theorem OrderItem.queries_of_qualifyList {os₀ os : List OrderItem}
    (h : OrderItem.qualifyList x v outputs os₀ = .ok os) :
    List.Forall₂ (Query.Qualifies x v) (Atom.queries (OrderItem.atomsList os₀))
      (Atom.queries (OrderItem.atomsList os)) := by
  obtain ⟨hs, rfl⟩ := (OrderItem.qualifyList_eq_ok os₀).mp h
  rw [OrderItem.atomsList_rewrite]
  exact Settled.queries _ hs

theorem Distinct.queries_of_qualify {d₀ d : Distinct} (h : d₀.qualify x v = .ok d) :
    List.Forall₂ (Query.Qualifies x v) (Atom.queries d₀.atoms) (Atom.queries d.atoms) := by
  cases d₀ with
  | on keys =>
    rw [Distinct.qualify] at h
    obtain ⟨keys', hk, h⟩ := bind_eq_ok.mp h
    obtain rfl := pure_eq_ok.mp h
    exact Expr.queries_of_qualifyList hk
  | _ =>
    cases h
    exact .nil

theorem GroupBy.queries_of_qualify {g₀ g : GroupBy} (h : g₀.qualify x v outputs = .ok g) :
    List.Forall₂ (Query.Qualifies x v) (Atom.queries g₀.atoms) (Atom.queries g.atoms) := by
  cases g₀ with
  | keys es =>
    rw [GroupBy.qualify] at h
    obtain ⟨es', hk, h⟩ := bind_eq_ok.mp h
    obtain rfl := pure_eq_ok.mp h
    exact Expr.queries_of_qualifyList hk
  | all =>
    cases h
    exact .nil

/-- What an item becomes has the queries that the item becomes. -/
theorem SelectItem.queries_of_becomes {i : SelectItem} {items : List SelectItem}
    (hs : Settled x v [] i.atoms) (h : i.Becomes (x.rewriting v []) items) :
    List.Forall₂ (Query.Qualifies x v) (Atom.queries i.atoms)
      (Atom.queries (items.flatMap SelectItem.atoms)) := by
  have hstar : (∀ i ∈ items, i.IsExpanded) →
      Atom.queries (items.flatMap SelectItem.atoms) = [] := by
    intro hall
    refine Atom.queries_eq_nil fun a ha => ?_
    obtain ⟨i, hi, ha⟩ := List.mem_flatMap.mp ha
    exact hall i hi a ha
  cases i with
  | expr e label =>
    obtain ⟨name, rfl⟩ := h
    rw [List.flatMap_singleton, SelectItem.atoms, SelectItem.atoms, e.atoms_rewrite]
    exact Settled.queries _ hs
  | star =>
    rw [hstar h]
    exact .nil
  | starOf name =>
    rw [hstar h]
    exact .nil

theorem SelectItem.queries_of_qualifyList {items₀ items : List SelectItem}
    (h : SelectItem.qualifyList x v scope 0 items₀ = .ok items) :
    List.Forall₂ (Query.Qualifies x v) (Atom.queries (items₀.flatMap SelectItem.atoms))
      (Atom.queries (items.flatMap SelectItem.atoms)) := by
  obtain ⟨hs, pieces, rfl, hb⟩ := SelectItem.qualifyList_eq_ok items₀ h
  clear h
  induction hb with
  | nil => exact .nil
  | @cons i piece items₀ pieces hi _ ih =>
    rw [List.flatMap_cons, settled_append] at hs
    rw [List.flatMap_cons, List.flatten_cons, List.flatMap_append, Atom.queries_append,
      Atom.queries_append]
    exact List.rel_append (SelectItem.queries_of_becomes hs.1 hi) (ih hs.2)

theorem Select.Qualified.nested (h : Select.Qualified x v s₀ s scope registered outputs) :
    BecomeAll x (s₀.nested x v) s.queries := by
  -- Clauses differ in the output columns that they may name, but queries do not see those.
  have hconditions := Settled.queries _ h.conditioned.settled
  rw [← h.conditioned.atoms_eq] at hconditions
  refine BecomeAll.append (.of_qualifies ?_) h.registers.nested
  rw [h.scope_eq]
  simp only [Select.clauses, List.flatMap_cons, List.flatMap_nil]
  exact List.rel_append (SelectItem.queries_of_qualifyList h.items)
    (List.rel_append hconditions
      (List.rel_append (Distinct.queries_of_qualify h.distinct)
        (List.rel_append (Expr.queries_of_qualifyOption h.filter)
          (List.rel_append (GroupBy.queries_of_qualify h.groupBy)
            (List.rel_append (Expr.queries_of_qualifyOption h.having) .nil)))))

end clauses

/-- What becomes of a body. -/
inductive Body.Qualified (x : Qualifier) (v : Visible) : Body → Body → Prop
  | select {s₀ s : Select} {columns : Columns}
    (h : s₀.qualify x v = .ok (s, columns, s₀.scope x v)) : Qualified x v (.select s₀) (.select s)
  | parens {q₀ q : Query} (h : q₀.Qualifies x v q) : Qualified x v (.parens q₀) (.parens q)
  /-- So are both sides of a set operation. -/
  | setOperation {op : SetOperator} {quantifier : SetQuantifier} {l₀ r₀ l r : Body}
    (hl : Qualified x v l₀ l) (hr : Qualified x v r₀ r) :
    Qualified x v (.setOperation op quantifier l₀ r₀) (.setOperation op quantifier l r)
  /-- All else stays as it is, and nothing in it is looked at. -/
  | other {b : Body} (hs : b.selects = []) (hq : b.queries = []) (hn : b.nested x v = []) :
    Qualified x v b b

theorem Body.qualified_of_qualify : (b₀ : Body) → {b : Body} → {result : Columns × Option Scope} →
    b₀.qualify x v = .ok (b, result) → Body.Qualified x v b₀ b
  | .select s₀, _, _, h => by
      obtain ⟨s, own, rfl, hs, -⟩ := Body.qualify_select h
      obtain ⟨registered, outputs, hsel⟩ := Select.qualify_eq_ok hs
      exact .select (hsel.scope_eq ▸ hs)
  | .parens q₀, _, _, h => by
      obtain ⟨q, rfl, hq⟩ := Body.qualify_parens h
      exact .parens ⟨_, hq⟩
  | .setOperation _ _ l₀ r₀, _, _, h => by
      obtain ⟨l, r, left, right, rfl, hl, hr⟩ := Body.qualify_setOperation h
      exact .setOperation (l₀.qualified_of_qualify hl) (r₀.qualified_of_qualify hr)
  | .values _ _, _, _, h => by
      cases h
      exact .other rfl rfl rfl
  | .defaultValues, _, _, h => by
      cases h
      exact .other rfl rfl rfl
  | .table _, _, _, h => by
      cases h
      exact .other rfl rfl rfl
  | .insert _, _, _, h => by
      cases h
      exact .other rfl rfl rfl
  | .update _, _, _, h => by
      cases h
      exact .other rfl rfl rfl

namespace Body.Qualified

variable {b₀ b : Body}

theorem nested (h : Body.Qualified x v b₀ b) : BecomeAll x (b₀.nested x v) b.queries := by
  induction h with
  | select hs =>
    obtain ⟨registered, outputs, hsel⟩ := Select.qualify_eq_ok hs
    exact hsel.nested
  | parens hq => exact .cons hq .nil
  | setOperation _ _ ihl ihr => exact ihl.append ihr
  | other _ hq hn =>
    rw [hq, hn]
    exact .nil

theorem nested_queries (h : Body.Qualified x v b₀ b) :
    (b₀.nested x v).map Prod.snd = b₀.queries := by
  induction h with
  | @select s₀ s columns hs =>
    obtain ⟨registered, outputs, hsel⟩ := Select.qualify_eq_ok hs
    rw [Body.nested, Body.queries, Select.nested, Select.queries, List.map_append,
      hsel.registers.nested_queries, map_snd_seen]
  | parens _ => rfl
  | setOperation _ _ ihl ihr => rw [Body.nested, Body.queries, List.map_append, ihl, ihr]
  | other _ hq hn => rw [hq, hn, List.map_nil]

/-- The selects of a body are qualified, with the same in view. -/
theorem selects (h : Body.Qualified x v b₀ b) :
    List.Forall₂ (fun s₀ s => ∃ columns, s₀.qualify x v = .ok (s, columns, s₀.scope x v))
      b₀.selects b.selects := by
  induction h with
  | select hs => exact .cons ⟨_, hs⟩ .nil
  | parens _ => exact .nil
  | setOperation _ _ ihl ihr => exact List.rel_append ihl ihr
  | other hs _ _ =>
    rw [hs]
    exact .nil

end Body.Qualified

theorem Body.scope?_of_qualify {b₀ b : Body} {columns : Columns} {scope : Option Scope}
    (h : b₀.qualify x v = .ok (b, columns, scope)) : b₀.scope? x v = scope := by
  cases b₀ with
  | select s₀ =>
    obtain ⟨s, own, rfl, hs, rfl⟩ := Body.qualify_select h
    obtain ⟨registered, outputs, hsel⟩ := Select.qualify_eq_ok hs
    exact congrArg some hsel.scope_eq
  | parens q₀ =>
    rw [Body.qualify] at h
    obtain ⟨⟨q, columns'⟩, -, h⟩ := bind_eq_ok.mp h
    cases h
    rfl
  | setOperation op quantifier l₀ r₀ =>
    rw [Body.qualify] at h
    obtain ⟨⟨l, columns', scope'⟩, -, h⟩ := bind_eq_ok.mp h
    obtain ⟨⟨r, right⟩, -, h⟩ := bind_eq_ok.mp h
    cases h
    rfl
  | _ =>
    cases h
    rfl

/-- Common tables are qualified with what they see, and the rest comes behind them. -/
theorem Cte.qualifyList_nested {isRecursive : Bool} : (cs₀ : List Cte) → {v : Visible} →
    {cs : List Cte} → {w : Visible} → Cte.qualifyList x isRecursive v cs₀ = .ok (cs, w) →
      BecomeAll x (Cte.nestedList x isRecursive v cs₀) (cs.map Cte.query) ∧
        cs₀.foldl (fun w c => c.behind x isRecursive w) v = w
  | [], _, _, _, h => by
      cases h
      exact ⟨.nil, rfl⟩
  | c₀ :: cs₀, v, _, _, h => by
      obtain ⟨c, cs, columns, rfl, hc, hs⟩ := Cte.qualifyList_cons h
      obtain ⟨inner, hq, -⟩ := Cte.qualify_eq_ok hc
      have hbehind : c₀.behind x isRecursive v = v.withCte c.name.value columns := by
        rw [Cte.behind, hc]
      obtain ⟨hrest, hw⟩ := Cte.qualifyList_nested cs₀ hs
      rw [Cte.nestedList, List.foldl_cons, hbehind]
      exact ⟨.cons ⟨inner, hq⟩ hrest, hw⟩

theorem Cte.nestedList_queries (isRecursive : Bool) : (cs : List Cte) → (v : Visible) →
    (Cte.nestedList x isRecursive v cs).map Prod.snd = cs.map Cte.query
  | [], _ => rfl
  | c :: cs, _ => congrArg (c.query :: ·) (Cte.nestedList_queries isRecursive cs _)

/-- A query is qualified by qualifying those inside it, each with what it sees. -/
theorem Query.qualify_nested (h : q₀.Qualifies x v q) : BecomeAll x (q₀.nested x v) q.queries := by
  obtain ⟨columns, h⟩ := h
  obtain ⟨inner, scope, hc, hb, ho, -⟩ := Query.qualify_eq_ok h
  obtain ⟨hctes, hinner⟩ := Cte.qualifyList_nested q₀.ctes hc
  have hsame : q₀.inner x v = inner := hinner
  rw [Query.nested, hsame, Body.scope?_of_qualify hb]
  exact hctes.append ((q₀.body.qualified_of_qualify hb).nested.append
    (.of_qualifies (OrderItem.queries_of_qualifyList ho)))

theorem Query.nested_queries (h : q₀.Qualifies x v q) :
    (q₀.nested x v).map Prod.snd = q₀.queries := by
  obtain ⟨columns, h⟩ := h
  obtain ⟨inner, scope, hc, hb, -, -⟩ := Query.qualify_eq_ok h
  have hsame : q₀.inner x v = inner := (Cte.qualifyList_nested q₀.ctes hc).2
  rw [Query.nested, Query.queries, hsame, List.map_append, List.map_append,
    Cte.nestedList_queries, (q₀.body.qualified_of_qualify hb).nested_queries, map_snd_seen]

/-- The selects of a query are qualified behind its common tables. -/
theorem Query.qualify_selects (h : q₀.Qualifies x v q) :
    List.Forall₂ (fun s₀ s => ∃ columns,
        s₀.qualify x (q₀.inner x v) = .ok (s, columns, s₀.scope x (q₀.inner x v)))
      q₀.body.selects q.body.selects := by
  obtain ⟨columns, h⟩ := h
  obtain ⟨inner, scope, hc, hb, -, -⟩ := Query.qualify_eq_ok h
  have hsame : q₀.inner x v = inner := (Cte.qualifyList_nested q₀.ctes hc).2
  rw [hsame]
  exact (q₀.body.qualified_of_qualify hb).selects

end steps

/-! ## All steps -/

/-- Inside `root`, a query sees some things; inside `result`, which `root` becomes, another query
stands at its place. -/
inductive Qualifier.Run (x : Qualifier) (root result : Query) : Visible → Query → Query → Prop
  | root : Run x root result {} root result
  /-- What stands in a query stands at the same position in what the query becomes. -/
  | nested {v w : Visible} {q₀ q r₀ r : Query} {i : Nat} (h : Run x root result v q₀ q)
    (h₀ : (q₀.nested x v)[i]? = some (w, r₀)) (hr : q.queries[i]? = some r) :
    Run x root result w r₀ r

section runs

variable {x : Qualifier} {root result : Query}

theorem Qualifier.Run.qualifies (hroot : root.Qualifies x {} result) {v : Visible}
    (h : x.Run root result v q₀ q) : q₀.Qualifies x v q := by
  induction h with
  | root => exact hroot
  | nested _ h₀ hr ih =>
    -- Positions pair what was written with what it became, so the two ends determine each other.
    obtain ⟨⟨w, r₀⟩, h₀', hqualifies⟩ := forall₂_exists_left (Query.qualify_nested ih) hr
    obtain ⟨rfl, rfl⟩ := Prod.mk.inj (Option.some.inj (h₀.symm.trans h₀'))
    exact hqualifies

theorem Qualifier.Run.encloses (hroot : root.Qualifies x {} result) {v : Visible}
    (h : x.Run root result v q₀ q) : root.Encloses q₀ := by
  induction h with
  | root => exact .self
  | nested hrun h₀ _ ih =>
    refine .step ih ?_
    rw [← Query.nested_queries (hrun.qualifies hroot)]
    exact List.mem_map.mpr ⟨_, List.mem_of_getElem? h₀, rfl⟩

/-- Each query inside the whole one becomes a query inside the result. -/
theorem Qualifier.run_of_encloses (hroot : root.Qualifies x {} result) {r₀ : Query}
    (h : root.Encloses r₀) : ∃ v r, x.Run root result v r₀ r := by
  induction h with
  | self => exact ⟨_, _, .root⟩
  | step _ ht ih =>
    obtain ⟨v, q, hrun⟩ := ih
    have hqualifies := hrun.qualifies hroot
    rw [← Query.nested_queries hqualifies] at ht
    obtain ⟨⟨w, r₀⟩, hmem, rfl⟩ := List.mem_map.mp ht
    obtain ⟨i, hi⟩ := List.mem_iff_getElem?.mp hmem
    obtain ⟨r, hr, -⟩ := forall₂_exists_right (Query.qualify_nested hqualifies) hi
    exact ⟨w, r, .nested hrun hi hr⟩

/-- Each query inside the result comes from a query inside the whole one. -/
theorem Qualifier.run_of_result (hroot : root.Qualifies x {} result) {r : Query}
    (h : result.Encloses r) : ∃ v r₀, x.Run root result v r₀ r := by
  induction h with
  | self => exact ⟨_, _, .root⟩
  | step _ ht ih =>
    obtain ⟨v, q₀, hrun⟩ := ih
    obtain ⟨i, hi⟩ := List.mem_iff_getElem?.mp ht
    obtain ⟨⟨w, r₀⟩, h₀, -⟩ :=
      forall₂_exists_left (Query.qualify_nested (hrun.qualifies hroot)) hi
    exact ⟨w, r₀, .nested hrun h₀ hi⟩

end runs

end ColumnLineage
