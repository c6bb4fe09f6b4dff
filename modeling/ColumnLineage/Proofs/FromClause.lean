import ColumnLineage.Proofs.QualifierSteps

/-!
# The tables of a `FROM` clause

The tables of a `FROM` clause are put into a scope one after another, however they are joined and
put into parentheses, and in between joins merge columns. Then the conditions of the joins are
qualified, which leaves the tables alone.
-/

namespace ColumnLineage

variable {x : Qualifier} {v : Visible}

/-! ## One table -/

/-- The name by which columns of a table are qualified, if it is a source. -/
def TableFactor.label? : TableFactor → Option Ident
  | .table name _ label _ =>
    some ((label.map TableAlias.name).getD (name.parts.getLast?.getD ⟨"", none⟩))
  | .tableFunction _ _ _ label _ => label.map TableAlias.name
  | .lateralFunction _ _ label => label.map TableAlias.name
  | .tableOf _ label => label.map TableAlias.name
  | .unnest _ _ label _ => label.map TableAlias.name
  | .derived _ _ label => label.map TableAlias.name
  | .nested _ _ => none
  | .document _ _ _ _ => none
  | .pivot _ _ _ _ _ _ => none
  | .unpivot _ _ _ _ _ => none

/-- A scope becomes another one by a source of this label, if there is a label. -/
def Scope.Adds (scope : Scope) (label : Option Ident) (scope' : Scope) : Prop :=
  match label with
  | none => scope' = scope
  | some l => ∃ columns, scope' = scope.register l columns

/-- What becomes of a table outside parentheses, and of the scope that it is put into. -/
inductive TableFactor.Registered (x : Qualifier) (v : Visible) (scope : Scope) :
    TableFactor → TableFactor → Scope → Prop
  /-- A table gets its full name, unless it is taken for a common table. -/
  | table {name : ObjectName} {numbered : Bool} {label : Option TableAlias} {hints : List Expr}
    {scope' : Scope} (hs : scope.Adds (TableFactor.table name numbered label hints).label? scope') :
    Registered x v scope (.table name numbered label hints)
      (.table (if (v.cteOf? name).isSome then name else name.complete x.defaults) numbered label
        hints) scope'
  /-- A query is qualified; if it is lateral, it sees the sources before it. -/
  | derived {lateral : Bool} {q₀ q : Query} {label : Option TableAlias} {columns : Columns}
    {scope' : Scope} (hs : scope.Adds (label.map TableAlias.name) scope')
    (h : q₀.qualify x (if lateral then v.withScope scope else v) = .ok (q, columns)) :
    Registered x v scope (.derived lateral q₀ label) (.derived lateral q label) scope'
  /-- Functions and the like stay as they are. -/
  | other {factor : TableFactor} {scope' : Scope} (ht : ∀ name numbered label hints,
      factor ≠ .table name numbered label hints)
    (hd : ∀ lateral q label, factor ≠ .derived lateral q label)
    (hn : ∀ tables label, factor ≠ .nested tables label) (hs : scope.Adds factor.label? scope') :
    Registered x v scope factor factor scope'

theorem Scope.registerTable_fst (scope : Scope) (name : ObjectName) (label : Option TableAlias) :
    (scope.registerTable x v name label).1 =
      if (v.cteOf? name).isSome then name else name.complete x.defaults := by
  unfold Scope.registerTable
  cases v.cteOf? name <;> rfl

theorem Scope.adds_registerTable (scope : Scope) (name : ObjectName) (label : Option TableAlias) :
    scope.Adds (some ((label.map TableAlias.name).getD (name.parts.getLast?.getD ⟨"", none⟩)))
      (scope.registerTable x v name label).2 := by
  unfold Scope.registerTable
  cases v.cteOf? name <;> exact ⟨_, rfl⟩

theorem Scope.adds_registerFunction (scope : Scope) (label : Option TableAlias) :
    scope.Adds (label.map TableAlias.name) (scope.registerFunction label) := by
  cases label with
  | none => rfl
  | some a => exact ⟨_, rfl⟩

theorem Scope.adds_registerDerived (scope : Scope) (label : Option TableAlias) (columns : Columns) :
    scope.Adds (label.map TableAlias.name) (scope.registerDerived label columns) := by
  cases label with
  | none => rfl
  | some a => exact ⟨_, rfl⟩

variable {f₀ f : TableFactor} {scope scope' : Scope}

theorem TableFactor.registered_of_register (hn : ∀ tables label, f₀ ≠ .nested tables label)
    (h : f₀.register x v scope = .ok (f, scope')) :
    TableFactor.Registered x v scope f₀ f scope' := by
  cases f₀ with
  | nested tables label => exact absurd rfl (hn tables label)
  | table name numbered label hints =>
    rw [TableFactor.register] at h
    have hname := scope.registerTable_fst (x := x) (v := v) name label
    have hadds := scope.adds_registerTable (x := x) (v := v) name label
    generalize scope.registerTable x v name label = named at h hname hadds
    obtain ⟨name', scope₁⟩ := named
    obtain ⟨rfl, rfl⟩ := Prod.mk.inj (ok_eq_ok.mp h)
    obtain rfl := hname
    exact .table hadds
  | derived lateral query label =>
    rw [TableFactor.register] at h
    obtain ⟨⟨q, columns⟩, hq, h⟩ := bind_eq_ok.mp h
    obtain ⟨rfl, rfl⟩ := Prod.mk.inj (pure_eq_ok.mp h)
    exact .derived (scope.adds_registerDerived label columns) hq
  | document opening e rest label =>
    obtain ⟨rfl, rfl⟩ := Prod.mk.inj (ok_eq_ok.mp h)
    exact .other (by simp) (by simp) (by simp) rfl
  | pivot table aggregates column values otherwise label =>
    obtain ⟨rfl, rfl⟩ := Prod.mk.inj (ok_eq_ok.mp h)
    exact .other (by simp) (by simp) (by simp) rfl
  | unpivot table value name columns label =>
    obtain ⟨rfl, rfl⟩ := Prod.mk.inj (ok_eq_ok.mp h)
    exact .other (by simp) (by simp) (by simp) rfl
  | _ =>
    -- All that is left are functions, which are sources if they have an alias.
    obtain ⟨rfl, rfl⟩ := Prod.mk.inj (ok_eq_ok.mp h)
    exact .other (by simp) (by simp) (by simp) (scope.adds_registerFunction _)

namespace TableFactor.Registered

variable {scope scope' : Scope} {f₀ f : TableFactor}

theorem adds (h : Registered x v scope f₀ f scope') : scope.Adds f₀.label? scope' := by
  cases h with
  | table hs => exact hs
  | derived hs _ => exact hs
  | other _ _ _ hs => exact hs

/-- A table without a label leaves the scope as it is, and one with a label is put under it. -/
theorem eq_or_register (h : Registered x v scope f₀ f scope') :
    f₀.label? = none ∧ scope' = scope ∨
      ∃ label columns, f₀.label? = some label ∧ scope' = scope.register label columns := by
  have hadds := h.adds
  cases hl : f₀.label? with
  | none =>
    rw [hl] at hadds
    exact .inl ⟨rfl, hadds⟩
  | some label =>
    rw [hl] at hadds
    obtain ⟨columns, hregister⟩ := hadds
    exact .inr ⟨label, columns, rfl, hregister⟩

theorem not_nested (h : Registered x v scope f₀ f scope') :
    ∀ tables label, f ≠ .nested tables label := by
  cases h with
  | table _ => simp
  | derived _ _ => simp
  | other _ _ hn _ => exact hn

end TableFactor.Registered

theorem TableFactor.factors_eq_singleton (hn : ∀ tables label, f ≠ .nested tables label) :
    f.factors = [f] := by
  cases f with
  | nested tables label => exact absurd rfl (hn tables label)
  | _ => rfl

/-! ## Merged columns leave the sources as they are -/

theorem Scope.merge_sources (scope : Scope) (left right : Stretch) (column : Ident) :
    (scope.merge left right column).sources = scope.sources := by
  unfold Scope.merge
  split <;> rfl

theorem Scope.mergeAll_sources (left right : Stretch) : (columns : List Ident) → (scope : Scope) →
    (columns.foldl (fun s c => s.merge left right c) scope).sources = scope.sources
  | [], _ => rfl
  | c :: columns, scope =>
    (mergeAll_sources left right columns _).trans (scope.merge_sources left right c)

theorem Scope.mergeJoin_sources (scope : Scope) (left right : Stretch) :
    (condition : JoinCondition) → (scope.mergeJoin left right condition).sources = scope.sources
  | .using columns => mergeAll_sources left right columns scope
  | .natural => mergeAll_sources left right _ scope
  | .absent => rfl
  | .on _ => rfl

/-! ## The two passes over a tree

A tree is registered first, and then the conditions of its joins are qualified. Both passes take
the same steps, so what each step keeps holds of whole `FROM` clauses.
-/

theorem TableFactor.qualifyJoins_single {w : Visible} {f' : TableFactor}
    (hn : ∀ tables label, f₀ ≠ .nested tables label) (h : f₀.qualifyJoins x w f = .ok f') :
    f' = f := by
  cases f₀ with
  | nested tables label => exact absurd rfl (hn tables label)
  | _ =>
    simp only [TableFactor.qualifyJoins] at h
    exact ok_eq_ok.mp h

/-- Properties that the first pass has step by step: `F` of a table, `J` of joins behind the tables
from a position on, `T` of a tree and `L` of a whole clause. -/
structure RegisterSteps (x : Qualifier) (v : Visible)
    (F : Scope → TableFactor → TableFactor → Scope → Prop)
    (J : Nat → Scope → List Join → List Join → Scope → Prop)
    (T : Scope → TableTree → TableTree → Scope → Prop)
    (L : Scope → List TableTree → List TableTree → Scope → Prop) : Prop where
  single : ∀ {scope scope' f₀ f}, (∀ tables label, f₀ ≠ .nested tables label) →
    f₀.register x v scope = .ok (f, scope') → F scope f₀ f scope'
  nested : ∀ {scope scope' t₀ t label}, T scope t₀ t scope' →
    F scope (.nested t₀ label) (.nested t label) scope'
  done : ∀ {start scope}, J start scope [] [] scope
  join : ∀ {start scope scope₁ scope₂ isGlobal kind f₀ f matching condition js₀ js},
    f₀.register x v scope = .ok (f, scope₁) →
    Join.registerList x v start (scope₁.mergeJoin ⟨start, scope.size⟩ ⟨scope.size, scope₁.size⟩
      condition) js₀ = .ok (js, scope₂) →
    F scope f₀ f scope₁ →
    J start (scope₁.mergeJoin ⟨start, scope.size⟩ ⟨scope.size, scope₁.size⟩ condition) js₀ js
      scope₂ →
    J start scope (.mk isGlobal kind f₀ matching condition :: js₀)
      (.mk isGlobal kind f matching condition :: js) scope₂
  tree : ∀ {scope scope₁ scope₂ f₀ f js₀ js}, f₀.register x v scope = .ok (f, scope₁) →
    Join.registerList x v scope.size scope₁ js₀ = .ok (js, scope₂) → F scope f₀ f scope₁ →
    J scope.size scope₁ js₀ js scope₂ → T scope (.mk f₀ js₀) (.mk f js) scope₂
  nil : ∀ {scope}, L scope [] [] scope
  cons : ∀ {scope scope₁ scope₂ t₀ t ts₀ ts}, t₀.register x v scope = .ok (t, scope₁) →
    TableTree.registerList x v scope₁ ts₀ = .ok (ts, scope₂) → T scope t₀ t scope₁ →
    L scope₁ ts₀ ts scope₂ → L scope (t₀ :: ts₀) (t :: ts) scope₂

namespace RegisterSteps

variable {F : Scope → TableFactor → TableFactor → Scope → Prop}
  {J : Nat → Scope → List Join → List Join → Scope → Prop}
  {T : Scope → TableTree → TableTree → Scope → Prop}
  {L : Scope → List TableTree → List TableTree → Scope → Prop}

mutual

theorem ofTree (H : RegisterSteps x v F J T L) : (t₀ : TableTree) → {t : TableTree} →
    {scope scope' : Scope} → t₀.register x v scope = .ok (t, scope') → T scope t₀ t scope'
  | .mk first joins, _, _, _, h => by
      rw [TableTree.register] at h
      obtain ⟨⟨first', scope₁⟩, hf, h⟩ := bind_eq_ok.mp h
      obtain ⟨⟨joins', scope₂⟩, hjs, h⟩ := bind_eq_ok.mp h
      obtain ⟨rfl, rfl⟩ := Prod.mk.inj (pure_eq_ok.mp h)
      exact H.tree hf hjs (ofFactor H first hf) (ofJoins H joins hjs)
termination_by structural t => t

theorem ofJoins (H : RegisterSteps x v F J T L) : (js₀ : List Join) → {js : List Join} →
    {start : Nat} → {scope scope' : Scope} →
    Join.registerList x v start scope js₀ = .ok (js, scope') → J start scope js₀ js scope'
  | [], _, _, _, _, h => by
      cases h
      exact H.done
  | j :: js₀, _, start, scope, _, h => by
      rw [Join.registerList] at h
      obtain ⟨⟨j', scope₁⟩, hj, h⟩ := bind_eq_ok.mp h
      obtain ⟨⟨js, scope₂⟩, hjs, h⟩ := bind_eq_ok.mp h
      obtain ⟨rfl, rfl⟩ := Prod.mk.inj (pure_eq_ok.mp h)
      exact ofJoin H j hj hjs (ofJoins H js₀ hjs)
termination_by structural t => t

theorem ofJoin (H : RegisterSteps x v F J T L) : (j₀ : Join) → {j : Join} → {start : Nat} →
    {scope scope₁ scope₂ : Scope} → {js₀ js : List Join} →
    j₀.register x v start scope = .ok (j, scope₁) →
    Join.registerList x v start scope₁ js₀ = .ok (js, scope₂) →
    J start scope₁ js₀ js scope₂ → J start scope (j₀ :: js₀) (j :: js) scope₂
  | .mk _ _ factor _ _, _, _, _, _, _, _, _, h, hjs, hrest => by
      rw [Join.register] at h
      obtain ⟨⟨factor', scope₁⟩, hf, h⟩ := bind_eq_ok.mp h
      obtain ⟨rfl, rfl⟩ := Prod.mk.inj (pure_eq_ok.mp h)
      exact H.join hf hjs (ofFactor H factor hf) hrest
termination_by structural t => t

theorem ofFactor (H : RegisterSteps x v F J T L) : (f₀ : TableFactor) → {f : TableFactor} →
    {scope scope' : Scope} → f₀.register x v scope = .ok (f, scope') → F scope f₀ f scope'
  | .nested tables _, _, _, _, h => by
      rw [TableFactor.register] at h
      obtain ⟨⟨tables', scope₁⟩, ht, h⟩ := bind_eq_ok.mp h
      obtain ⟨rfl, rfl⟩ := Prod.mk.inj (pure_eq_ok.mp h)
      exact H.nested (ofTree H tables ht)
  | .table _ _ _ _, _, _, _, h => H.single (by simp) h
  | .derived _ _ _, _, _, _, h => H.single (by simp) h
  | .tableFunction _ _ _ _ _, _, _, _, h => H.single (by simp) h
  | .lateralFunction _ _ _, _, _, _, h => H.single (by simp) h
  | .tableOf _ _, _, _, _, h => H.single (by simp) h
  | .unnest _ _ _ _, _, _, _, h => H.single (by simp) h
  | .document _ _ _ _, _, _, _, h => H.single (by simp) h
  | .pivot _ _ _ _ _ _, _, _, _, h => H.single (by simp) h
  | .unpivot _ _ _ _ _, _, _, _, h => H.single (by simp) h
termination_by structural t => t

end

theorem ofTrees (H : RegisterSteps x v F J T L) : (ts₀ : List TableTree) → {ts : List TableTree} →
    {scope scope' : Scope} → TableTree.registerList x v scope ts₀ = .ok (ts, scope') →
    L scope ts₀ ts scope'
  | [], _, _, _, h => by
      cases h
      exact H.nil
  | t₀ :: ts₀, _, _, _, h => by
      rw [TableTree.registerList] at h
      obtain ⟨⟨t, scope₁⟩, ht, h⟩ := bind_eq_ok.mp h
      obtain ⟨⟨ts, scope₂⟩, hts, h⟩ := bind_eq_ok.mp h
      obtain ⟨rfl, rfl⟩ := Prod.mk.inj (pure_eq_ok.mp h)
      exact H.cons ht hts (H.ofTree t₀ ht) (H.ofTrees ts₀ hts)

end RegisterSteps

/-- Properties that both passes have step by step: what is written, what is registered and what is
qualified stand side by side. -/
structure QualifySteps (x : Qualifier) (v w : Visible)
    (F : Scope → TableFactor → TableFactor → TableFactor → Scope → Prop)
    (J : Nat → Scope → List Join → List Join → List Join → Scope → Prop)
    (T : Scope → TableTree → TableTree → TableTree → Scope → Prop)
    (L : Scope → List TableTree → List TableTree → List TableTree → Scope → Prop) : Prop where
  /-- A table outside parentheses, which is qualified when it is registered. -/
  single : ∀ {scope scope' f₀ f}, (∀ tables label, f₀ ≠ .nested tables label) →
    f₀.register x v scope = .ok (f, scope') → F scope f₀ f f scope'
  nested : ∀ {scope scope' t₀ t t' label}, T scope t₀ t t' scope' →
    F scope (.nested t₀ label) (.nested t label) (.nested t' label) scope'
  done : ∀ {start scope}, J start scope [] [] [] scope
  /-- A join comes before others; its condition is qualified. -/
  join : ∀ {start scope scope₁ scope₂ isGlobal kind f₀ f f' matching condition condition' js₀ js
      js'},
    condition.qualify x w = .ok condition' → F scope f₀ f f' scope₁ →
    J start (scope₁.mergeJoin ⟨start, scope.size⟩ ⟨scope.size, scope₁.size⟩ condition) js₀ js js'
      scope₂ →
    J start scope (.mk isGlobal kind f₀ matching condition :: js₀)
      (.mk isGlobal kind f matching condition :: js)
      (.mk isGlobal kind f' matching condition' :: js') scope₂
  tree : ∀ {scope scope₁ scope₂ f₀ f f' js₀ js js'}, F scope f₀ f f' scope₁ →
    J scope.size scope₁ js₀ js js' scope₂ → T scope (.mk f₀ js₀) (.mk f js) (.mk f' js') scope₂
  nil : ∀ {scope}, L scope [] [] [] scope
  cons : ∀ {scope scope₁ scope₂ t₀ t t' ts₀ ts ts'}, T scope t₀ t t' scope₁ →
    L scope₁ ts₀ ts ts' scope₂ → L scope (t₀ :: ts₀) (t :: ts) (t' :: ts') scope₂

/-- What each step of both passes keeps holds of a whole clause. -/
theorem QualifySteps.ofTrees {w : Visible}
    {F : Scope → TableFactor → TableFactor → TableFactor → Scope → Prop}
    {J : Nat → Scope → List Join → List Join → List Join → Scope → Prop}
    {T : Scope → TableTree → TableTree → TableTree → Scope → Prop}
    {L : Scope → List TableTree → List TableTree → List TableTree → Scope → Prop}
    (H : QualifySteps x v w F J T L) {ts₀ ts ts' : List TableTree}
    (h : TableTree.registerList x v scope ts₀ = .ok (ts, scope'))
    (hj : TableTree.qualifyJoinsList x w ts₀ ts = .ok ts') : L scope ts₀ ts ts' scope' := by
  have steps : RegisterSteps x v
      (fun scope f₀ f scope' => ∀ f', f₀.qualifyJoins x w f = .ok f' → F scope f₀ f f' scope')
      (fun start scope js₀ js scope' => ∀ js', Join.qualifyJoinsList x w js₀ js = .ok js' →
        J start scope js₀ js js' scope')
      (fun scope t₀ t scope' => ∀ t', t₀.qualifyJoins x w t = .ok t' → T scope t₀ t t' scope')
      (fun scope ts₀ ts scope' => ∀ ts', TableTree.qualifyJoinsList x w ts₀ ts = .ok ts' →
        L scope ts₀ ts ts' scope') := {
    single := fun hn h f' hj => by
      obtain rfl := TableFactor.qualifyJoins_single hn hj
      exact H.single hn h
    nested := fun ih f' hj => by
      rw [TableFactor.qualifyJoins] at hj
      obtain ⟨t', ht, hj⟩ := bind_eq_ok.mp hj
      obtain rfl := pure_eq_ok.mp hj
      exact H.nested (ih t' ht)
    done := fun js' hj => by
      obtain rfl := ok_eq_ok.mp hj
      exact H.done
    join := fun _ _ ih ihs js' hj => by
      rw [Join.qualifyJoinsList] at hj
      obtain ⟨j', hf, hj⟩ := bind_eq_ok.mp hj
      obtain ⟨rest, hjs, hj⟩ := bind_eq_ok.mp hj
      rw [Join.qualifyJoins] at hf
      obtain ⟨f', hf', hf⟩ := bind_eq_ok.mp hf
      obtain ⟨condition', hc, hf⟩ := bind_eq_ok.mp hf
      obtain rfl := pure_eq_ok.mp hj
      obtain rfl := pure_eq_ok.mp hf
      exact H.join hc (ih f' hf') (ihs rest hjs)
    tree := fun _ _ ih ihs t' hj => by
      rw [TableTree.qualifyJoins] at hj
      obtain ⟨f', hf, hj⟩ := bind_eq_ok.mp hj
      obtain ⟨js', hjs, hj⟩ := bind_eq_ok.mp hj
      obtain rfl := pure_eq_ok.mp hj
      exact H.tree (ih f' hf) (ihs js' hjs)
    nil := fun ts' hj => by
      obtain rfl := ok_eq_ok.mp hj
      exact H.nil
    cons := fun _ _ ih ihs ts' hj => by
      rw [TableTree.qualifyJoinsList] at hj
      obtain ⟨t', ht, hj⟩ := bind_eq_ok.mp hj
      obtain ⟨rest, hts, hj⟩ := bind_eq_ok.mp hj
      obtain rfl := pure_eq_ok.mp hj
      exact H.cons (ih t' ht) (ihs rest hts) }
  exact steps.ofTrees ts₀ h ts' hj

/-! ## One table after another -/

/-- The scope that a step leaves; a failed one leaves it alone. -/
def Scope.after {α : Type} (scope : Scope) : Except QualifyError (α × Scope) → Scope
  | .ok (_, scope') => scope'
  | .error _ => scope

mutual

/-- The scopes that the tables of a tree are put into, table by table. -/
def TableTree.starts (x : Qualifier) (v : Visible) (scope : Scope) : TableTree → List Scope
  | .mk first joins =>
    first.starts x v scope ++
      Join.startsList x v scope.size (scope.after (first.register x v scope)) joins
termination_by structural t => t

/-- The scopes that the tables of joins are put into. -/
def Join.startsList (x : Qualifier) (v : Visible) (start : Nat) (scope : Scope) :
    List Join → List Scope
  | [] => []
  | j :: js =>
    j.starts x v scope ++ Join.startsList x v start (scope.after (j.register x v start scope)) js
termination_by structural js => js

/-- The scopes that the tables of a join are put into. -/
def Join.starts (x : Qualifier) (v : Visible) (scope : Scope) : Join → List Scope
  | .mk _ _ factor _ _ => factor.starts x v scope
termination_by structural j => j

/-- The scopes that a table, or those in a pair of parentheses, are put into. -/
def TableFactor.starts (x : Qualifier) (v : Visible) (scope : Scope) : TableFactor → List Scope
  | .nested tables _ => tables.starts x v scope
  | _ => [scope]
termination_by structural f => f

end

/-- The scopes that the tables of trees are put into. -/
def TableTree.startsList (x : Qualifier) (v : Visible) (scope : Scope) :
    List TableTree → List Scope
  | [] => []
  | t :: ts =>
    t.starts x v scope ++ TableTree.startsList x v (scope.after (t.register x v scope)) ts

/-- Tables are put into a scope one after another, and columns are merged in between. -/
inductive Registers (x : Qualifier) (v : Visible) :
    Scope → List TableFactor → List TableFactor → List Scope → Scope → Prop
  | nil {scope : Scope} : Registers x v scope [] [] [] scope
  | add {scope scope₁ scope₂ : Scope} {factor factor' : TableFactor}
    {factors factors' : List TableFactor} {starts : List Scope}
    (h : TableFactor.Registered x v scope factor factor' scope₁)
    (hrest : Registers x v scope₁ factors factors' starts scope₂) :
    Registers x v scope (factor :: factors) (factor' :: factors') (scope :: starts) scope₂
  | merge {scope scope₂ : Scope} {factors factors' : List TableFactor} {starts : List Scope}
    {left right : Stretch} {column : Ident}
    (hrest : Registers x v (scope.merge left right column) factors factors' starts scope₂) :
    Registers x v scope factors factors' starts scope₂

namespace Registers

theorem append {scope₁ scope₂ : Scope} {as as' bs bs' : List TableFactor}
    {starts starts' : List Scope} (h : Registers x v scope as as' starts scope₁)
    (h' : Registers x v scope₁ bs bs' starts' scope₂) :
    Registers x v scope (as ++ bs) (as' ++ bs') (starts ++ starts') scope₂ := by
  induction h with
  | nil => exact h'
  | add hf _ ih => exact .add hf (ih h')
  | merge _ ih => exact .merge (ih h')

theorem merges (left right : Stretch) : (columns : List Ident) → (scope : Scope) →
    Registers x v scope [] [] [] (columns.foldl (fun s c => s.merge left right c) scope)
  | [], _ => .nil
  | _ :: columns, _ => .merge (merges left right columns _)

theorem mergeJoin (scope : Scope) (left right : Stretch) : (condition : JoinCondition) →
    Registers x v scope [] [] [] (scope.mergeJoin left right condition)
  | .using columns => merges left right columns scope
  | .natural => merges left right _ scope
  | .absent => .nil
  | .on _ => .nil

end Registers

/-- The tables of a tree are put into a scope one after another. -/
theorem registerSteps : RegisterSteps x v
    (fun scope f₀ f scope' => Registers x v scope f₀.factors f.factors (f₀.starts x v scope) scope')
    (fun start scope js₀ js scope' => Registers x v scope (Join.factorsList js₀)
      (Join.factorsList js) (Join.startsList x v start scope js₀) scope')
    (fun scope t₀ t scope' => Registers x v scope t₀.factors t.factors (t₀.starts x v scope) scope')
    (fun scope ts₀ ts scope' => Registers x v scope (ts₀.flatMap TableTree.factors)
      (ts.flatMap TableTree.factors) (TableTree.startsList x v scope ts₀) scope') where
  single {scope scope' f₀ f} hn h := by
    have hf := TableFactor.registered_of_register hn h
    have hstarts : f₀.starts x v scope = [scope] := by
      cases f₀ with
      | nested tables label => exact absurd rfl (hn tables label)
      | _ => rfl
    rw [TableFactor.factors_eq_singleton hn, TableFactor.factors_eq_singleton hf.not_nested,
      hstarts]
    exact .add hf .nil
  nested ih := ih
  done := .nil
  join {start scope scope₁ scope₂ isGlobal kind f₀ f matching condition js₀ js} hf _ ih ihs := by
    have hmerged := (ih.append (.mergeJoin scope₁ ⟨start, scope.size⟩ ⟨scope.size, scope₁.size⟩
      condition)).append ihs
    rw [List.append_nil, List.append_nil, List.append_nil] at hmerged
    have hj : (Join.mk isGlobal kind f₀ matching condition).register x v start scope =
        .ok (.mk isGlobal kind f matching condition,
          scope₁.mergeJoin ⟨start, scope.size⟩ ⟨scope.size, scope₁.size⟩ condition) := by
      rw [Join.register, hf]
      rfl
    rw [Join.factorsList, Join.factorsList, Join.startsList, hj]
    exact hmerged
  tree hf _ ih ihs := by
    rw [TableTree.factors, TableTree.factors, TableTree.starts, hf]
    exact ih.append ihs
  nil := .nil
  cons ht _ ih ihs := by
    rw [List.flatMap_cons, List.flatMap_cons, TableTree.startsList, ht]
    exact ih.append ihs

theorem TableTree.registersList (ts₀ : List TableTree) {ts : List TableTree}
    (h : TableTree.registerList x v scope ts₀ = .ok (ts, scope')) :
    Registers x v scope (ts₀.flatMap TableTree.factors) (ts.flatMap TableTree.factors)
      (TableTree.startsList x v scope ts₀) scope' :=
  registerSteps.ofTrees ts₀ h

/-! ## The conditions of joins -/

/-- The atoms of the condition of a join. -/
def JoinCondition.atoms : JoinCondition → List Atom
  | .on e => e.atoms
  | _ => []

mutual

/-- The atoms of all conditions in a tree of joined tables. -/
def TableTree.conditionAtoms : TableTree → List Atom
  | .mk first joins => first.conditionAtoms ++ Join.conditionAtomsList joins
termination_by structural t => t

/-- The atoms of the conditions of joins. -/
def Join.conditionAtomsList : List Join → List Atom
  | [] => []
  | j :: js => j.conditionAtoms ++ Join.conditionAtomsList js
termination_by structural js => js

/-- The atoms of the condition of a join, and of those inside its table. -/
def Join.conditionAtoms : Join → List Atom
  | .mk _ _ factor _ condition => factor.conditionAtoms ++ condition.atoms
termination_by structural j => j

/-- The atoms of the conditions inside a table. -/
def TableFactor.conditionAtoms : TableFactor → List Atom
  | .nested tables _ => tables.conditionAtoms
  | _ => []
termination_by structural f => f

end

/-- Tables keep their places and the conditions of their joins are rewritten. -/
structure Conditioned (x : Qualifier) (w : Visible) (factors factors' : List TableFactor)
    (atoms₀ atoms : List Atom) : Prop where
  factors_eq : factors' = factors
  /-- All atoms of conditions can be qualified. -/
  settled : Settled x w [] atoms₀
  atoms_eq : atoms = atoms₀.flatMap (Atom.rewrite (x.rewriting w []))

section conditions

variable {w : Visible}

theorem Conditioned.append {as as' bs bs' : List TableFactor} {a₀ a b₀ b : List Atom}
    (h : Conditioned x w as as' a₀ a) (h' : Conditioned x w bs bs' b₀ b) :
    Conditioned x w (as ++ bs) (as' ++ bs') (a₀ ++ b₀) (a ++ b) where
  factors_eq := by rw [h.factors_eq, h'.factors_eq]
  settled := settled_append.mpr ⟨h.settled, h'.settled⟩
  atoms_eq := by rw [h.atoms_eq, h'.atoms_eq, List.flatMap_append]

theorem JoinCondition.qualify_eq_ok {c₀ c : JoinCondition} (h : c₀.qualify x w = .ok c) :
    Conditioned x w [] [] c₀.atoms c.atoms := by
  cases c₀ with
  | on e =>
    rw [JoinCondition.qualify] at h
    obtain ⟨e', he, h⟩ := bind_eq_ok.mp h
    obtain rfl := pure_eq_ok.mp h
    obtain ⟨hs, rfl⟩ := e.qualify_eq_ok.mp he
    exact ⟨rfl, hs, e.atoms_rewrite⟩
  | _ =>
    cases h
    exact ⟨rfl, settled_nil, rfl⟩

theorem TableFactor.conditionAtoms_eq_nil (h : ∀ tables label, f ≠ .nested tables label) :
    f.conditionAtoms = [] := by
  cases f with
  | nested tables label => exact absurd rfl (h tables label)
  | _ => rfl

/-- The tables of a clause stay, and its conditions are rewritten. -/
theorem conditionedSteps : QualifySteps x v w
    (fun _ f₀ f f' _ => Conditioned x w f.factors f'.factors f₀.conditionAtoms f'.conditionAtoms)
    (fun _ _ js₀ js js' _ => Conditioned x w (Join.factorsList js) (Join.factorsList js')
      (Join.conditionAtomsList js₀) (Join.conditionAtomsList js'))
    (fun _ t₀ t t' _ => Conditioned x w t.factors t'.factors t₀.conditionAtoms t'.conditionAtoms)
    (fun _ ts₀ ts ts' _ => Conditioned x w (ts.flatMap TableTree.factors)
      (ts'.flatMap TableTree.factors) (ts₀.flatMap TableTree.conditionAtoms)
      (ts'.flatMap TableTree.conditionAtoms)) where
  single hn h := by
    rw [TableFactor.conditionAtoms_eq_nil hn, TableFactor.conditionAtoms_eq_nil
      (TableFactor.registered_of_register hn h).not_nested]
    exact ⟨rfl, settled_nil, rfl⟩
  nested ih := ih
  done := ⟨rfl, settled_nil, rfl⟩
  join hc ih ihs := by
    have hboth := (ih.append (JoinCondition.qualify_eq_ok hc)).append ihs
    rwa [List.append_nil, List.append_nil] at hboth
  tree ih ihs := ih.append ihs
  nil := ⟨rfl, settled_nil, rfl⟩
  cons ih ihs := ih.append ihs

end conditions

/-! ## The tables of a select -/

/-- Each table is registered in the scope that it starts from. -/
theorem Registers.registered {factors factors' : List TableFactor} {starts : List Scope}
    (h : Registers x v scope factors factors' starts scope') :
    List.Forall₂ (fun f₀ f => ∃ start next, TableFactor.Registered x v start f₀ f next)
      factors factors' := by
  induction h with
  | nil => exact .nil
  | add hf _ ih => exact .cons ⟨_, _, hf⟩ ih
  | merge _ ih => exact ih

section selects

variable {s₀ s : Select} {scope : Scope} {registered : List TableTree} {outputs : List String}

theorem Select.Qualified.conditioned (h : Select.Qualified x v s₀ s scope registered outputs) :
    Conditioned x (v.withScope scope) (registered.flatMap TableTree.factors) s.factors
      (s₀.sources.flatMap TableTree.conditionAtoms) (s.sources.flatMap TableTree.conditionAtoms) :=
  conditionedSteps.ofTrees h.tables h.sources

theorem Select.Qualified.registers (h : Select.Qualified x v s₀ s scope registered outputs) :
    Registers x v {} s₀.factors s.factors (TableTree.startsList x v {} s₀.sources) scope := by
  rw [h.conditioned.factors_eq]
  exact TableTree.registersList s₀.sources h.tables

theorem Select.Qualified.factors (h : Select.Qualified x v s₀ s scope registered outputs) :
    List.Forall₂ (fun f₀ f => ∃ start next, TableFactor.Registered x v start f₀ f next)
      s₀.factors s.factors :=
  h.registers.registered

end selects

end ColumnLineage
