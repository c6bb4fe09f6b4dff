import ColumnLineage.Proofs.OutputColumns
import ColumnLineage.Proofs.TableReads

/-!
# Qualified queries stay as they are

To qualify a query twice is to qualify it once. The second time, every table has its full name, every
column has an owner or is kept again, stars stand only where nothing is known about them, and every
item has its name. So the sources, the scopes and the output columns are those of the first time, at
every depth.

A recursive common table is another matter: what it sees of itself depends on the stars in it.

* `Qualifier.qualify_idempotent`: whole queries.
-/

namespace ColumnLineage

/-! ## Names of tables -/

theorem Visible.cteOf?_complete {v : Visible} {n : ObjectName} {d : Defaults} (hn : n.parts ≠ [])
    (h : v.cteOf? n = none) : v.cteOf? (n.complete d) = none := by
  unfold Visible.cteOf?
  split
  · rename_i only honly
    rw [← ObjectName.eq_of_complete hn honly, Visible.cteOf?, honly] at h
    exact h
  · rfl

/-- A table that is registered under its full name is the source that it is under its own. -/
theorem Scope.registerTable_again {name : ObjectName} (hn : name.parts ≠ []) (scope : Scope)
    (x : Qualifier) (v : Visible) (label : Option TableAlias) :
    scope.registerTable x v (scope.registerTable x v name label).1 label =
      scope.registerTable x v name label := by
  cases hcte : v.cteOf? name with
  | some columns =>
    have hfirst : (scope.registerTable x v name label).1 = name := by
      simp only [Scope.registerTable, hcte]
    rw [hfirst]
  | none =>
    simp only [Scope.registerTable, hcte, Visible.cteOf?_complete hn hcte,
      ObjectName.complete_complete hn, ObjectName.getLast?_complete hn]

/-! ## Parts that are stable -/

/-- What qualification makes of a part it leaves as it is, whatever is in view. -/
def Part.Stable (x : Qualifier) : Part → Prop
  | .query q => ∀ v q' columns, q.qualify x v = .ok (q', columns) →
    q'.qualify x v = .ok (q', columns)
  | .table name label => ∀ (scope : Scope) (v : Visible),
    scope.registerTable x v (scope.registerTable x v name label).1 label =
      scope.registerTable x v name label

/-- The queries among atoms are stable. -/
def Atom.Stable (x : Qualifier) (atoms : List Atom) : Prop :=
  ∀ q, .query q ∈ atoms → (Part.query q).Stable x

/-- All that stands at some places is stable. -/
def Standing.Stable (x : Qualifier) (standing : List Standing) : Prop :=
  ∀ t ∈ standing, t.part.Stable x

section stable

variable {x : Qualifier}

theorem Atom.stable_append {as bs : List Atom} :
    Atom.Stable x (as ++ bs) ↔ Atom.Stable x as ∧ Atom.Stable x bs := by
  simp only [Atom.Stable, List.mem_append, or_imp, forall_and]

theorem Standing.stable_append {as bs : List Standing} :
    Standing.Stable x (as ++ bs) ↔ Standing.Stable x as ∧ Standing.Stable x bs :=
  List.forall_mem_append

theorem Standing.stable_atoms {s : Surroundings} {atoms : List Atom} :
    Standing.Stable x (Atom.standing s atoms) ↔ Atom.Stable x atoms := by
  simp only [Standing.Stable, Atom.standing, List.forall_mem_map, Atom.mem_queries, Atom.Stable]

/-! ## Expressions -/

/-- Qualification leaves an atom as it is. -/
def Atom.IsFixed (x : Qualifier) (v : Visible) (outputs : List String) : Atom → Prop
  | .column name => v.qualifyColumn outputs name = .ok (.column name)
  | .path segments => v.qualifyPath segments = .path segments
  | .query q => ∃ columns, q.qualify x v = .ok (q, columns)

/-- Qualification leaves all atoms as they are. -/
def Atom.Fixed (x : Qualifier) (v : Visible) (outputs : List String) (atoms : List Atom) : Prop :=
  ∀ a ∈ atoms, a.IsFixed x v outputs

section expressions

variable {v : Visible} {outputs : List String}

theorem fixed_singleton {a : Atom} : Atom.Fixed x v outputs [a] ↔ a.IsFixed x v outputs :=
  List.forall_mem_singleton

/-- A column behind an alias has nothing that could be left out. -/
theorem Visible.qualifyPath_pair (label column : Ident) :
    v.qualifyPath [label, column] = .path [label, column] :=
  rfl

theorem Visible.qualifyPath_again {segments segments' : List Ident}
    (h : v.qualifyPath segments = .path segments') : v.qualifyPath segments' = .path segments' := by
  unfold Visible.qualifyPath at h
  split at h
  · split at h
    · cases h
      rfl
    · rename_i hparts _ hnone
      cases h
      simp only [Visible.qualifyPath, hparts, hnone]
  · rename_i hparts
    cases h
    unfold Visible.qualifyPath
    split
    · rename_i hlong
      exact absurd hlong (hparts _ _ _ _)
    · rfl

theorem fixed_mergedColumn (owners : List Ident) (column : Ident) :
    Atom.Fixed x v outputs (mergedColumn owners column).atoms := by
  intro a ha
  rw [mergedColumn_atoms] at ha
  obtain ⟨o, -, rfl⟩ := List.mem_map.mp ha
  exact Visible.qualifyPath_pair o column

theorem Atom.fixed_rewrite {a : Atom} (hs : a.Settled x v outputs) (hq : Atom.Stable x [a]) :
    Atom.Fixed x v outputs (a.rewrite (x.rewriting v outputs)) := by
  cases a with
  | column name =>
    obtain ⟨e, he⟩ := hs
    rw [Atom.rewrite, Qualifier.rewriting_column he]
    rcases Visible.qualifyColumn_eq_ok he with rfl | ⟨owners, rfl⟩
    · exact fixed_singleton.mpr he
    · exact fixed_mergedColumn owners name
  | path segments =>
    obtain ⟨segments', he⟩ := v.qualifyPath_eq segments
    have hpath : (x.rewriting v outputs).path segments = .path segments' := he
    rw [Atom.rewrite, hpath]
    exact fixed_singleton.mpr (Visible.qualifyPath_again he)
  | query q =>
    obtain ⟨⟨q', columns⟩, he⟩ := hs
    rw [Atom.rewrite, Qualifier.rewriting_query he]
    exact fixed_singleton.mpr ⟨columns, hq q List.mem_cons_self v q' columns he⟩

theorem Settled.fixed {atoms : List Atom} (hs : Settled x v outputs atoms)
    (hq : Atom.Stable x atoms) :
    Atom.Fixed x v outputs (atoms.flatMap (Atom.rewrite (x.rewriting v outputs))) := by
  intro b hb
  obtain ⟨a, ha, hb⟩ := List.mem_flatMap.mp hb
  refine Atom.fixed_rewrite (hs a ha) ?_ b hb
  intro q hmem
  rw [← List.mem_singleton.mp hmem] at ha
  exact hq q ha

/-- A step leaves what it qualifies as it is if the atoms are fixed. -/
abbrev Keeps {α : Type} (x : Qualifier) (v : Visible) (outputs : List String) (atoms : List Atom)
    (m : Except QualifyError α) (a : α) : Prop :=
  Walks (fun _ => True) (Atom.IsFixed x v outputs) atoms m (.ok a)

theorem keeps_column (name : Ident) :
    Keeps x v outputs [.column name] (v.qualifyColumn outputs name) (.column name) where
  settled _ _ _ := trivial
  same := fixed_singleton.mp

theorem keeps_path (segments : List Ident) :
    Keeps x v outputs [.path segments] (.ok (v.qualifyPath segments)) (.path segments) where
  settled _ _ _ := trivial
  same h := congrArg Except.ok (fixed_singleton.mp h)

theorem keeps_query (q : Query) : Keeps x v outputs [.query q] (q.qualify x v)
    (q, ((q.qualify x v).toOption.map Prod.snd).getD .unknown) where
  settled _ _ _ := trivial
  same h := by
    obtain ⟨columns, hq⟩ := fixed_singleton.mp h
    rw [hq]
    rfl

mutual

theorem Expr.keeps : (e : Expr) → Keeps x v outputs e.atoms (e.qualify x v outputs) e
  | .column name => keeps_column name
  | .path parts => keeps_path parts
  | .rowOf _ => .nil
  | .literal _ => .nil
  | .unary _ operand => .map operand.keeps
  | .binary _ left right => .map₂ left.keeps right.keeps
  | .between _ e low high => .map₃ e.keeps low.keeps high.keeps
  | .substring _ e start length =>
      .map₃ e.keeps (Expr.keepsOption start) (Expr.keepsOption length)
  | .trim _ e characters => .map₂ e.keeps (Expr.keepsOption characters)
  | .overlay e new start length =>
      .map₄ e.keeps new.keeps start.keeps (Expr.keepsOption length)
  | .cases operand conditions results otherwise =>
      .map₄ (Expr.keepsOption operand) (Expr.keepsList conditions)
        (Expr.keepsList results) (Expr.keepsOption otherwise)
  | .tuple items => .map (Expr.keepsList items)
  | .slice e lower upper stride =>
      .map₄ e.keeps (Expr.keepsOption lower) (Expr.keepsOption upper)
        (Expr.keepsOption stride)
  | .array _ items => .map (Expr.keepsList items)
  | .grouping _ sets => .map (Expr.keepsLists sets)
  | .inList _ e items => .map₂ e.keeps (Expr.keepsList items)
  | .inQuery _ e query => .map₂ e.keeps (keeps_query query)
  | .existence _ query => .map (keeps_query query)
  | .scalar query => .map (keeps_query query)
  | .call _ arguments filter _ window withinGroup =>
      .map₄ arguments.keeps (Expr.keepsOption filter) window.keeps
        (OrderItem.keepsList withinGroup)

theorem Expr.keepsList : (es : List Expr) →
    Keeps x v outputs (Expr.atomsList es) (Expr.qualifyList x v outputs es) es
  | [] => .nil
  | e :: es => .map₂ e.keeps (Expr.keepsList es)

theorem Expr.keepsLists : (ess : List (List Expr)) →
    Keeps x v outputs (Expr.atomsLists ess) (Expr.qualifyLists x v outputs ess) ess
  | [] => .nil
  | es :: ess => .map₂ (Expr.keepsList es) (Expr.keepsLists ess)

theorem Expr.keepsOption : (e : Option Expr) →
    Keeps x v outputs (Expr.atomsOption e) (Expr.qualifyOption x v outputs e) e
  | none => .nil
  | some e => .map e.keeps

theorem Arguments.keeps : (a : Arguments) → Keeps x v outputs a.atoms (a.qualify x v outputs) a
  | .absent => .nil
  | .query query => .map (keeps_query query)
  | .list _ items orderBy limit _ filler _ =>
      .map₄ (Argument.keepsList items) (OrderItem.keepsList orderBy)
        (Expr.keepsOption limit) (Expr.keepsOption filler)

theorem Argument.keeps : (a : Argument) → Keeps x v outputs a.atoms (a.qualify x v outputs) a
  | .positional value => .map value.keeps
  | .named name _ value => .map₂ name.keeps value.keeps

theorem Argument.keepsList : (as : List Argument) →
    Keeps x v outputs (Argument.atomsList as) (Argument.qualifyList x v outputs as) as
  | [] => .nil
  | a :: as => .map₂ a.keeps (Argument.keepsList as)

theorem ArgumentValue.keeps : (a : ArgumentValue) →
    Keeps x v outputs a.atoms (a.qualify x v outputs) a
  | .expr e => .map e.keeps
  | .star => .nil
  | .starOf _ => .nil

theorem OrderItem.keeps : (o : OrderItem) → Keeps x v outputs o.atoms (o.qualify x v outputs) o
  | .mk e _ _ => .map e.keeps

theorem OrderItem.keepsList : (os : List OrderItem) →
    Keeps x v outputs (OrderItem.atomsList os) (OrderItem.qualifyList x v outputs os) os
  | [] => .nil
  | o :: os => .map₂ o.keeps (OrderItem.keepsList os)

theorem Window.keeps : (w : Window) → Keeps x v outputs w.atoms (w.qualify x v outputs) w
  | .absent => .nil
  | .named _ => .nil
  | .spec _ partitionBy orderBy frame =>
      .map₃ (Expr.keepsList partitionBy) (OrderItem.keepsList orderBy) frame.keeps

theorem Frame.keeps : (f : Frame) → Keeps x v outputs f.atoms (f.qualify x v outputs) f
  | .absent => .nil
  | .start _ first => .map first.keeps
  | .span _ first last => .map₂ first.keeps last.keeps

theorem Bound.keeps : (b : Bound) → Keeps x v outputs b.atoms (b.qualify x v outputs) b
  | .currentRow => .nil
  | .preceding rows => .map (Expr.keepsOption rows)
  | .following rows => .map (Expr.keepsOption rows)

end

/-! ## Clauses -/

theorem Expr.fixed_of_qualify {e e' : Expr} (hq : Atom.Stable x e.atoms)
    (h : e.qualify x v outputs = .ok e') : Atom.Fixed x v outputs e'.atoms := by
  obtain ⟨hs, rfl⟩ := e.qualify_eq_ok.mp h
  rw [Expr.atoms_rewrite]
  exact hs.fixed hq

theorem Expr.qualifyList_again {es es' : List Expr} (hq : Atom.Stable x (Expr.atomsList es))
    (h : Expr.qualifyList x v outputs es = .ok es') :
    Expr.qualifyList x v outputs es' = .ok es' := by
  obtain ⟨hs, rfl⟩ := (Expr.qualifyList_eq_ok es).mp h
  refine (Expr.keepsList _).same ?_
  rw [Expr.atomsList_rewrite]
  exact hs.fixed hq

theorem Expr.qualifyOption_again {e e' : Option Expr} (hq : Atom.Stable x (Expr.atomsOption e))
    (h : Expr.qualifyOption x v outputs e = .ok e') :
    Expr.qualifyOption x v outputs e' = .ok e' := by
  obtain ⟨hs, rfl⟩ := (Expr.qualifyOption_eq_ok e).mp h
  refine (Expr.keepsOption _).same ?_
  rw [Expr.atomsOption_rewrite]
  exact hs.fixed hq

theorem OrderItem.qualifyList_again {os os' : List OrderItem}
    (hq : Atom.Stable x (OrderItem.atomsList os))
    (h : OrderItem.qualifyList x v outputs os = .ok os') :
    OrderItem.qualifyList x v outputs os' = .ok os' := by
  obtain ⟨hs, rfl⟩ := (OrderItem.qualifyList_eq_ok os).mp h
  refine (OrderItem.keepsList _).same ?_
  rw [OrderItem.atomsList_rewrite]
  exact hs.fixed hq

theorem Distinct.qualify_again {d d' : Distinct} (hq : Atom.Stable x d.atoms)
    (h : d.qualify x v = .ok d') : d'.qualify x v = .ok d' := by
  cases d with
  | on keys =>
    obtain ⟨keys', hk, h⟩ := bind_eq_ok.mp h
    obtain rfl := pure_eq_ok.mp h
    rw [Distinct.qualify, Expr.qualifyList_again hq hk]
    rfl
  | _ =>
    cases h
    rfl

theorem GroupBy.qualify_again {g g' : GroupBy} (hq : Atom.Stable x g.atoms)
    (h : g.qualify x v outputs = .ok g') : g'.qualify x v outputs = .ok g' := by
  cases g with
  | keys keys =>
    obtain ⟨keys', hk, h⟩ := bind_eq_ok.mp h
    obtain rfl := pure_eq_ok.mp h
    rw [GroupBy.qualify, Expr.qualifyList_again hq hk]
    rfl
  | all =>
    cases h
    rfl

/-- A qualified condition is kept, and it merges the columns that it merged before. -/
theorem JoinCondition.qualify_again {c c' : JoinCondition} (hq : Atom.Stable x c.atoms)
    (h : c.qualify x v = .ok c') :
    c'.qualify x v = .ok c' ∧
      ∀ (scope : Scope) left right, scope.mergeJoin left right c' = scope.mergeJoin left right c := by
  cases c with
  | on e =>
    obtain ⟨e', he, h⟩ := bind_eq_ok.mp h
    obtain rfl := pure_eq_ok.mp h
    refine ⟨?_, fun _ _ _ => rfl⟩
    rw [JoinCondition.qualify, e'.keeps.same (Expr.fixed_of_qualify hq he)]
    rfl
  | _ =>
    cases h
    exact ⟨rfl, fun _ _ _ => rfl⟩

/-! ## Items -/

/-- Qualification leaves an item as it is, wherever it stands. -/
def SelectItem.Fixed (x : Qualifier) (v : Visible) (scope : Scope) (i : SelectItem) : Prop :=
  ∀ index, i.qualify x v scope index = .ok [i]

/-- What a star stands for: columns with owners, or the star itself. -/
def SelectItem.Expanded (x : Qualifier) (v : Visible) (scope : Scope) : SelectItem → Prop
  | .expr e _ => Atom.Fixed x v [] e.atoms
  | item => item.Fixed x v scope

variable {scope : Scope}

theorem SelectItem.fixed_expr {e : Expr} (h : Atom.Fixed x v [] e.atoms) (name : Ident) :
    (SelectItem.expr e (some name)).Fixed x v scope := by
  intro index
  rw [SelectItem.qualify, e.keeps.same h]
  rfl

theorem Scope.expanded_columnItem (label : Ident) (column : String) :
    (Scope.columnItem label column).Expanded x v scope :=
  fixed_singleton.mpr (Visible.qualifyPath_pair label ⟨column, none⟩)

theorem Scope.expanded_expandStar : ∀ i ∈ scope.expandStar, i.Expanded x v scope := by
  intro i hi
  unfold Scope.expandStar at hi
  split at hi
  · rename_i hunknown
    obtain rfl := List.mem_singleton.mp hi
    intro index
    rw [SelectItem.qualify, Scope.expandStar, hunknown]
    rfl
  · rcases List.mem_append.mp hi with hi | hi
    · obtain ⟨m, -, rfl⟩ := List.mem_map.mp hi
      exact fixed_mergedColumn m.owners m.column
    · obtain ⟨⟨label, column⟩, -, rfl⟩ := List.mem_map.mp hi
      exact Scope.expanded_columnItem label column

theorem Scope.expanded_expandStarOf (name : ObjectName) :
    ∀ i ∈ scope.expandStarOf name, i.Expanded x v scope := by
  intro i hi
  unfold Scope.expandStarOf at hi
  split at hi
  · obtain ⟨column, -, rfl⟩ := List.mem_map.mp hi
    exact Scope.expanded_columnItem _ column
  · rename_i hunknown
    obtain rfl := List.mem_singleton.mp hi
    have hkept : scope.expandStarOf name = [.starOf name] := by
      unfold Scope.expandStarOf
      split
      · rename_i hknown
        exact absurd hknown (hunknown _ _)
      · rfl
    intro index
    rw [SelectItem.qualify, hkept]
    rfl

theorem fixed_nameItems : (items : List SelectItem) → {index : Nat} →
    (∀ i ∈ items, i.Expanded x v scope) → ∀ i ∈ nameItems index items, i.Fixed x v scope
  | [], _, _, i, hi => by cases hi
  | .expr e label :: rest, index, h, i, hi => by
      obtain ⟨hfirst, hrest⟩ := List.forall_mem_cons.mp h
      rcases List.mem_cons.mp hi with rfl | hi
      · exact SelectItem.fixed_expr hfirst _
      · exact fixed_nameItems rest hrest i hi
  | .star :: rest, index, h, i, hi => by
      obtain ⟨hfirst, hrest⟩ := List.forall_mem_cons.mp h
      rcases List.mem_cons.mp hi with rfl | hi
      · exact hfirst
      · exact fixed_nameItems rest hrest i hi
  | .starOf name :: rest, index, h, i, hi => by
      obtain ⟨hfirst, hrest⟩ := List.forall_mem_cons.mp h
      rcases List.mem_cons.mp hi with rfl | hi
      · exact hfirst
      · exact fixed_nameItems rest hrest i hi

theorem SelectItem.fixed_of_qualify {i : SelectItem} {index : Nat} {items : List SelectItem}
    (hq : Atom.Stable x i.atoms) (h : i.qualify x v scope index = .ok items) :
    ∀ j ∈ items, j.Fixed x v scope := by
  cases i with
  | expr e label =>
    rw [SelectItem.qualify] at h
    obtain ⟨e', he, h⟩ := bind_eq_ok.mp h
    obtain rfl := pure_eq_ok.mp h
    exact List.forall_mem_singleton.mpr (SelectItem.fixed_expr (Expr.fixed_of_qualify hq he) _)
  | star =>
    obtain rfl := ok_eq_ok.mp h
    exact fixed_nameItems _ Scope.expanded_expandStar
  | starOf name =>
    obtain rfl := ok_eq_ok.mp h
    exact fixed_nameItems _ (Scope.expanded_expandStarOf name)

theorem SelectItem.fixed_of_qualifyList : (items₀ : List SelectItem) → {index : Nat} →
    {items : List SelectItem} → Atom.Stable x (items₀.flatMap SelectItem.atoms) →
    SelectItem.qualifyList x v scope index items₀ = .ok items → ∀ i ∈ items, i.Fixed x v scope
  | [], _, _, _, h => by
      cases h
      exact List.forall_mem_nil _
  | i :: items₀, index, _, hq, h => by
      rw [List.flatMap_cons, Atom.stable_append] at hq
      rw [SelectItem.qualifyList] at h
      obtain ⟨first, hf, h⟩ := bind_eq_ok.mp h
      obtain ⟨rest, hr, h⟩ := bind_eq_ok.mp h
      obtain rfl := pure_eq_ok.mp h
      exact List.forall_mem_append.mpr ⟨SelectItem.fixed_of_qualify hq.1 hf,
        SelectItem.fixed_of_qualifyList items₀ hq.2 hr⟩

theorem SelectItem.qualifyList_fixed : (items : List SelectItem) → {index : Nat} →
    (∀ i ∈ items, i.Fixed x v scope) → SelectItem.qualifyList x v scope index items = .ok items
  | [], _, _ => rfl
  | i :: items, index, h => by
      obtain ⟨hfirst, hrest⟩ := List.forall_mem_cons.mp h
      rw [SelectItem.qualifyList, hfirst index]
      change (SelectItem.qualifyList x v scope (index + 1) items >>= _) = _
      rw [SelectItem.qualifyList_fixed items hrest]
      rfl

theorem SelectItem.qualifyList_again {items₀ items : List SelectItem} {index : Nat}
    (hq : Atom.Stable x (items₀.flatMap SelectItem.atoms))
    (h : SelectItem.qualifyList x v scope index items₀ = .ok items) :
    SelectItem.qualifyList x v scope index items = .ok items :=
  SelectItem.qualifyList_fixed items (SelectItem.fixed_of_qualifyList items₀ hq h)

end expressions

/-! ## Tables -/

section tables

variable {v w : Visible}

/-- Tables that are registered and qualified make the same scope again, and stay as they are. -/
theorem againSteps : QualifySteps x v w
    (fun scope f₀ _ f' scope' => ∀ s, Standing.Stable x (f₀.standing s) →
      f'.register x v scope = .ok (f', scope') ∧ f'.qualifyJoins x w f' = .ok f')
    (fun start scope js₀ _ js' scope' => ∀ s, Standing.Stable x (Join.standingList s js₀) →
      Join.registerList x v start scope js' = .ok (js', scope') ∧
        Join.qualifyJoinsList x w js' js' = .ok js')
    (fun scope t₀ _ t' scope' => ∀ s, Standing.Stable x (t₀.standing s) →
      t'.register x v scope = .ok (t', scope') ∧ t'.qualifyJoins x w t' = .ok t')
    (fun scope ts₀ _ ts' scope' => ∀ s, Standing.Stable x (TableTree.standingList s ts₀) →
      TableTree.registerList x v scope ts' = .ok (ts', scope') ∧
        TableTree.qualifyJoinsList x w ts' ts' = .ok ts') where
  single {scope scope' f₀ f} hn hr s hq := by
    cases f₀ with
    | table name numbered label hints =>
      rw [TableFactor.standing] at hq
      have hname := hq _ List.mem_cons_self scope v
      simp only [TableFactor.register, ok_eq_ok, Prod.mk.injEq] at hr
      obtain ⟨rfl, rfl⟩ := hr
      refine ⟨?_, rfl⟩
      simp only [TableFactor.register, hname]
    | derived lateral query label =>
      rw [TableFactor.standing] at hq
      have hquery : (Part.query query).Stable x := hq _ List.mem_cons_self
      rw [TableFactor.register] at hr
      obtain ⟨⟨query', columns⟩, he, hr⟩ := bind_eq_ok.mp hr
      obtain ⟨rfl, rfl⟩ := Prod.mk.inj (pure_eq_ok.mp hr)
      refine ⟨?_, rfl⟩
      rw [TableFactor.register, hquery _ _ _ he]
      rfl
    | nested tables label => exact absurd rfl (hn tables label)
    | _ =>
      cases hr
      exact ⟨rfl, rfl⟩
  nested ih s hq := by
    rw [TableFactor.standing] at hq
    obtain ⟨htables, htables'⟩ := ih s hq
    constructor
    · simp only [TableFactor.register, htables, bind, Except.bind, pure, Except.pure]
    · simp only [TableFactor.qualifyJoins, htables', bind, Except.bind, pure, Except.pure]
  done _ _ := ⟨rfl, rfl⟩
  join hc ih ihs s hq := by
    rw [Join.standingList, Join.standing, Standing.stable_append, Standing.stable_append,
      Standing.stable_append, Standing.stable_atoms, Standing.stable_atoms] at hq
    obtain ⟨hfactor, hfactor'⟩ := ih s hq.1.1
    obtain ⟨hothers, hothers'⟩ := ihs s hq.2
    -- Only conditions with `ON` change, and these merge nothing.
    obtain ⟨hcondition, hmerge⟩ := JoinCondition.qualify_again hq.1.2.2 hc
    constructor
    · simp only [Join.registerList, Join.register, hfactor, hmerge, hothers, bind, Except.bind,
        pure, Except.pure]
    · simp only [Join.qualifyJoinsList, Join.qualifyJoins, hfactor', hcondition, hothers', bind,
        Except.bind, pure, Except.pure]
  tree ih ihs s hq := by
    rw [TableTree.standing, Standing.stable_append] at hq
    obtain ⟨hfirst, hfirst'⟩ := ih s hq.1
    obtain ⟨hjoins, hjoins'⟩ := ihs s hq.2
    constructor
    · simp only [TableTree.register, hfirst, hjoins, bind, Except.bind, pure, Except.pure]
    · simp only [TableTree.qualifyJoins, hfirst', hjoins', bind, Except.bind, pure, Except.pure]
  nil _ _ := ⟨rfl, rfl⟩
  cons ih ihs s hq := by
    rw [TableTree.standingList, List.flatMap_cons, Standing.stable_append] at hq
    obtain ⟨hone, hone'⟩ := ih s hq.1
    obtain ⟨hothers, hothers'⟩ := ihs s hq.2
    constructor
    · simp only [TableTree.registerList, hone, hothers, bind, Except.bind, pure, Except.pure]
    · simp only [TableTree.qualifyJoinsList, hone', hothers', bind, Except.bind, pure,
        Except.pure]

end tables

/-! ## Queries -/

variable {v : Visible}

/-- A qualified select stays as it is, with the columns and the scope that it has. -/
theorem Select.qualify_again {select select' : Select} {s : Surroundings} {columns : Columns}
    {scope : Scope} (hq : Standing.Stable x (select.standing s))
    (h : select.qualify x v = .ok (select', columns, scope)) :
    select'.qualify x v = .ok (select', columns, scope) := by
  simp only [Select.standing, Standing.stable_append, Standing.stable_atoms, and_assoc] at hq
  obtain ⟨hdistinct, -, hitems, hsources, -, hfilter, hgroup, -, -, -, hhaving, -, -⟩ := hq
  obtain ⟨registered, hs, rfl⟩ := Select.qualified_of_qualify h
  obtain ⟨htables, hjoins⟩ :=
    againSteps.ofTrees hs.tables hs.sources s hsources
  have hitems' := SelectItem.qualifyList_again hitems hs.items
  -- Both times, the items have the names that they have with their stars expanded.
  have hnames : SelectItem.outputNames 0 (scope.expandItems select'.items) =
      SelectItem.outputNames 0 (scope.expandItems select.items) := by
    rw [← SelectItem.outputNames_qualifyList select'.items hitems',
      SelectItem.outputNames_qualifyList select.items hs.items]
  rw [← hnames]
  exact Select.Qualified.qualify ⟨htables, hjoins, hitems', Distinct.qualify_again hdistinct hs.distinct,
    Expr.qualifyOption_again hfilter hs.filter, hnames ▸ GroupBy.qualify_again hgroup hs.groupBy,
    hnames ▸ Expr.qualifyOption_again hhaving hs.having, by cases select'; rfl⟩

theorem Body.qualify_again : (b₀ : Body) → {s : Surroundings} → {b : Body} → {columns : Columns} →
    {scope : Option Scope} → Standing.Stable x (b₀.standing s) →
    b₀.qualify x v = .ok (b, columns, scope) → b.qualify x v = .ok (b, columns, scope)
  | .select s₀, _, _, _, _, hq, h => by
      rw [Body.standing] at hq
      obtain ⟨s', own, rfl, hs, rfl⟩ := Body.qualify_select h
      rw [Body.qualify, Select.qualify_again hq hs]
      rfl
  | .parens query, _, _, _, _, hq, h => by
      have hquery : (Part.query query).Stable x := hq _ List.mem_cons_self
      rw [Body.qualify] at h
      obtain ⟨⟨query', columns⟩, he, h⟩ := bind_eq_ok.mp h
      cases pure_eq_ok.mp h
      rw [Body.qualify, hquery _ _ _ he]
      rfl
  | .setOperation op quantifier left right, _, _, _, _, hq, h => by
      rw [Body.standing, Standing.stable_append] at hq
      rw [Body.qualify] at h
      obtain ⟨⟨left', columns, scope⟩, hl, h⟩ := bind_eq_ok.mp h
      obtain ⟨⟨right', rest⟩, hr, h⟩ := bind_eq_ok.mp h
      cases pure_eq_ok.mp h
      simp only [Body.qualify, left.qualify_again hq.1 hl, right.qualify_again hq.2 hr, bind,
        Except.bind, pure, Except.pure]
  | .values _ _, _, _, _, _, _, h => by
      cases h
      rfl
  | .defaultValues, _, _, _, _, _, h => by
      cases h
      rfl
  | .table _, _, _, _, _, _, h => by
      cases h
      rfl
  | .insert _, _, _, _, _, _, h => by
      cases h
      rfl
  | .update _, _, _, _, _, _, h => by
      cases h
      rfl

/-- Common tables that do not see themselves bring the same into view again. -/
theorem Cte.qualifyList_again : (cs₀ : List Cte) → {s : Surroundings} → {cs : List Cte} →
    {v inner : Visible} → Standing.Stable x (Cte.standing false s cs₀) →
    Cte.qualifyList x false v cs₀ = .ok (cs, inner) → Cte.qualifyList x false v cs = .ok (cs, inner)
  | [], _, _, _, _, _, h => by
      cases h
      rfl
  | .mk label materialized query source :: cs₀, _, _, v, _, hq, h => by
      obtain ⟨hfirst, hrest⟩ := List.forall_mem_cons.mp hq
      have hquery : (Part.query query).Stable x := hfirst
      rw [Cte.qualifyList, Cte.qualify] at h
      obtain ⟨⟨c, columns⟩, hc, h⟩ := bind_eq_ok.mp h
      obtain ⟨⟨query', own⟩, he, hc⟩ := bind_eq_ok.mp hc
      obtain ⟨rfl, rfl⟩ := Prod.mk.inj (pure_eq_ok.mp hc)
      obtain ⟨⟨cs', inner'⟩, hcs, h⟩ := bind_eq_ok.mp h
      obtain ⟨rfl, rfl⟩ := Prod.mk.inj (pure_eq_ok.mp h)
      have hseen : query'.qualify x v = .ok (query', own) := hquery v query' own he
      have hothers := Cte.qualifyList_again cs₀ hrest hcs
      simp only [Cte.qualifyList, Cte.qualify, hseen, Bool.false_eq_true, if_false, bind,
        Except.bind, pure, Except.pure]
      simp only [hothers]

/-- A query without recursive common tables is stable if what stands in it is. -/
theorem Query.stable_standing {q : Query} {s : Surroundings} (hr : q.isRecursive = false)
    (h : Standing.Stable x (q.standing s)) : (Part.query q).Stable x := by
  intro v q' columns hq
  simp only [Query.standing, Standing.stable_append, Standing.stable_atoms, and_assoc] at h
  obtain ⟨hctes, hbody, horder, -, -⟩ := h
  rw [hr] at hctes
  obtain ⟨inner, scope, hc, hb, ho, he⟩ := Query.qualify_eq_ok hq
  rw [hr] at hc
  obtain ⟨isRecursive, ctes, body, orderBy, limit, offset, offsetWord, fetch, locks⟩ := q'
  obtain rfl : isRecursive = false := (congrArg Query.isRecursive he).trans hr
  rw [Query.qualify, Cte.qualifyList_again q.ctes hctes hc]
  change (Body.qualify x inner body >>= _) = _
  rw [q.body.qualify_again hbody hb]
  change (OrderItem.qualifyList x (inner.behind scope) columns.names orderBy >>= _) = _
  rw [OrderItem.qualifyList_again horder ho]
  rfl

end stable

/-! ## Whole queries -/

/-- Whether a part is a query with recursive common tables. -/
def Part.isRecursive : Part → Bool
  | .query q => q.isRecursive
  | .table _ _ => false

/-- Whether a query has recursive common tables at any depth. -/
def Query.hasRecursion (q : Query) : Bool :=
  q.parts.any Part.isRecursive

theorem Query.isRecursive_of_mem {q r : Query} (h : q.hasRecursion = false)
    (hr : .query r ∈ q.parts) : r.isRecursive = false := by
  rw [Query.hasRecursion, List.any_eq_false] at h
  exact Bool.eq_false_iff.mpr (h _ hr)

/-- A query without recursive common tables is stable, if its tables have names. -/
theorem Query.stable (x : Qualifier) (s : Surroundings) (q : Query)
    (hr : ∀ r, .query r ∈ q.parts → r.isRecursive = false)
    (hn : ∀ name label, .table name label ∈ q.parts → name.parts ≠ []) :
    (Part.query q).Stable x := by
  induction s, q using Query.standing_induction with
  | h s q ih =>
    have hparts := q.parts_eq_standing s
    have hq : q.isRecursive = false := hr q (hparts ▸ List.mem_cons_self)
    refine Query.stable_standing (s := s) hq fun t ht => ?_
    have hsub : ∀ p ∈ t.part.parts, p ∈ q.parts := by
      intro p hp
      rw [hparts]
      exact List.mem_cons_of_mem _ (List.mem_flatMap.mpr ⟨t, ht, hp⟩)
    obtain ⟨around, part⟩ := t
    cases part with
    | table name label =>
      have hname := hn name label (hsub _ List.mem_cons_self)
      exact fun scope v => Scope.registerTable_again hname scope x v label
    | query r =>
      exact ih _ ht r rfl (fun r' h => hr r' (hsub _ h)) fun name label h => hn name label (hsub _ h)

/-- To qualify a query twice is to qualify it once: without recursive common tables, a qualified
query can be qualified and stays as it is. The tables of a query that is read from a text have
names. -/
theorem Qualifier.qualify_idempotent (x : Qualifier) {root q : Query}
    (h : x.qualify root = .ok q) (hr : root.hasRecursion = false)
    (hnamed : ∀ t ∈ root.allTables, t.1.parts ≠ []) : x.qualify q = .ok q := by
  obtain ⟨⟨q', columns⟩, hq, h⟩ := bind_eq_ok.mp h
  obtain rfl := pure_eq_ok.mp h
  have hstable : (Part.query root).Stable x := by
    refine Query.stable x .outside root (fun r => root.isRecursive_of_mem hr) ?_
    intro name label hmem
    exact hnamed (name, label) (List.mem_filterMap.mpr ⟨_, hmem, rfl⟩)
  rw [Qualifier.qualify, hstable _ _ _ hq]
  rfl

/-- A common table with two columns, joined to itself by the first of them:
`WITH c (a, b) AS (SELECT t.a AS a, t.b AS b FROM …) SELECT … FROM c JOIN c AS d USING (a)`. -/
def selfJoin (table : ObjectName) (items : List SelectItem) : Query :=
  .plain
    [.mk ⟨⟨"c", none⟩, [⟨⟨"a", none⟩, none⟩, ⟨⟨"b", none⟩, none⟩]⟩ none
      (.plain [] (.select (.plain [.plain "t" "a", .plain "t" "b"]
        [.mk (.table table false none []) []]))) none]
    (.select (.plain items
      [.mk (.table ⟨[⟨"c", none⟩]⟩ false none [])
        [.mk false .inner (.table ⟨[⟨"c", none⟩]⟩ false (some ⟨⟨"d", none⟩, []⟩) []) none
          (.using [⟨"a", none⟩])]]))

/-- The star over a merged column is expanded once, to `COALESCE(c.a, d.a)` and the other columns. -/
theorem Qualifier.qualify_idempotent_selfJoin :
    let expanded := selfJoin ⟨[⟨"db", none⟩, ⟨"s", none⟩, ⟨"t", none⟩]⟩
      [.expr (mergedColumn [⟨"c", none⟩, ⟨"d", none⟩] ⟨"a", none⟩) (some ⟨"a", none⟩),
        .plain "c" "b", .plain "d" "b"]
    Qualifier.qualify ⟨⟨∅⟩, ⟨some "db", some "s"⟩⟩ (selfJoin ⟨[⟨"t", none⟩]⟩ [.star]) =
        .ok expanded ∧
      Qualifier.qualify ⟨⟨∅⟩, ⟨some "db", some "s"⟩⟩ expanded = .ok expanded := by
  intro expanded
  have h : Qualifier.qualify ⟨⟨∅⟩, ⟨some "db", some "s"⟩⟩ (selfJoin ⟨[⟨"t", none⟩]⟩ [.star]) =
      .ok expanded := by
    rfl
  exact ⟨h, Qualifier.qualify_idempotent _ h (by decide) (by decide)⟩

end ColumnLineage
