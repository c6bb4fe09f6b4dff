import ColumnLineage.Proofs.Rewriting
import Mathlib.Data.List.Perm.Basic

/-!
# The columns that lineage overlooks

Qualification visits every column of an expression outside its queries. Lineage reads most of
them, but not all: of a call it leaves out the order, the bound and the filler behind the
arguments, the names of arguments, the frame of the window and the order of the group.
`Expr.overlooked` lists the columns that stand there.

* `Expr.references_eq_columns_iff`: an expression forgets no column exactly if each column that is
  overlooked in one place is read in another.
-/

namespace ColumnLineage

/-- Whether a column is read, and not a query. -/
def Reference.isColumn : Reference → Bool
  | .column _ _ => true
  | .scalar _ => false

/-! ## Where nothing is read -/

mutual

/-- The columns of an expression that lineage does not look at. Expressions of the less common
kinds hide nothing, since all their columns count. -/
def Expr.overlooked : Expr → List Reference
  | .unary form operand => if form.isOpen then operand.overlooked else []
  | .binary form left right => if form.isOpen then left.overlooked ++ right.overlooked else []
  | .between _ e low high => e.overlooked ++ low.overlooked ++ high.overlooked
  | .cases operand conditions results otherwise =>
    Expr.overlookedOption operand ++ Expr.overlookedList conditions ++
      Expr.overlookedList results ++ Expr.overlookedOption otherwise
  | .tuple items => Expr.overlookedList items
  | .inList _ e items => e.overlooked ++ Expr.overlookedList items
  | .inQuery _ e _ => e.overlooked
  | .call _ arguments filter _ window withinGroup =>
    arguments.overlooked ++ Expr.overlookedOption filter ++ window.overlooked ++
      OrderItem.columnsList withinGroup
  | _ => []
termination_by structural e => e

/-- The columns of expressions that are not looked at. -/
def Expr.overlookedList : List Expr → List Reference
  | [] => []
  | e :: es => e.overlooked ++ Expr.overlookedList es
termination_by structural es => es

/-- The columns of an expression that may be absent that are not looked at. -/
def Expr.overlookedOption : Option Expr → List Reference
  | none => []
  | some e => e.overlooked
termination_by structural e => e

/-- The columns of the arguments of a call that are not looked at. -/
def Arguments.overlooked : Arguments → List Reference
  | .absent => []
  | .query _ => []
  | .list _ items orderBy limit _ filler _ =>
    Argument.overlookedList items ++ OrderItem.columnsList orderBy ++ Expr.columnsOption limit ++
      Expr.columnsOption filler
termination_by structural a => a

/-- The columns of an argument that are not looked at. -/
def Argument.overlooked : Argument → List Reference
  | .positional value => value.overlooked
  | .named name _ value => name.columns ++ value.overlooked
termination_by structural a => a

/-- The columns of arguments that are not looked at. -/
def Argument.overlookedList : List Argument → List Reference
  | [] => []
  | a :: as => a.overlooked ++ Argument.overlookedList as
termination_by structural as => as

/-- The columns of the value of an argument that are not looked at. -/
def ArgumentValue.overlooked : ArgumentValue → List Reference
  | .expr e => e.overlooked
  | .star => []
  | .starOf _ => []
termination_by structural v => v

/-- The columns of an item of an order that are not looked at. -/
def OrderItem.overlooked : OrderItem → List Reference
  | .mk e _ _ => e.overlooked
termination_by structural o => o

/-- The columns of an order that are not looked at. -/
def OrderItem.overlookedList : List OrderItem → List Reference
  | [] => []
  | o :: os => o.overlooked ++ OrderItem.overlookedList os
termination_by structural os => os

/-- The columns of a window that are not looked at. -/
def Window.overlooked : Window → List Reference
  | .absent => []
  | .named _ => []
  | .spec _ partitionBy orderBy frame =>
    Expr.overlookedList partitionBy ++ OrderItem.overlookedList orderBy ++ frame.columns
termination_by structural w => w

end

/-! ## Read or overlooked -/

/-- Each of some columns is read or skipped, as often as it stands there. -/
def Splits (columns read skipped : List Reference) : Prop :=
  columns.Perm (read.filter Reference.isColumn ++ skipped)

variable {columns read skipped : List Reference}

namespace Splits

theorem nil : Splits [] [] [] :=
  .refl []

theorem append {columns' read' skipped' : List Reference} (h : Splits columns read skipped)
    (h' : Splits columns' read' skipped') :
    Splits (columns ++ columns') (read ++ read') (skipped ++ skipped') := by
  refine (List.Perm.append h h').trans ?_
  rw [List.filter_append, List.append_assoc, List.append_assoc]
  refine List.Perm.append_left _ ?_
  rw [← List.append_assoc, ← List.append_assoc]
  exact List.Perm.append_right _ List.perm_append_comm

theorem append_skipped (h : Splits columns read skipped) (more : List Reference) :
    Splits (columns ++ more) read (skipped ++ more) := by
  unfold Splits
  rw [← List.append_assoc]
  exact List.Perm.append_right more h

theorem skipped_append (more : List Reference) (h : Splits columns read skipped) :
    Splits (more ++ columns) read (more ++ skipped) := by
  refine (List.Perm.append_left more h).trans ?_
  rw [← List.append_assoc, ← List.append_assoc]
  exact List.Perm.append_right _ List.perm_append_comm

theorem whole (h : ∀ r ∈ columns, r.isColumn) : Splits columns columns [] := by
  unfold Splits
  rw [List.filter_eq_self.mpr h, List.append_nil]

end Splits

theorem isColumn_pathReference (parts : List Ident) : ∀ r ∈ pathReference parts, r.isColumn := by
  intro r hr
  unfold pathReference at hr
  split at hr
  · rw [List.mem_singleton.mp hr]
    rfl
  · simp at hr

theorem Atom.isColumn_columns (a : Atom) : ∀ r ∈ a.columns, r.isColumn := by
  cases a with
  | column name =>
    intro r hr
    rw [List.mem_singleton.mp hr]
    rfl
  | path parts => exact isColumn_pathReference parts
  | query q => simp [Atom.columns]

theorem Expr.isColumn_columns (e : Expr) : ∀ r ∈ e.columns, r.isColumn := by
  intro r hr
  rw [e.columns_eq] at hr
  obtain ⟨a, _, ha⟩ := List.mem_flatMap.mp hr
  exact a.isColumn_columns r ha

theorem Expr.splits_columns (e : Expr) : Splits e.columns e.columns [] :=
  .whole e.isColumn_columns

mutual

theorem Expr.splits : (e : Expr) → Splits e.columns e.references e.overlooked
  | .column name => Expr.splits_columns (.column name)
  | .path parts => Expr.splits_columns (.path parts)
  | .rowOf _ => .nil
  | .literal _ => .nil
  | .unary form operand => by
      change Splits operand.columns (if form.isOpen then operand.references else operand.columns)
        (if form.isOpen then operand.overlooked else [])
      split
      · exact operand.splits
      · exact operand.splits_columns
  | .binary form left right => by
      change Splits (left.columns ++ right.columns)
        (if form.isOpen then left.references ++ right.references else left.columns ++ right.columns)
        (if form.isOpen then left.overlooked ++ right.overlooked else [])
      split
      · exact left.splits.append right.splits
      · exact left.splits_columns.append right.splits_columns
  | .between _ e low high => (e.splits.append low.splits).append high.splits
  | .substring a e start length => Expr.splits_columns (.substring a e start length)
  | .trim a e characters => Expr.splits_columns (.trim a e characters)
  | .overlay e new start length => Expr.splits_columns (.overlay e new start length)
  | .cases operand conditions results otherwise =>
      (((Expr.splitsOption operand).append (Expr.splitsList conditions)).append
        (Expr.splitsList results)).append (Expr.splitsOption otherwise)
  | .tuple items => Expr.splitsList items
  | .slice e lower upper stride => Expr.splits_columns (.slice e lower upper stride)
  | .array named items => Expr.splits_columns (.array named items)
  | .grouping kind sets => Expr.splits_columns (.grouping kind sets)
  | .inList _ e items => e.splits.append (Expr.splitsList items)
  | .inQuery _ e _ => e.splits
  | .existence _ _ => .nil
  | .scalar _ => .nil
  | .call _ arguments filter _ window withinGroup =>
      ((arguments.splits.append (Expr.splitsOption filter)).append window.splits).append_skipped
        (OrderItem.columnsList withinGroup)

theorem Expr.splitsList : (es : List Expr) →
    Splits (Expr.columnsList es) (Expr.referencesList es) (Expr.overlookedList es)
  | [] => .nil
  | e :: es => e.splits.append (Expr.splitsList es)

theorem Expr.splitsOption : (e : Option Expr) →
    Splits (Expr.columnsOption e) (Expr.referencesOption e) (Expr.overlookedOption e)
  | none => .nil
  | some e => e.splits

theorem Arguments.splits : (a : Arguments) → Splits a.columns a.references a.overlooked
  | .absent => .nil
  | .query _ => .nil
  | .list _ items orderBy limit _ filler _ =>
      (((Argument.splitsList items).append_skipped (OrderItem.columnsList orderBy)).append_skipped
        (Expr.columnsOption limit)).append_skipped (Expr.columnsOption filler)

theorem Argument.splits : (a : Argument) → Splits a.columns a.references a.overlooked
  | .positional value => value.splits
  | .named name _ value => value.splits.skipped_append name.columns

theorem Argument.splitsList : (as : List Argument) →
    Splits (Argument.columnsList as) (Argument.referencesList as) (Argument.overlookedList as)
  | [] => .nil
  | a :: as => a.splits.append (Argument.splitsList as)

theorem ArgumentValue.splits : (v : ArgumentValue) → Splits v.columns v.references v.overlooked
  | .expr e => e.splits
  | .star => .nil
  | .starOf _ => .nil

theorem OrderItem.splits : (o : OrderItem) → Splits o.columns o.references o.overlooked
  | .mk e _ _ => e.splits

theorem OrderItem.splitsList : (os : List OrderItem) →
    Splits (OrderItem.columnsList os) (OrderItem.referencesList os) (OrderItem.overlookedList os)
  | [] => .nil
  | o :: os => o.splits.append (OrderItem.splitsList os)

theorem Window.splits : (w : Window) → Splits w.columns w.references w.overlooked
  | .absent => .nil
  | .named _ => .nil
  | .spec _ partitionBy orderBy frame =>
      ((Expr.splitsList partitionBy).append (OrderItem.splitsList orderBy)).append_skipped
        frame.columns

end

/-! ## What is forgotten -/

/-- The columns that qualification visits are those that are read and those that are overlooked,
each as often as it is written. -/
theorem Expr.columns_perm (e : Expr) :
    (e.atoms.flatMap Atom.columns).Perm
      (e.references.filter Reference.isColumn ++ e.overlooked) := by
  rw [← e.columns_eq]
  exact e.splits

/-- A column is written in an expression exactly if it is read or overlooked. -/
theorem Expr.mem_columns_iff (e : Expr) (qualifier : Option String) (name : String) :
    .column qualifier name ∈ e.atoms.flatMap Atom.columns ↔
      .column qualifier name ∈ e.references ∨ .column qualifier name ∈ e.overlooked := by
  rw [e.columns_perm.mem_iff, List.mem_append, List.mem_filter]
  simp [Reference.isColumn]

theorem Expr.isColumn_overlooked (e : Expr) : ∀ r ∈ e.overlooked, r.isColumn := by
  intro r hr
  refine e.isColumn_columns r ?_
  rw [e.columns_eq]
  exact e.columns_perm.mem_iff.mpr (List.mem_append_right _ hr)

/-- The atoms of an expression are what qualification visits in it: it succeeds exactly if each of
them can be qualified, and rewrites nothing else. Their columns are those that lineage reads
together with those that it overlooks, with all their repetitions. So lineage reads the columns that
qualification visits and no others exactly if each column that is overlooked is read as well. -/
theorem Expr.references_eq_columns_iff (e : Expr) :
    (∀ x v outputs e', e.qualify x v outputs = .ok e' ↔
      Settled x v outputs e.atoms ∧ e' = e.rewrite (x.rewriting v outputs)) ∧
    (e.atoms.flatMap Atom.columns).Perm
      (e.references.filter Reference.isColumn ++ e.overlooked) ∧
    ((∀ qualifier name, .column qualifier name ∈ e.references ↔
      .column qualifier name ∈ e.atoms.flatMap Atom.columns) ↔ e.overlooked ⊆ e.references) := by
  refine ⟨fun x v outputs e' => e.qualify_eq_ok, e.columns_perm, ?_⟩
  constructor
  · intro hall r hr
    cases r with
    | column qualifier name =>
      exact (hall qualifier name).mpr ((e.mem_columns_iff qualifier name).mpr (.inr hr))
    | scalar q => exact absurd (e.isColumn_overlooked _ hr) (by simp [Reference.isColumn])
  · intro hsub qualifier name
    rw [e.mem_columns_iff]
    exact ⟨.inl, fun h => h.elim id fun hr => hsub hr⟩

/-- `array_agg(a ORDER BY b)` -/
def Expr.orderedAggregate : Expr :=
  .call ⟨[⟨"array_agg", none⟩]⟩
    (.list .unsaid [.positional (.expr (.column ⟨"a", none⟩))]
      [.mk (.column ⟨"b", none⟩) none none] none .unsaid none ⟨.unsaid, .unsaid⟩)
    none .unsaid .absent []

/-- The order of an aggregate names a column that is visited and not read. -/
theorem Expr.references_eq_columns_iff_orderedAggregate :
    .column none "b" ∈ Expr.orderedAggregate.atoms.flatMap Atom.columns ∧
    ¬ ∀ qualifier name, .column qualifier name ∈ Expr.orderedAggregate.references ↔
      .column qualifier name ∈ Expr.orderedAggregate.atoms.flatMap Atom.columns := by
  have hlost : .column none "b" ∈ Expr.orderedAggregate.overlooked := List.mem_cons_self
  refine ⟨(Expr.mem_columns_iff _ none "b").mpr (.inr hlost), fun hall => ?_⟩
  have hread := (Expr.references_eq_columns_iff Expr.orderedAggregate).2.2.mp hall hlost
  have hreads : Expr.orderedAggregate.references = [.column none "a"] := rfl
  rw [hreads] at hread
  simp at hread

end ColumnLineage
