import ColumnLineage.Proofs.ColumnRule
import ColumnLineage.Proofs.NestedQueries
import Mathlib.Data.List.ReduceOption

/-!
# Columns of a qualified query

In a qualified query each column without a qualifier has been replaced, at any depth, by what the
rule of `resolveByHolders` says, read in the scopes that are visible where the column stands.

* `Query.columns_resolved`: those of all selects.
-/

namespace ColumnLineage

/-! ## What a select reads of each row -/

/-- The atoms in the items of a select and in its condition on rows. -/
def Select.rowAtoms (s : Select) : List Atom :=
  s.items.flatMap SelectItem.atoms ++ Expr.atomsOption s.filter

/-- The items of a select and its condition on rows are rewritten by the rule for columns, read in
some scopes. -/
structure Select.Resolved (r : Rewriting) (scopes : List Scope) (s₀ s : Select) : Prop where
  /-- Expressions are rewritten and stars expanded. -/
  items : ∃ pieces, s.items = pieces.flatten ∧ List.Forall₂ (SelectItem.Becomes r) s₀.items pieces
  filter : s.filter = Expr.rewriteOption r s₀.filter
  /-- No column is left without a qualifier. -/
  qualified : ∀ c, .column c ∉ s.rowAtoms
  /-- Each was replaced by the rule, unless letters beyond ASCII play a part. -/
  columns : ∀ c, .column c ∈ s₀.rowAtoms → (∀ scope ∈ scopes, scope.OneCase c.value) →
    resolveByHolders c scopes = .ok (r.column c)
  /-- Clauses whose queries are not looked at stay as they are. -/
  others : s = { s₀ with
    sources := s.sources, items := s.items, distinct := s.distinct, filter := s.filter,
    groupBy := s.groupBy, having := s.having }

variable {scope : Scope} {registered : List TableTree} {outputs : List String}

section selects

variable {x : Qualifier} {v : Visible}

/-- With all columns known, atoms are rewritten to atoms with qualifiers. -/
theorem Settled.not_column {atoms : List Atom} (h : Settled x v [] atoms)
    (hknown : ∀ scope ∈ v.scopes, scope.unknowns = []) (c : Ident) :
    .column c ∉ atoms.flatMap (Atom.rewrite (x.rewriting v [])) := by
  intro hc
  obtain ⟨a, ha, hc⟩ := List.mem_flatMap.mp hc
  cases a with
  | column name =>
    obtain ⟨e, he⟩ := h _ ha
    obtain ⟨owners, rfl⟩ := Visible.mergedColumn_of_qualifyColumn hknown he
    rw [Atom.rewrite, Qualifier.rewriting_column he, mergedColumn_atoms] at hc
    obtain ⟨o, -, ho⟩ := List.mem_map.mp hc
    cases ho
  | path segments =>
    obtain ⟨segments', he⟩ := v.qualifyPath_eq segments
    have hpath : (x.rewriting v []).path segments = .path segments' := he
    rw [Atom.rewrite, hpath] at hc
    cases List.mem_singleton.mp hc
  | query q => cases List.mem_singleton.mp hc

theorem SelectItem.Becomes.not_column {i : SelectItem} {items : List SelectItem}
    (h : i.Becomes (x.rewriting v []) items) (hs : Settled x v [] i.atoms)
    (hknown : ∀ scope ∈ v.scopes, scope.unknowns = []) {j : SelectItem} (hj : j ∈ items)
    (c : Ident) : .column c ∉ j.atoms := by
  have hstar : (∀ i ∈ items, i.IsExpanded) → .column c ∉ j.atoms := by
    intro hall hc
    obtain ⟨segments, he⟩ := hall j hj _ hc
    cases he
  cases i with
  | expr e label =>
    obtain ⟨name, rfl⟩ := h
    obtain rfl := List.mem_singleton.mp hj
    rw [SelectItem.atoms, e.atoms_rewrite]
    exact hs.not_column hknown c
  | star => exact hstar h
  | starOf name => exact hstar h

theorem Select.Qualified.resolved {s₀ s : Select}
    (h : Select.Qualified x v s₀ s scope registered outputs)
    (hregular : ∀ scope' ∈ scope :: v.scopes, scope'.Regular)
    (hknown : ∀ scope' ∈ scope :: v.scopes, scope'.unknowns = []) :
    Select.Resolved (x.rewriting (v.withScope scope) []) (scope :: v.scopes) s₀ s := by
  obtain ⟨hitems, pieces, hflat, hpieces⟩ := SelectItem.qualifyList_eq_ok s₀.items h.items
  obtain ⟨hrows, hfilter⟩ := (Expr.qualifyOption_eq_ok s₀.filter).mp h.filter
  refine ⟨⟨pieces, hflat, hpieces⟩, hfilter, ?_, ?_, h.others⟩
  · -- A column of the result would have to come from an atom or a star, and neither gives one.
    intro c hc
    rcases List.mem_append.mp hc with hc | hc
    · obtain ⟨j, hj, hc⟩ := List.mem_flatMap.mp hc
      rw [hflat] at hj
      obtain ⟨piece, hp, hj⟩ := List.mem_flatten.mp hj
      obtain ⟨i, hi⟩ := List.mem_iff_getElem?.mp hp
      obtain ⟨item, hitem, hbecomes⟩ := forall₂_exists_left hpieces hi
      have hsettled : Settled x (v.withScope scope) [] item.atoms := fun a ha =>
        hitems a (List.mem_flatMap.mpr ⟨item, List.mem_of_getElem? hitem, ha⟩)
      exact hbecomes.not_column hsettled hknown hj c hc
    · rw [hfilter, Expr.atomsOption_rewrite] at hc
      exact hrows.not_column hknown c hc
  · intro c hc hcase
    have hsettled : (Atom.column c).Settled x (v.withScope scope) [] := by
      rcases List.mem_append.mp hc with hc | hc
      · exact hitems _ hc
      · exact hrows _ hc
    have hscopes : ∀ scope' ∈ (v.withScope scope).scopes,
        scope'.Regular ∧ scope'.unknowns = [] ∧ scope'.OneCase c.value := fun scope' hs =>
      ⟨hregular scope' hs, hknown scope' hs, hcase scope' hs⟩
    obtain ⟨e, he⟩ := hsettled
    rw [Qualifier.rewriting_column he, ← he]
    exact (Visible.qualifyColumn_eq hscopes).symm

end selects

/-! ## The scopes in view -/

/-- All scopes in view are as tables with distinct labels make them. -/
def Visible.Regular (v : Visible) : Prop :=
  ∀ scope ∈ v.scopes, scope.Regular

/-- No two tables in a `FROM` clause of a query have the same label. -/
def Query.DistinctLabels (q : Query) : Prop :=
  ∀ s ∈ q.body.selects, (TableFactor.labels s.factors).Nodup

instance (q : Query) : Decidable q.DistinctLabels :=
  inferInstanceAs (Decidable (∀ s ∈ q.body.selects, (TableFactor.labels s.factors).Nodup))

section views

variable {x : Qualifier} {v : Visible}

theorem Visible.Regular.withScope (h : v.Regular) (hs : scope.Regular) :
    (v.withScope scope).Regular :=
  List.forall_mem_cons.mpr ⟨hs, h⟩

theorem Cte.seen_scopes (isRecursive : Bool) (v : Visible) (c : Cte) :
    (c.seen isRecursive v).scopes = v.scopes := by
  obtain ⟨label, materialized, query, source⟩ := c
  unfold Cte.seen
  dsimp only
  split <;> rfl

theorem Cte.behind_scopes (isRecursive : Bool) (v : Visible) (c : Cte) :
    (c.behind x isRecursive v).scopes = v.scopes := by
  unfold Cte.behind
  split <;> rfl

theorem Cte.nestedList_scopes {isRecursive : Bool} : (cs : List Cte) → {v : Visible} →
    ∀ p ∈ Cte.nestedList x isRecursive v cs, p.1.scopes = v.scopes
  | [], _, p, hp => by cases hp
  | c :: cs, v, p, hp => by
      rcases List.mem_cons.mp hp with rfl | hp
      · exact c.seen_scopes isRecursive v
      · rw [Cte.nestedList_scopes cs p hp, c.behind_scopes]

theorem Query.inner_scopes (v : Visible) (q : Query) : (q.inner x v).scopes = v.scopes := by
  have hfold : ∀ (cs : List Cte) (v : Visible),
      (cs.foldl (fun w c => c.behind x q.isRecursive w) v).scopes = v.scopes := by
    intro cs
    induction cs with
    | nil => exact fun _ => rfl
    | cons c cs ih =>
      intro v
      rw [List.foldl_cons, ih, c.behind_scopes]
  exact hfold q.ctes v

/-- The tables of a select make a regular scope, and so do those before each of them. -/
theorem Select.Qualified.regular {s₀ s : Select}
    (h : Select.Qualified x v s₀ s scope registered outputs)
    (hlabels : (TableFactor.labels s₀.factors).Nodup) :
    (∀ start ∈ TableTree.startsList x v {} s₀.sources, start.Regular) ∧ scope.Regular :=
  h.registers.regular Scope.regular_empty hlabels

theorem Select.Qualified.nested_regular {s₀ s : Select}
    (h : Select.Qualified x v s₀ s scope registered outputs) (hv : v.Regular)
    (hlabels : (TableFactor.labels s₀.factors).Nodup) : ∀ p ∈ s₀.nested x v, p.1.Regular := by
  obtain ⟨hstarts, hscope⟩ := h.regular hlabels
  intro p hp
  rcases List.mem_append.mp hp with hp | hp
  · obtain ⟨q, -, rfl⟩ := List.mem_map.mp hp
    rw [h.scope_eq]
    exact hv.withScope hscope
  · rw [List.reduceOption_mem_iff, ← List.map_uncurry_zip_eq_zipWith] at hp
    obtain ⟨⟨start, factor⟩, hmem, hsome⟩ := List.mem_map.mp hp
    cases factor with
    | derived lateral q label =>
      obtain rfl := Option.some.inj hsome
      cases lateral with
      | true => exact hv.withScope (hstarts start (List.of_mem_zip hmem).1)
      | false => exact hv
    | _ => cases hsome

theorem Body.Qualified.nested_regular {b₀ b : Body} (h : Body.Qualified x v b₀ b) (hv : v.Regular)
    (hlabels : ∀ s ∈ b₀.selects, (TableFactor.labels s.factors).Nodup) :
    ∀ p ∈ b₀.nested x v, p.1.Regular := by
  induction h with
  | @select s₀ s columns hs =>
    obtain ⟨registered, outputs, hsel⟩ := Select.qualify_eq_ok hs
    exact hsel.nested_regular hv (hlabels s₀ (List.mem_singleton.mpr rfl))
  | parens _ => exact fun p hp => (List.mem_singleton.mp hp) ▸ hv
  | setOperation _ _ ihl ihr =>
    obtain ⟨hll, hlr⟩ := List.forall_mem_append.mp hlabels
    exact List.forall_mem_append.mpr ⟨ihl hll, ihr hlr⟩
  | other _ _ hn =>
    rw [hn]
    exact List.forall_mem_nil _

theorem Body.behind_regular {b₀ b : Body} {columns : Columns} {scope : Option Scope}
    (h : b₀.qualify x v = .ok (b, columns, scope)) (hv : v.Regular)
    (hlabels : ∀ s ∈ b₀.selects, (TableFactor.labels s.factors).Nodup) :
    (v.behind scope).Regular := by
  cases b₀ with
  | select s₀ =>
    obtain ⟨s, own, rfl, hs, rfl⟩ := Body.qualify_select h
    obtain ⟨registered, outputs, hsel⟩ := Select.qualify_eq_ok hs
    exact hv.withScope (hsel.regular (hlabels s₀ (List.mem_singleton.mpr rfl))).2
  | _ =>
    obtain rfl := Body.scope?_of_qualify h
    exact hv

theorem Query.nested_regular {q₀ q : Query} (h : q₀.Qualifies x v q) (hv : v.Regular)
    (hlabels : q₀.DistinctLabels) : ∀ p ∈ q₀.nested x v, p.1.Regular := by
  obtain ⟨columns, h⟩ := h
  obtain ⟨inner, scope, hc, hb, -, -⟩ := Query.qualify_eq_ok h
  have hsame : q₀.inner x v = inner := (Cte.qualifyList_nested q₀.ctes hc).2
  have hinner : inner.Regular := fun scope' hs => hv scope' (by
    rwa [← hsame, q₀.inner_scopes] at hs)
  rw [Query.nested, hsame, Body.scope?_of_qualify hb]
  intro p hp
  rcases List.mem_append.mp hp with hp | hp
  · intro scope' hs
    rw [Cte.nestedList_scopes q₀.ctes p hp] at hs
    exact hv scope' hs
  · rcases List.mem_append.mp hp with hp | hp
    · exact (q₀.body.qualified_of_qualify hb).nested_regular hinner hlabels p hp
    · obtain ⟨r, -, rfl⟩ := List.mem_map.mp hp
      exact Body.behind_regular hb hinner hlabels

/-- All scopes in view are regular, if labels are distinct in each `FROM` clause. -/
theorem Qualifier.Run.regular {root result : Query} (hroot : root.Qualifies x {} result)
    (hlabels : ∀ r, root.Encloses r → r.DistinctLabels) {q₀ q : Query}
    (h : x.Run root result v q₀ q) : v.Regular := by
  induction h with
  | root => exact List.forall_mem_nil _
  | nested hrun h₀ _ ih =>
    exact Query.nested_regular (hrun.qualifies hroot) ih (hlabels _ (hrun.encloses hroot)) _
      (List.mem_of_getElem? h₀)

end views

/-! ## All selects -/

/-- If labels are distinct in each `FROM` clause, the columns without a qualifier in the items and
the row conditions of a qualified query, at any depth, have been replaced by the rule, read in the
scopes that are visible where they stand, wherever the columns of the sources in these scopes are
known. -/
theorem Query.columns_resolved {x : Qualifier} {root q : Query} (h : x.qualify root = .ok q)
    (hlabels : ∀ r, root.Encloses r → r.DistinctLabels) :
    (∀ r, q.Encloses r → ∃ v r₀, x.Run root q v r₀ r) ∧
      (∀ r₀, root.Encloses r₀ → ∃ v r, x.Run root q v r₀ r) ∧
      ∀ v r₀ r, x.Run root q v r₀ r →
        List.Forall₂ (fun s₀ s =>
            (∀ scope ∈ s₀.scope x (r₀.inner x v) :: v.scopes, scope.unknowns = []) →
              ∃ rewriting, Select.Resolved rewriting (s₀.scope x (r₀.inner x v) :: v.scopes) s₀ s)
          r₀.body.selects r.body.selects := by
  obtain ⟨⟨q', columns⟩, hroot, he⟩ := bind_eq_ok.mp h
  obtain rfl := pure_eq_ok.mp he
  have hqualifies : root.Qualifies x {} q := ⟨columns, hroot⟩
  refine ⟨fun r hr => Qualifier.run_of_result hqualifies hr,
    fun r₀ hr => Qualifier.run_of_encloses hqualifies hr, fun v r₀ r hrun => ?_⟩
  have hregular := hrun.regular hqualifies hlabels
  have hdistinct := hlabels r₀ (hrun.encloses hqualifies)
  have hselects := (List.forall₂_and_left _ _).mpr
    ⟨hdistinct, Query.qualify_selects (hrun.qualifies hqualifies)⟩
  refine hselects.imp ?_
  rintro s₀ s ⟨hdistinct₀, columns', hs⟩ hknown
  obtain ⟨registered, outputs, hsel⟩ := Select.qualify_eq_ok hs
  rw [← r₀.inner_scopes (x := x)] at hknown ⊢
  refine ⟨_, hsel.resolved ?_ hknown⟩
  refine List.forall_mem_cons.mpr ⟨(hsel.regular hdistinct₀).2, ?_⟩
  rwa [r₀.inner_scopes]

/-- A query that gives a row without values under names. -/
def nullRow (names : List String) : Query :=
  .plain [] (.select (.plain (names.map fun n => .expr (.literal .null) (some ⟨n, none⟩)) []))

def nullSource (label : String) (names : List String) : TableFactor :=
  .derived false (nullRow names) (some ⟨⟨label, none⟩, []⟩)

/-- `SELECT … FROM (SELECT NULL AS c) AS w` -/
def correlatedSelect (item : SelectItem) : Select :=
  .plain [item] [.mk (nullSource "w" ["c"]) []]

/-- `SELECT b FROM (SELECT NULL AS c) AS w` -/
def correlatedInner : Query :=
  .plain [] (.select (correlatedSelect (.expr (.column ⟨"b", none⟩) none)))

/-- `SELECT a, k, (SELECT b FROM (SELECT NULL AS c) AS w) AS n FROM (SELECT NULL AS a, NULL AS k) AS t
JOIN (SELECT NULL AS b, NULL AS k) AS u USING (k)` -/
def correlated : Query :=
  .plain [] (.select (.plain
    [.expr (.column ⟨"a", none⟩) none, .expr (.column ⟨"k", none⟩) none,
      .expr (.scalar correlatedInner) (some ⟨"n", none⟩)]
    [.mk (nullSource "t" ["a", "k"])
      [.mk false .inner (nullSource "u" ["b", "k"]) none (.using [⟨"k", none⟩])]]))

/-- The query with its columns qualified. -/
def correlatedQualified : Query :=
  ((Qualifier.qualify ⟨⟨∅⟩, ⟨none, some "s"⟩⟩ correlated).toOption).getD correlated

theorem Query.Encloses.mem {q r : Query} {all : List Query} (hq : q ∈ all)
    (hall : ∀ r ∈ all, r.queries ⊆ all) (h : q.Encloses r) : r ∈ all := by
  induction h with
  | self => exact hq
  | step _ ht ih => exact hall _ ih ht

theorem correlated_distinctLabels (r : Query) (h : correlated.Encloses r) : r.DistinctLabels := by
  let all := [correlated, correlatedInner, nullRow ["c"], nullRow ["a", "k"], nullRow ["b", "k"]]
  have hlabels : ∀ r ∈ all, r.DistinctLabels := by decide
  have hclosed : ∀ r ∈ all, r.queries ⊆ all := by
    have hqueries : all.map Query.queries = [[correlatedInner, nullRow ["a", "k"],
      nullRow ["b", "k"]], [nullRow ["c"]], [], [], []] := rfl
    intro r hr t ht
    have hmem : t ∈ (all.map Query.queries).flatten :=
      List.mem_flatten.mpr ⟨_, List.mem_map_of_mem hr, ht⟩
    rw [hqueries] at hmem
    simp only [List.flatten_cons, List.flatten_nil, List.append_nil, List.cons_append,
      List.nil_append, List.mem_cons, List.not_mem_nil, or_false] at hmem
    rcases hmem with rfl | rfl | rfl | rfl <;> simp [all]
  exact hlabels r (h.mem List.mem_cons_self hclosed)

/-- The column `b` of the inner query belongs to the source `u` of the outer one. -/
theorem Query.columns_resolved_correlated :
    Qualifier.qualify ⟨⟨∅⟩, ⟨none, some "s"⟩⟩ correlated = .ok correlatedQualified ∧
      (∀ r, correlated.Encloses r → r.DistinctLabels) ∧
      ∃ v scope rewriting,
        Qualifier.Run ⟨⟨∅⟩, ⟨none, some "s"⟩⟩ correlated correlatedQualified v correlatedInner
          (.plain [] (.select (correlatedSelect (.plain "u" "b")))) ∧
        (∀ scope' ∈ scope :: v.scopes, scope'.unknowns = []) ∧
        Select.Resolved rewriting (scope :: v.scopes)
          (correlatedSelect (.expr (.column ⟨"b", none⟩) none)) (correlatedSelect (.plain "u" "b")) := by
  have h : Qualifier.qualify ⟨⟨∅⟩, ⟨none, some "s"⟩⟩ correlated = .ok correlatedQualified :=
    eq_ok_getD (by decide)
  have hrun : Qualifier.Run ⟨⟨∅⟩, ⟨none, some "s"⟩⟩ correlated correlatedQualified _ correlatedInner
      (.plain [] (.select (correlatedSelect (.plain "u" "b")))) :=
    .nested (i := 0) .root rfl rfl
  obtain ⟨-, -, hall⟩ := Query.columns_resolved h correlated_distinctLabels
  cases hall _ _ _ hrun with
  | cons hresolved hrest =>
    obtain ⟨rewriting, hresolved⟩ := hresolved (by decide)
    exact ⟨h, correlated_distinctLabels, _, _, rewriting, hrun, by decide, hresolved⟩

end ColumnLineage
