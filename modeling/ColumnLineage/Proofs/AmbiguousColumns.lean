import ColumnLineage.Proofs.ColumnResolution

/-!
# Orders by output columns

A column without a qualifier is ambiguous if several sources of a scope have it and no join merges
it for all of them. The order of a query may name its output columns, but a name in it is looked up
among the sources of the select first. So an order by an output column is refused if that column is
ambiguous among the sources, whatever the select makes of it.

* `Query.orderByOutputs_iff`: when an order by output columns is accepted.
-/

namespace ColumnLineage

/-! ## One scope -/

/-- Several sources of a scope have a column, and no join merges it for all of them. -/
structure Scope.Ambiguous (scope : Scope) (column : String) : Prop where
  several : 1 < (scope.holders column).length
  /-- If joins merge it, one of these sources takes no part. -/
  unmerged : ∀ m, scope.merged.get? (Text.toLower column) = some m →
    ∃ source ∈ scope.holders column, source.label ∉ m.owners

/-- A scope has nothing to say about a column. -/
structure Scope.Silent (scope : Scope) (column : String) : Prop where
  holders : scope.holders column = []
  unknowns : scope.unknowns = []
  merged : scope.merged.get? (Text.toLower column) = none

namespace Scope

variable {scope : Scope} {column : Ident} {isAlias : Bool}

/-- Either the sources that have a column all take part in a merged one, or one of them does not. -/
theorem merged_or_unmerged (scope : Scope) (column : String) :
    (∃ m, scope.merged.get? (Text.toLower column) = some m ∧
        ∀ source ∈ scope.holders column, source.label ∈ m.owners) ∨
      ∀ m, scope.merged.get? (Text.toLower column) = some m →
        ∃ source ∈ scope.holders column, source.label ∉ m.owners := by
  rw [or_iff_not_imp_left]
  intro hnone m hm
  by_contra hall
  push Not at hall
  exact hnone ⟨m, hm, hall⟩

/-- If the sources that have a column all take part in a merged one, the column is that. -/
theorem resolve_of_merged {m : MergedColumn}
    (hm : scope.merged.get? (Text.toLower column.value) = some m)
    (hall : ∀ source ∈ scope.holders column.value, source.label ∈ m.owners) :
    scope.resolve column isAlias = .replace (mergedColumn m.owners column) := by
  have hcontains : ((scope.holders column.value).all fun x => m.owners.contains x.label) = true :=
    List.all_eq_true.mpr fun source hs => List.contains_iff_mem.mpr (hall source hs)
  unfold Scope.resolve
  simp only [hm, Option.filter, hcontains, if_true]

theorem resolve_of_unmerged
    (h : ∀ m, scope.merged.get? (Text.toLower column.value) = some m →
      ∃ source ∈ scope.holders column.value, source.label ∉ m.owners) :
    scope.resolve column isAlias =
      match scope.holders column.value, scope.unknowns with
      | [], [] => .pass
      | [only], [] => .replace (qualifiedColumn only.label column)
      | [], [only] => if isAlias then .keep else .replace (qualifiedColumn only.label column)
      | _ :: _ :: _, _ => .clash ((scope.holders column.value).map fun x => x.label.value)
      | _, _ => .keep := by
  have hshared : ((scope.merged.get? (Text.toLower column.value)).filter fun m =>
      (scope.holders column.value).all fun x => m.owners.contains x.label) = none := by
    rw [Option.filter_eq_none_iff]
    intro m hm hall
    obtain ⟨source, hs, hnot⟩ := h m hm
    exact hnot (List.contains_iff_mem.mp (List.all_eq_true.mp hall source hs))
  unfold Scope.resolve
  dsimp only
  split
  · rename_i m hm
    rw [hshared] at hm
    cases hm
  · rfl

theorem resolve_eq_clash_iff {sources : List String} :
    scope.resolve column isAlias = .clash sources ↔
      scope.Ambiguous column.value ∧
        sources = (scope.holders column.value).map fun x => x.label.value := by
  obtain ⟨m, hm, hall⟩ | h := scope.merged_or_unmerged column.value
  · rw [resolve_of_merged hm hall]
    refine ⟨fun he => (by cases he), ?_⟩
    rintro ⟨hambiguous, -⟩
    obtain ⟨source, hs, hnot⟩ := hambiguous.unmerged m hm
    exact absurd (hall source hs) hnot
  · rw [resolve_of_unmerged h]
    have hambiguous : scope.Ambiguous column.value ↔ 1 < (scope.holders column.value).length :=
      ⟨fun ha => ha.several, fun hl => ⟨hl, h⟩⟩
    rw [hambiguous]
    generalize scope.holders column.value = found
    generalize scope.unknowns = unknowns
    rcases found with _ | ⟨first, _ | ⟨second, others⟩⟩ <;>
      rcases unknowns with _ | ⟨only, _ | ⟨another, more⟩⟩ <;>
      cases isAlias <;> simp [eq_comm]

/-- A scope hands a column on exactly if it has nothing to say about it. -/
theorem resolve_eq_pass_iff :
    scope.resolve column isAlias = .pass ↔ scope.Silent column.value := by
  obtain ⟨m, hm, hall⟩ | h := scope.merged_or_unmerged column.value
  · rw [resolve_of_merged hm hall]
    refine ⟨fun he => (by cases he), fun hsilent => ?_⟩
    rw [hsilent.merged] at hm
    cases hm
  · rw [resolve_of_unmerged h]
    have hsilent : scope.Silent column.value ↔
        scope.holders column.value = [] ∧ scope.unknowns = [] := by
      refine ⟨fun hs => ⟨hs.holders, hs.unknowns⟩, fun ⟨hh, hu⟩ => ⟨hh, hu, ?_⟩⟩
      refine Option.eq_none_iff_forall_ne_some.mpr fun m hm => ?_
      obtain ⟨source, hs, -⟩ := h m hm
      rw [hh] at hs
      cases hs
    rw [hsilent]
    generalize scope.holders column.value = found
    generalize scope.unknowns = unknowns
    rcases found with _ | ⟨first, _ | ⟨second, others⟩⟩ <;>
      rcases unknowns with _ | ⟨only, _ | ⟨another, more⟩⟩ <;>
      cases isAlias <;> simp

end Scope

/-! ## All scopes in view -/

/-- The innermost scope that has something to say about a column finds it ambiguous. -/
def AmbiguousIn (column : String) : List Scope → Prop
  | [] => False
  | scope :: rest => scope.Ambiguous column ∨ scope.Silent column ∧ AmbiguousIn column rest

section views

variable {column : Ident}

/-- The name of an output column is refused only because it is ambiguous. -/
theorem resolveIn_alias_eq_error {e : QualifyError} : (scopes : List Scope) →
    resolveIn column true scopes = .error e → ∃ sources, e = .ambiguous column.value sources
  | [], h => by cases h
  | scope :: rest, h => by
      unfold resolveIn at h
      split at h
      · exact resolveIn_alias_eq_error rest h
      · cases h
      · cases h
      · cases h
        exact ⟨_, rfl⟩

/-- The name of an output column is accepted exactly if it is not ambiguous. -/
theorem resolveIn_alias_isOk_iff : (scopes : List Scope) →
    ((∃ r, resolveIn column true scopes = .ok r) ↔ ¬ AmbiguousIn column.value scopes)
  | [] => ⟨fun _ h => h, fun _ => ⟨none, rfl⟩⟩
  | scope :: rest => by
      unfold resolveIn AmbiguousIn
      cases hr : scope.resolve column true with
      | pass =>
        have hsilent := Scope.resolve_eq_pass_iff.mp hr
        have hclear : ¬ scope.Ambiguous column.value := fun ha => by
          have hlt := ha.several
          rw [hsilent.holders] at hlt
          cases hlt
        simp only [hclear, hsilent, true_and, false_or]
        exact resolveIn_alias_isOk_iff rest
      | clash sources =>
        have hambiguous := (Scope.resolve_eq_clash_iff.mp hr).1
        simp [hambiguous]
      | keep | replace _ =>
        have hclear : ¬ scope.Ambiguous column.value := fun ha => by
          rw [Scope.resolve_eq_clash_iff.mpr ⟨ha, rfl⟩] at hr
          cases hr
        have hloud : ¬ scope.Silent column.value := fun hs => by
          rw [Scope.resolve_eq_pass_iff.mpr hs] at hr
          cases hr
        simp [hclear, hloud]

variable {v : Visible} {outputs : List String}

theorem Visible.qualifyColumn_output_isOk_iff
    (h : outputs.any (Text.equalIgnoringCase · column.value) = true) :
    (∃ e, v.qualifyColumn outputs column = .ok e) ↔ ¬ AmbiguousIn column.value v.scopes := by
  rw [← resolveIn_alias_isOk_iff]
  unfold Visible.qualifyColumn
  rw [h]
  cases resolveIn column true v.scopes with
  | error e => simp
  | ok r => cases r <;> simp

theorem Visible.qualifyColumn_output_eq_error {e : QualifyError}
    (h : outputs.any (Text.equalIgnoringCase · column.value) = true)
    (he : v.qualifyColumn outputs column = .error e) :
    ∃ sources, e = .ambiguous column.value sources := by
  unfold Visible.qualifyColumn at he
  rw [h] at he
  split at he
  · cases he
  · cases he
  · rename_i e' hresolve
    cases he
    exact resolveIn_alias_eq_error _ hresolve

end views

/-! ## Orders -/

/-- The column without a qualifier that an item of an order is. -/
def OrderItem.column? : OrderItem → Option Ident
  | .mk (.column c) _ _ => some c
  | _ => none

/-- An item of an order is the name of an output column, ignoring the case of ASCII letters. -/
def OrderItem.NamesOutput (names : List String) (o : OrderItem) : Prop :=
  ∃ c, o.column? = some c ∧ names.any (Text.equalIgnoringCase · c.value) = true

/-- The scopes that the order of a query sees: that of its body, if it is a select, and those around
the query. -/
def Query.orderScopes (x : Qualifier) (v : Visible) (q : Query) : List Scope :=
  (q.body.scope? x (q.inner x v)).toList ++ v.scopes

section orders

variable {x : Qualifier} {v : Visible}

theorem OrderItem.column?_eq_some {o : OrderItem} {c : Ident} (h : o.column? = some c) :
    ∃ ascending nullsFirst, o = .mk (.column c) ascending nullsFirst := by
  unfold OrderItem.column? at h
  split at h
  · cases h
    exact ⟨_, _, rfl⟩
  · cases h

/-- An order by output columns can be qualified exactly if none of them is ambiguous. -/
theorem OrderItem.settled_outputs_iff {names : List String} : (items : List OrderItem) →
    (∀ o ∈ items, o.NamesOutput names) →
      (Settled x v names (OrderItem.atomsList items) ↔
        ∀ o ∈ items, ∀ c, o.column? = some c → ¬ AmbiguousIn c.value v.scopes)
  | [], _ => by simp [OrderItem.atomsList]
  | o :: items, h => by
      obtain ⟨⟨c, hc, hname⟩, hrest⟩ := List.forall_mem_cons.mp h
      obtain ⟨ascending, nullsFirst, rfl⟩ := OrderItem.column?_eq_some hc
      rw [OrderItem.atomsList, settled_append, List.forall_mem_cons,
        OrderItem.settled_outputs_iff items hrest]
      refine and_congr_left' ?_
      change Settled x v names [.column c] ↔ _
      rw [settled_singleton, Atom.Settled, Visible.qualifyColumn_output_isOk_iff hname]
      exact ⟨fun h c' hc' => Option.some.inj hc' ▸ h, fun h => h c rfl⟩

theorem OrderItem.qualifyList_outputs_eq_error {names : List String} {e : QualifyError} :
    (items : List OrderItem) → (∀ o ∈ items, o.NamesOutput names) →
      OrderItem.qualifyList x v names items = .error e → ∃ c sources, e = .ambiguous c sources
  | [], _, he => by cases he
  | o :: items, h, he => by
      obtain ⟨⟨c, hc, hname⟩, hrest⟩ := List.forall_mem_cons.mp h
      obtain ⟨ascending, nullsFirst, rfl⟩ := OrderItem.column?_eq_some hc
      change ((v.qualifyColumn names c >>= fun e => pure (.mk e ascending nullsFirst)) >>= fun o =>
        OrderItem.qualifyList x v names items >>= fun os => pure (o :: os)) = _ at he
      cases hcolumn : v.qualifyColumn names c with
      | error e' =>
        rw [hcolumn] at he
        cases he
        exact ⟨c.value, Visible.qualifyColumn_output_eq_error hname hcolumn⟩
      | ok column =>
        rw [hcolumn] at he
        change (OrderItem.qualifyList x v names items >>= _) = _ at he
        cases hitems : OrderItem.qualifyList x v names items with
        | error e' =>
          rw [hitems] at he
          cases he
          exact OrderItem.qualifyList_outputs_eq_error items hrest hitems
        | ok items' =>
          rw [hitems] at he
          cases he

theorem Query.behind_scopes (v : Visible) (q : Query) :
    ((q.inner x v).behind (q.body.scope? x (q.inner x v))).scopes = q.orderScopes x v := by
  unfold Query.orderScopes Visible.behind
  cases q.body.scope? x (q.inner x v) with
  | none => exact q.inner_scopes v
  | some scope => exact congrArg (scope :: ·) (q.inner_scopes v)

/-- A query with another order is qualified like the query without, and then its order is. -/
theorem Query.qualify_withOrder {q q' : Query} {columns : Columns}
    (h : q.qualify x v = .ok (q', columns)) (items : List OrderItem) :
    Query.qualify x v { q with orderBy := items } =
      (OrderItem.qualifyList x ((q.inner x v).behind (q.body.scope? x (q.inner x v)))
        columns.names items).map fun items' => ({ q' with orderBy := items' }, columns) := by
  obtain ⟨inner, scope, hc, hb, -, hq'⟩ := Query.qualify_eq_ok h
  have hinner : q.inner x v = inner := (Cte.qualifyList_nested q.ctes hc).2
  rw [hinner, Body.scope?_of_qualify hb, hq', Query.qualify, hc]
  change (q.body.qualify x inner >>= _) = _
  rw [hb]
  change (OrderItem.qualifyList x (inner.behind scope) columns.names items >>= _) = _
  cases OrderItem.qualifyList x (inner.behind scope) columns.names items <;> rfl

/-- Whatever is in view, let a query be qualified, with known columns. With an order by names of
these columns it is qualified exactly if none of the names is ambiguous in the scopes that the order
sees; so always if it is no select and stands in no other one. What is qualified differs in the order
only, and what is refused is refused as ambiguous. -/
theorem Query.orderByOutputs_iff {q q' : Query} {names : List String}
    (h : q.qualify x v = .ok (q', .known names)) {items : List OrderItem}
    (hitems : ∀ o ∈ items, o.NamesOutput names) :
    ((∃ r, Query.qualify x v { q with orderBy := items } = .ok r) ↔
        ∀ o ∈ items, ∀ c, o.column? = some c → ¬ AmbiguousIn c.value (q.orderScopes x v)) ∧
      ((∀ s, q.body ≠ .select s) → v.scopes = [] →
        ∃ r, Query.qualify x v { q with orderBy := items } = .ok r) ∧
      (∀ r columns, Query.qualify x v { q with orderBy := items } = .ok (r, columns) →
        r = { q' with orderBy := r.orderBy } ∧ columns = .known names) ∧
      ∀ e, Query.qualify x v { q with orderBy := items } = .error e →
        ∃ c sources, e = .ambiguous c sources := by
  have hrun := Query.qualify_withOrder h items
  have haccepted : (∃ r, Query.qualify x v { q with orderBy := items } = .ok r) ↔
      ∀ o ∈ items, ∀ c, o.column? = some c → ¬ AmbiguousIn c.value (q.orderScopes x v) := by
    rw [← Query.behind_scopes, ← OrderItem.settled_outputs_iff (x := x) items hitems, hrun]
    constructor
    · rintro ⟨r, hr⟩
      obtain ⟨items', hi, -⟩ := map_eq_ok.mp hr
      exact ((OrderItem.qualifyList_eq_ok items).mp hi).1
    · intro hs
      exact ⟨_, map_eq_ok.mpr ⟨_, (OrderItem.qualifyList_eq_ok items).mpr ⟨hs, rfl⟩, rfl⟩⟩
  refine ⟨haccepted, ?_, ?_, ?_⟩
  · intro hbody hscopes
    refine haccepted.mpr fun o _ c _ hambiguous => ?_
    have hempty : q.orderScopes x v = [] := by
      unfold Query.orderScopes
      rw [hscopes, List.append_nil]
      cases hb : q.body with
      | select s => exact absurd hb (hbody s)
      | _ => rfl
    rw [hempty] at hambiguous
    exact hambiguous
  · intro r columns hr
    rw [hrun] at hr
    obtain ⟨items', -, he⟩ := map_eq_ok.mp hr
    obtain ⟨rfl, rfl⟩ := Prod.mk.inj he
    exact ⟨rfl, rfl⟩
  · intro e he
    rw [hrun] at he
    cases hi : OrderItem.qualifyList x ((q.inner x v).behind (q.body.scope? x (q.inner x v)))
      (Columns.known names).names items with
    | error e' =>
      rw [hi] at he
      cases he
      exact OrderItem.qualifyList_outputs_eq_error items hitems hi
    | ok items' =>
      rw [hi] at he
      cases he

end orders

/-- `SELECT t.a AS a, t.b AS b FROM (SELECT NULL AS a, NULL AS b) AS t, (SELECT NULL AS a) AS u` -/
def sharedColumn : Query :=
  .plain [] (.select (.plain [.plain "t" "a", .plain "t" "b"]
    [.mk (nullSource "t" ["a", "b"]) [], .mk (nullSource "u" ["a"]) []]))

/-- With the order `B` the query is accepted. With the order `a` it is not, because both sources have
that column. -/
theorem Query.orderByOutputs_iff_shared :
    sharedColumn.qualify ⟨⟨∅⟩, {}⟩ {} = .ok (sharedColumn, .known ["a", "b"]) ∧
      (∀ name ∈ ["a", "B"], (OrderItem.mk (.column ⟨name, none⟩) none none).NamesOutput ["a", "b"]) ∧
      (∃ r, Query.qualify ⟨⟨∅⟩, {}⟩ {}
        { sharedColumn with orderBy := [.mk (.column ⟨"B", none⟩) none none] } = .ok r) ∧
      ¬ ∃ r, Query.qualify ⟨⟨∅⟩, {}⟩ {}
        { sharedColumn with orderBy := [.mk (.column ⟨"a", none⟩) none none] } = .ok r := by
  have h : sharedColumn.qualify ⟨⟨∅⟩, {}⟩ {} = .ok (sharedColumn, .known ["a", "b"]) := rfl
  have hnames : ∀ name ∈ ["a", "B"],
      (OrderItem.mk (.column ⟨name, none⟩) none none).NamesOutput ["a", "b"] := by
    intro name hname
    refine ⟨⟨name, none⟩, rfl, ?_⟩
    revert name
    decide
  have hone : ∀ name ∈ ["a", "B"], ∀ o ∈ [OrderItem.mk (.column ⟨name, none⟩) none none],
      o.NamesOutput ["a", "b"] := fun name hname o ho => List.mem_singleton.mp ho ▸ hnames name hname
  refine ⟨h, hnames, (Query.orderByOutputs_iff h (hone "B" (by simp))).1.mpr ?_, ?_⟩
  · intro o ho c hc
    obtain rfl := List.mem_singleton.mp ho
    cases hc
    rintro (hambiguous | ⟨-, hnone⟩)
    · exact absurd hambiguous.several (by decide)
    · exact hnone
  · rw [(Query.orderByOutputs_iff h (hone "a" (by simp))).1]
    intro hclear
    refine hclear _ (List.mem_singleton.mpr rfl) _ rfl (Or.inl ⟨by decide, fun m hm => ?_⟩)
    cases hm

end ColumnLineage
