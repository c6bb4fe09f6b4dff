import ColumnLineage.Proofs.FromClause
import ColumnLineage.Proofs.Texts
import Mathlib.Data.List.Nodup

/-!
# Whose column it is

A column without a qualifier belongs to the innermost scope in which a source has it. If one source
has it, it is a column of that source; if several do, it has to be a column that joins merge, and
all of them have to take part.
-/

namespace ColumnLineage

/-! ## The rule -/

/-- What a column without a qualifier stands for, by the sources that have it. -/
def resolveByHolders (column : Ident) : List Scope → Except QualifyError Expr
  | [] => .error (.unresolved column.value)
  | scope :: rest =>
    match scope.holders column.value with
    | [] => resolveByHolders column rest
    | [only] => .ok (qualifiedColumn only.label column)
    | several =>
      match scope.merged.get? (Text.toLower column.value) with
      | some m =>
        if several.all fun source => m.owners.contains source.label then
          .ok (mergedColumn m.owners column)
        else .error (.ambiguous column.value (several.map fun source => source.label.value))
      | none => .error (.ambiguous column.value (several.map fun source => source.label.value))

/-! ## Regular scopes -/

/-- A source has a column of these small letters, or nothing is known about its columns. -/
def Source.Gives (source : Source) (key : String) : Prop :=
  source.columns = .unknown ∨ ∃ name ∈ source.columns.names, Text.toLower name = key

/-- Different sources of a scope that give a column. -/
structure Scope.Owners (scope : Scope) (key : String) (owners : List Ident) : Prop where
  nodup : owners.Nodup
  /-- Each is a source that gives the column. -/
  gives : ∀ o ∈ owners, ∃ source ∈ scope.sources.values, source.label = o ∧ source.Gives key

/-- A scope is as tables with distinct labels make it. -/
structure Scope.Regular (scope : Scope) : Prop where
  /-- Sources stand under their labels in small letters. -/
  keyed : ∀ e ∈ scope.sources.entries, e.1 = Text.toLower e.2.label.value
  owned : ∀ e ∈ scope.merged.entries, e.2.owners ≠ []
  owners : ∀ e ∈ scope.merged.entries, scope.Owners e.1 e.2.owners

theorem Source.gives_of_contains {source : Source} {column : String}
    (h : source.columns.contains column = true) : source.Gives (Text.toLower column) := by
  unfold Columns.contains at h
  split at h
  · rename_i names hnames
    obtain ⟨name, hn, he⟩ := List.any_eq_true.mp h
    refine Or.inr ⟨name, ?_, Text.toLower_eq_of_equalIgnoringCase he⟩
    rw [hnames]
    exact hn
  · cases h

section adding

theorem Scope.addNew_cons (aliases more : List Ident) (a : Ident) :
    Scope.addNew aliases (a :: more) =
      Scope.addNew (if aliases.contains a then aliases else aliases ++ [a]) more :=
  rfl

theorem Scope.mem_addNew {o : Ident} : {aliases more : List Ident} →
    o ∈ Scope.addNew aliases more → o ∈ aliases ∨ o ∈ more
  | _, [], h => Or.inl h
  | aliases, a :: more, h => by
      rw [Scope.addNew_cons] at h
      rcases Scope.mem_addNew h with h | h
      · split at h
        · exact Or.inl h
        · rcases List.mem_append.mp h with h | h
          · exact Or.inl h
          · exact Or.inr (List.mem_cons.mpr (Or.inl (List.mem_singleton.mp h)))
      · exact Or.inr (List.mem_cons_of_mem a h)

theorem Scope.nodup_addNew : {aliases more : List Ident} → aliases.Nodup →
    (Scope.addNew aliases more).Nodup
  | _, [], h => h
  | aliases, a :: more, h => by
      rw [Scope.addNew_cons]
      refine Scope.nodup_addNew ?_
      split
      · exact h
      · rename_i hnew
        exact List.nodup_append.mpr ⟨h, List.nodup_singleton a, fun b hb c hc he =>
          hnew (List.contains_iff_mem.mpr (List.mem_singleton.mp hc ▸ he ▸ hb))⟩

end adding

namespace Scope

variable {scope : Scope}

theorem Owners.addNew {key : String} {left right : List Ident} (hl : scope.Owners key left)
    (hr : scope.Owners key right) : scope.Owners key (Scope.addNew left right) where
  nodup := nodup_addNew hl.nodup
  gives o ho := (mem_addNew ho).elim (hl.gives o) (hr.gives o)

theorem regular_empty : ({} : Scope).Regular where
  keyed e he := by simp [EmptyCollection.emptyCollection, OrderedMap.empty] at he
  owned e he := by simp [EmptyCollection.emptyCollection, OrderedMap.empty] at he
  owners e he := by simp [EmptyCollection.emptyCollection, OrderedMap.empty] at he

theorem Regular.labels_nodup (h : scope.Regular) :
    (scope.sources.values.map Source.label).Nodup := by
  have hkeys : (scope.sources.values.map Source.label).map (fun l => Text.toLower l.value) =
      scope.sources.keys := by
    rw [OrderedMap.values, List.map_map, List.map_map]
    exact List.map_congr_left fun e he => (h.keyed e he).symm
  refine List.Nodup.of_map (fun l : Ident => Text.toLower l.value) ?_
  rw [hkeys]
  exact scope.sources.nodup

/-- The aliases that a join finds in a stretch are different sources that give the column. -/
theorem Regular.owners_of_stretch (h : scope.Regular) (r : Stretch) (column : String) :
    scope.Owners (Text.toLower column) (scope.owners r column) := by
  have hin : (scope.sourcesIn r).Sublist scope.sources.values :=
    (List.take_sublist _ _).trans (List.drop_sublist _ _)
  have hpart : ∀ p : Source → Bool, (∀ source, p source = true → source.Gives (Text.toLower column)) →
      scope.Owners (Text.toLower column) (((scope.sourcesIn r).filter p).map Source.label) := by
    intro p hp
    refine ⟨h.labels_nodup.sublist ((List.filter_sublist.trans hin).map _), ?_⟩
    intro o ho
    obtain ⟨source, hs, rfl⟩ := List.mem_map.mp ho
    obtain ⟨hs, hps⟩ := List.mem_filter.mp hs
    exact ⟨source, hin.subset hs, rfl, hp source hps⟩
  have hshared : scope.Owners (Text.toLower column)
      (match scope.merged.get? (Text.toLower column) with
      | some m => m.owners.filter (scope.liesIn r)
      | none => []) := by
    cases hm : scope.merged.get? (Text.toLower column) with
    | none => exact ⟨List.nodup_nil, fun o ho => by cases ho⟩
    | some m =>
      have hown := h.owners _ (OrderedMap.mem_of_get?_eq_some hm)
      exact ⟨hown.nodup.filter _, fun o ho => hown.gives o (List.mem_of_mem_filter ho)⟩
  unfold Scope.owners
  exact iteInduction (fun _ => hshared) fun _ => iteInduction
    (fun _ => hpart _ fun source hs => Source.gives_of_contains hs)
    (fun _ => hpart _ fun source hs => Or.inl (of_decide_eq_true hs))

theorem Regular.merge (h : scope.Regular) (left right : Stretch) (column : Ident) :
    (scope.merge left right column).Regular := by
  unfold Scope.merge
  have hown := (h.owners_of_stretch left column.value).addNew (h.owners_of_stretch right column.value)
  split
  · exact h
  · rename_i owners hnil
    constructor
    · exact h.keyed
    · intro e he
      rcases mem_of_mem_putEntry he with rfl | he
      · exact hnil
      · exact h.owned e he
    · intro e he
      rcases mem_of_mem_putEntry he with rfl | he
      · exact ⟨hown.nodup, hown.gives⟩
      · exact ⟨(h.owners e he).nodup, (h.owners e he).gives⟩

theorem Regular.register (h : scope.Regular) {label : Ident}
    (hnew : Text.toLower label.value ∉ scope.sources.keys) (columns : Columns) :
    (scope.register label columns).Regular where
  keyed e he := by
    rcases mem_of_mem_putEntry he with rfl | he
    · rfl
    · exact h.keyed e he
  owned := h.owned
  owners e he := by
    refine ⟨(h.owners e he).nodup, fun o ho => ?_⟩
    obtain ⟨source, hs, hl, hg⟩ := (h.owners e he).gives o ho
    -- A source of the same label would be replaced, and the owner with it.
    obtain ⟨key, hs⟩ := OrderedMap.exists_mem_of_mem_values hs
    have hne : key ≠ Text.toLower label.value := fun hk =>
      hnew (hk ▸ List.mem_map.mpr ⟨(key, source), hs, rfl⟩)
    exact ⟨source, List.mem_map.mpr ⟨(key, source), mem_putEntry_of_ne hs hne, rfl⟩, hl, hg⟩

end Scope

/-! ## Labels -/

/-- The labels of tables in small letters. -/
def TableFactor.labels (factors : List TableFactor) : List String :=
  factors.filterMap fun f => f.label?.map fun l => Text.toLower l.value

variable {f : TableFactor}

theorem TableFactor.labels_cons_none (h : f.label? = none) (factors : List TableFactor) :
    labels (f :: factors) = labels factors := by
  rw [labels, List.filterMap_cons, h, Option.map_none, labels]

theorem TableFactor.labels_cons_some {label : Ident} (h : f.label? = some label)
    (factors : List TableFactor) :
    labels (f :: factors) = Text.toLower label.value :: labels factors := by
  rw [labels, List.filterMap_cons, h, Option.map_some, labels]

variable {scope : Scope} {factors : List TableFactor}

section registers

variable {x : Qualifier} {v : Visible}

theorem TableFactor.label_fresh {label : Ident} (h : f.label? = some label)
    (hnew : (scope.sources.keys ++ labels (f :: factors)).Nodup) :
    Text.toLower label.value ∉ scope.sources.keys := by
  intro hk
  rw [labels_cons_some h] at hnew
  exact (List.nodup_append.mp hnew).2.2 _ hk _ List.mem_cons_self rfl

theorem TableFactor.Registered.keys_append {f₀ : TableFactor} {scope' : Scope}
    (h : TableFactor.Registered x v scope f₀ f scope')
    (hnew : (scope.sources.keys ++ TableFactor.labels (f₀ :: factors)).Nodup) :
    scope'.sources.keys ++ TableFactor.labels factors =
      scope.sources.keys ++ TableFactor.labels (f₀ :: factors) := by
  obtain ⟨hl, rfl⟩ | ⟨label, columns, hl, rfl⟩ := h.eq_or_register
  · rw [labels_cons_none hl]
  · rw [Scope.register, OrderedMap.keys_insert, if_neg (label_fresh hl hnew), labels_cons_some hl,
      List.append_assoc, List.singleton_append]

/-- Tables with new and distinct labels make regular scopes from a regular one. -/
theorem Registers.regular {scope' : Scope} {factors' : List TableFactor} {starts : List Scope}
    (h : Registers x v scope factors factors' starts scope') (hscope : scope.Regular)
    (hnew : (scope.sources.keys ++ TableFactor.labels factors).Nodup) :
    (∀ start ∈ starts, start.Regular) ∧ scope'.Regular := by
  induction h with
  | nil => exact ⟨List.forall_mem_nil _, hscope⟩
  | @add scope scope₁ scope₂ factor factor' factors factors' starts hf _ ih =>
    have hnext : scope₁.Regular := by
      obtain ⟨-, rfl⟩ | ⟨label, columns, hl, rfl⟩ := hf.eq_or_register
      · exact hscope
      · exact hscope.register (TableFactor.label_fresh hl hnew) columns
    obtain ⟨hstarts, hscope'⟩ := ih hnext (hf.keys_append hnew ▸ hnew)
    exact ⟨List.forall_mem_cons.mpr ⟨hscope, hstarts⟩, hscope'⟩
  | merge _ ih =>
    refine ih (hscope.merge _ _ _) ?_
    rwa [Scope.merge_sources]

end registers

/-! ## Columns -/

/-- No source of a scope has a column that differs from this one in the case of letters beyond
ASCII only. -/
def Scope.OneCase (scope : Scope) (column : String) : Prop :=
  ∀ source ∈ scope.sources.values, ∀ name ∈ source.columns.names,
    Text.toLower name = Text.toLower column → Text.equalIgnoringCase name column = true

/-- With all columns known, the owners of a merged column have it. -/
theorem Scope.Regular.owners_subset (h : scope.Regular) (hknown : scope.unknowns = [])
    {column : String} (hcase : scope.OneCase column) {m : MergedColumn}
    (hm : scope.merged.get? (Text.toLower column) = some m) :
    m.owners ⊆ (scope.holders column).map Source.label := by
  intro o ho
  obtain ⟨source, hs, rfl, hgives⟩ :=
    (h.owners _ (OrderedMap.mem_of_get?_eq_some hm)).gives o ho
  refine List.mem_map.mpr ⟨source, List.mem_filter.mpr ⟨hs, ?_⟩, rfl⟩
  rcases hgives with hunknown | ⟨name, hn, he⟩
  · have hmem : source ∈ scope.unknowns := List.mem_filter.mpr ⟨hs, decide_eq_true hunknown⟩
    rw [hknown] at hmem
    cases hmem
  · have hcolumn := hcase source hs name hn he
    cases hc : source.columns with
    | known names =>
      rw [hc] at hn
      exact List.any_eq_true.mpr ⟨name, hn, hcolumn⟩
    | unknown =>
      rw [hc] at hn
      cases hn

theorem eq_singleton_of_subset {α : Type} {a : α} {l : List α} (hne : l ≠ []) (hnodup : l.Nodup)
    (hsub : l ⊆ [a]) : l = [a] := by
  match l with
  | [] => exact absurd rfl hne
  | [b] => rw [List.mem_singleton.mp (hsub List.mem_cons_self)]
  | b :: c :: rest =>
    have hb := List.mem_singleton.mp (hsub List.mem_cons_self)
    have hc := List.mem_singleton.mp (hsub (List.mem_cons_of_mem _ List.mem_cons_self))
    exact absurd (List.mem_cons.mpr (Or.inl (hb.trans hc.symm))) (List.nodup_cons.mp hnodup).1

/-- In regular scopes with known columns, a column is resolved by the rule. -/
theorem resolveIn_eq {column : Ident} : (scopes : List Scope) →
    (∀ scope ∈ scopes, scope.Regular ∧ scope.unknowns = [] ∧ scope.OneCase column.value) →
    resolveIn column false scopes = (resolveByHolders column scopes).map some
  | [], _ => rfl
  | scope :: rest, h => by
      obtain ⟨⟨hreg, hknown, hcase⟩, hrest⟩ := List.forall_mem_cons.mp h
      have hsub := fun m => hreg.owners_subset hknown hcase (m := m)
      have howned : ∀ m, scope.merged.get? (Text.toLower column.value) = some m →
          m.owners ≠ [] ∧ m.owners.Nodup := fun m hm =>
        ⟨hreg.owned _ (OrderedMap.mem_of_get?_eq_some hm),
          (hreg.owners _ (OrderedMap.mem_of_get?_eq_some hm)).nodup⟩
      -- The scope asks for a merged column first and the rule for sources first. They can only differ
      -- if an owner of a merged column does not have it, which `hsub` excludes.
      unfold resolveIn resolveByHolders Scope.resolve
      rw [hknown]
      dsimp only
      generalize scope.merged.get? (Text.toLower column.value) = merged at hsub howned
      generalize scope.holders column.value = found at hsub
      rcases found with _ | ⟨first, _ | ⟨second, others⟩⟩
      · cases merged with
        | none => exact resolveIn_eq rest hrest
        | some m => exact absurd (List.subset_nil.mp (hsub m rfl)) (howned m rfl).1
      · cases merged with
        | none => rfl
        | some m =>
          have hone : m.owners = [first.label] :=
            eq_singleton_of_subset (howned m rfl).1 (howned m rfl).2 (hsub m rfl)
          simp only [Option.filter, List.all_cons, List.all_nil, hone, List.contains_cons,
            BEq.rfl, Bool.true_or, Bool.and_true, if_true]
          rfl
      · cases merged with
        | none => rfl
        | some m =>
          by_cases hall : ((first :: second :: others).all fun source =>
            m.owners.contains source.label) = true
          · simp only [Option.filter, hall, if_true]
            rfl
          · simp only [Option.filter, hall, Bool.false_eq_true, if_false]
            rfl

theorem Visible.qualifyColumn_eq {v : Visible} {column : Ident}
    (h : ∀ scope ∈ v.scopes, scope.Regular ∧ scope.unknowns = [] ∧ scope.OneCase column.value) :
    v.qualifyColumn [] column = resolveByHolders column v.scopes := by
  have hresolve : resolveIn column (([] : List String).any (Text.equalIgnoringCase · column.value))
      v.scopes = (resolveByHolders column v.scopes).map some := resolveIn_eq v.scopes h
  unfold Visible.qualifyColumn
  rw [hresolve]
  cases resolveByHolders column v.scopes <;> rfl

theorem Scope.resolve_ne_keep (hknown : scope.unknowns = []) (column : Ident) :
    scope.resolve column false ≠ .keep := by
  unfold Scope.resolve
  rw [hknown]
  dsimp only
  intro h
  split at h
  · cases h
  · match hf : scope.holders column.value with
    | [] => rw [hf] at h; cases h
    | [_] => rw [hf] at h; cases h
    | _ :: _ :: _ => rw [hf] at h; cases h

/-- With all columns known, no column stays without a qualifier. -/
theorem resolveIn_ne_none {column : Ident} : (scopes : List Scope) →
    (∀ scope ∈ scopes, scope.unknowns = []) → resolveIn column false scopes ≠ .ok none
  | [], _ => by simp [resolveIn]
  | scope :: rest, h => by
      obtain ⟨hknown, hrest⟩ := List.forall_mem_cons.mp h
      have hkeep := scope.resolve_ne_keep hknown column
      unfold resolveIn
      cases hr : scope.resolve column false with
      | pass => exact resolveIn_ne_none rest hrest
      | keep => exact absurd hr hkeep
      | replace e => simp
      | clash sources => simp

theorem Visible.mergedColumn_of_qualifyColumn {v : Visible} {column : Ident} {e : Expr}
    (hknown : ∀ scope ∈ v.scopes, scope.unknowns = []) (h : v.qualifyColumn [] column = .ok e) :
    ∃ owners, e = mergedColumn owners column := by
  unfold Visible.qualifyColumn at h
  split at h
  · rename_i e' he
    cases h
    exact resolveIn_some _ he
  · rename_i hnone
    exact absurd hnone (resolveIn_ne_none v.scopes hknown)
  · cases h

end ColumnLineage
