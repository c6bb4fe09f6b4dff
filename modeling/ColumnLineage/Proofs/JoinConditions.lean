import ColumnLineage.Proofs.AmbiguousColumns

/-!
# Columns in the conditions of joins

A join stands between the tables on its left and the table, or the tables in parentheses, on its
right, and its condition is about these. But conditions are qualified when all tables of the `FROM`
clause are known, and they see all of them. So a column that only one of the joined tables has may
be ambiguous, because a table that comes later has it as well.

* `Query.joinColumn_iff`: when a column in the condition of a join is taken for that of the one
  joined table that has it.
-/

namespace ColumnLineage

/-! ## Joins with their sides -/

/-- A join: the tables on its left, those on its right, and its condition. -/
structure JoinSite where
  left : List TableFactor
  /-- The table that is joined, or those inside its parentheses. -/
  right : List TableFactor
  condition : JoinCondition

mutual

/-- The joins of a tree in the order in which they are made. -/
def TableTree.joinSites : TableTree → List JoinSite
  | .mk first joins => first.joinSites ++ Join.joinSitesList first.factors joins
termination_by structural t => t

/-- The joins of a list, with the tables that stand to the left of the first one. -/
def Join.joinSitesList (left : List TableFactor) : List Join → List JoinSite
  | [] => []
  | j :: js => j.joinSites left ++ Join.joinSitesList (left ++ j.factors) js
termination_by structural js => js

/-- A join, behind those inside its table. -/
def Join.joinSites (left : List TableFactor) : Join → List JoinSite
  | .mk _ _ factor _ condition => factor.joinSites ++ [⟨left, factor.factors, condition⟩]
termination_by structural j => j

/-- The joins inside the parentheses of a table. -/
def TableFactor.joinSites : TableFactor → List JoinSite
  | .nested tables _ => tables.joinSites
  | _ => []
termination_by structural f => f

end

/-- The joins in the `FROM` clause of a select. -/
def Select.joinSites (s : Select) : List JoinSite :=
  s.sources.flatMap TableTree.joinSites

/-- The sources that tables are in a scope. -/
def Scope.sourcesOf (scope : Scope) (factors : List TableFactor) : List Source :=
  factors.filterMap fun f => f.label?.bind fun l => scope.get? l.value

theorem Scope.mem_of_mem_sourcesOf {scope : Scope} {factors : List TableFactor} {source : Source}
    (h : source ∈ scope.sourcesOf factors) : source ∈ scope.sources.values := by
  obtain ⟨f, -, hf⟩ := List.mem_filterMap.mp h
  obtain ⟨l, -, hl⟩ := Option.bind_eq_some_iff.mp hf
  exact List.mem_map.mpr ⟨_, OrderedMap.mem_of_get?_eq_some hl, rfl⟩

/-! ## Their conditions -/

section conditions

variable {x : Qualifier} {v w : Visible}

/-- The condition of a join becomes that of another one. -/
def JoinSite.Qualifies (x : Qualifier) (w : Visible) (site₀ site : JoinSite) : Prop :=
  site₀.condition.qualify x w = .ok site.condition

theorem TableFactor.joinSites_eq_nil {f : TableFactor}
    (h : ∀ tables label, f ≠ .nested tables label) : f.joinSites = [] := by
  cases f with
  | nested tables label => exact absurd rfl (h tables label)
  | _ => rfl

theorem joinSiteSteps : QualifySteps x v w
    (fun _ f₀ _ f' _ => List.Forall₂ (JoinSite.Qualifies x w) f₀.joinSites f'.joinSites)
    (fun _ _ js₀ _ js' _ => ∀ left left', List.Forall₂ (JoinSite.Qualifies x w)
      (Join.joinSitesList left js₀) (Join.joinSitesList left' js'))
    (fun _ t₀ _ t' _ => List.Forall₂ (JoinSite.Qualifies x w) t₀.joinSites t'.joinSites)
    (fun _ ts₀ _ ts' _ => List.Forall₂ (JoinSite.Qualifies x w) (ts₀.flatMap TableTree.joinSites)
      (ts'.flatMap TableTree.joinSites)) where
  single hn h := by
    rw [TableFactor.joinSites_eq_nil hn, TableFactor.joinSites_eq_nil
      (TableFactor.registered_of_register hn h).not_nested]
    exact .nil
  nested ih := ih
  done _ _ := .nil
  join hc ih ihs left left' := by
    refine List.rel_append (List.rel_append ih (.cons ?_ .nil)) (ihs _ _)
    exact hc
  tree ih ihs := List.rel_append ih (ihs _ _)
  nil := .nil
  cons ih ihs := List.rel_append ih ihs

/-- In a qualified select, each join has the qualified condition. -/
theorem Select.Qualified.joinSites {s₀ s : Select} {scope : Scope} {registered : List TableTree}
    {outputs : List String} (h : Select.Qualified x v s₀ s scope registered outputs) :
    List.Forall₂ (JoinSite.Qualifies x (v.withScope scope)) s₀.joinSites s.joinSites :=
  joinSiteSteps.ofTrees h.tables h.sources

/-- The condition at the place of a condition is the rewritten one. -/
theorem Select.Qualified.condition {s₀ s : Select} {scope : Scope} {registered : List TableTree}
    {outputs : List String} (h : Select.Qualified x v s₀ s scope registered outputs)
    {site : JoinSite} (hsite : site ∈ s₀.joinSites) {e : Expr} (he : site.condition = .on e) :
    Settled x (v.withScope scope) [] e.atoms ∧
      ∃ (i : Nat) (site' : JoinSite), s₀.joinSites[i]? = some site ∧
        s.joinSites[i]? = some site' ∧
        site'.condition = .on (e.rewrite (x.rewriting (v.withScope scope) [])) := by
  obtain ⟨i, hi⟩ := List.mem_iff_getElem?.mp hsite
  obtain ⟨site', hi', hqualifies⟩ := forall₂_exists_right h.joinSites hi
  have hcondition : site.condition.qualify x (v.withScope scope) = .ok site'.condition :=
    hqualifies
  rw [he, JoinCondition.qualify] at hcondition
  obtain ⟨e', he', hcondition⟩ := bind_eq_ok.mp hcondition
  obtain ⟨hs, rfl⟩ := e.qualify_eq_ok.mp he'
  exact ⟨hs, i, site', hi, hi', pure_eq_ok.mp hcondition⟩

end conditions

/-! ## Columns of one source -/

/-- A column can only be that of one source. -/
structure Scope.SoleOwner (scope : Scope) (source : Source) (column : String) : Prop where
  holders : scope.holders column = [source]
  /-- Joins merge it with no column of another source. -/
  alone : ∀ m, scope.merged.get? (Text.toLower column) = some m → source.label ∈ m.owners →
    m.owners = [source.label]
  /-- If they do not merge it at all, the columns of all sources are known. -/
  known : scope.isMerged source.label column = false → scope.unknowns = []

section owners

variable {scope : Scope} {column : Ident} {source : Source}

theorem mergedColumn_eq_qualifiedColumn_iff {owners : List Ident} {label : Ident} :
    mergedColumn owners column = qualifiedColumn label column ↔ owners = [label] := by
  unfold mergedColumn
  split
  · simp [qualifiedColumn]
  · rename_i hne
    constructor
    · intro h
      cases h
    · intro h
      exact absurd h (hne label)

theorem Scope.isMerged_eq_false
    (h : ∀ m, scope.merged.get? (Text.toLower column.value) = some m → source.label ∉ m.owners) :
    scope.isMerged source.label column.value = false := by
  unfold Scope.isMerged
  cases hm : scope.merged.get? (Text.toLower column.value) with
  | none => rfl
  | some m => simpa using h m hm

theorem Scope.Regular.holders_nodup (h : scope.Regular) (name : String) :
    (scope.holders name).Nodup :=
  (List.Nodup.of_map _ h.labels_nodup).filter _

/-- Sources that decide take a column for that of one that has it exactly if it can only be that. -/
theorem Scope.resolve_eq_source_iff_of_unmerged (hs : source ∈ scope.holders column.value)
    (h : ∀ m, scope.merged.get? (Text.toLower column.value) = some m →
      ∃ source ∈ scope.holders column.value, source.label ∉ m.owners) :
    scope.resolve column false = .replace (qualifiedColumn source.label column) ↔
      scope.SoleOwner source column.value := by
  rw [Scope.resolve_of_unmerged h]
  constructor
  · intro hr
    rcases hfound : scope.holders column.value with _ | ⟨first, _ | ⟨second, others⟩⟩
    · rw [hfound] at hs
      cases hs
    · rw [hfound] at hs
      obtain rfl := List.mem_singleton.mp hs
      have hknown : scope.unknowns = [] := by
        rw [hfound] at hr
        cases hunknown : scope.unknowns with
        | nil => rfl
        | cons only more =>
          rw [hunknown] at hr
          cases hr
      refine ⟨hfound, fun m hm ho => ?_, fun _ => hknown⟩
      obtain ⟨other, hother, hnot⟩ := h m hm
      rw [hfound] at hother
      exact absurd (List.mem_singleton.mp hother ▸ ho) hnot
    · rw [hfound] at hr
      cases hr
  · intro hsole
    have hunmerged : ∀ m, scope.merged.get? (Text.toLower column.value) = some m →
        source.label ∉ m.owners := by
      intro m hm
      obtain ⟨other, hother, hnot⟩ := h m hm
      rw [hsole.holders] at hother
      exact List.mem_singleton.mp hother ▸ hnot
    rw [hsole.holders, hsole.known (Scope.isMerged_eq_false hunmerged)]

/-- A merged column is that of one source exactly if it can only be that. -/
theorem Scope.Regular.resolve_eq_source_iff_of_merged (hregular : scope.Regular)
    (hs : source ∈ scope.holders column.value) {m : MergedColumn}
    (hm : scope.merged.get? (Text.toLower column.value) = some m)
    (hall : ∀ source ∈ scope.holders column.value, source.label ∈ m.owners) :
    scope.resolve column false = .replace (qualifiedColumn source.label column) ↔
      scope.SoleOwner source column.value := by
  rw [Scope.resolve_of_merged hm hall, Resolution.replace.injEq,
    mergedColumn_eq_qualifiedColumn_iff]
  constructor
  · intro howners
    -- All that have the column have the same label, so they are one source.
    have hsub : scope.holders column.value ⊆ [source] := by
      intro other hother
      have hlabel := hall other hother
      rw [howners, List.mem_singleton] at hlabel
      exact List.mem_singleton.mpr (List.inj_on_of_nodup_map hregular.labels_nodup
        (List.mem_of_mem_filter hother) (List.mem_of_mem_filter hs) hlabel)
    refine ⟨eq_singleton_of_subset (List.ne_nil_of_mem hs) (hregular.holders_nodup _) hsub, ?_, ?_⟩
    · intro m' hm' _
      rw [hm] at hm'
      cases hm'
      exact howners
    · intro hmerged
      rw [Scope.isMerged, hm] at hmerged
      simp [howners] at hmerged
  · intro hsole
    exact hsole.alone m hm (hall source hs)

/-- A column is taken for that of a source that has it exactly if it can only be that. -/
theorem Scope.Regular.resolve_eq_source_iff (hregular : scope.Regular)
    (hs : source ∈ scope.holders column.value) :
    scope.resolve column false = .replace (qualifiedColumn source.label column) ↔
      scope.SoleOwner source column.value := by
  obtain ⟨m, hm, hall⟩ | h := scope.merged_or_unmerged column.value
  · exact hregular.resolve_eq_source_iff_of_merged hs hm hall
  · exact Scope.resolve_eq_source_iff_of_unmerged hs h

theorem Visible.qualifyColumn_withScope (v : Visible) (scope : Scope) (column : Ident) :
    (v.withScope scope).qualifyColumn [] column =
      match scope.resolve column false with
      | .pass => v.qualifyColumn [] column
      | .keep => .ok (.column column)
      | .replace e => .ok e
      | .clash sources => .error (.ambiguous column.value sources) := by
  simp only [Visible.qualifyColumn, Visible.withScope, resolveIn, List.any_nil]
  cases scope.resolve column false <;> rfl

variable {v : Visible}

/-- In view of the sources, a column is taken for that of one that has it exactly if it can only be
that, whatever else is in view. -/
theorem Scope.Regular.qualifyColumn_eq_source_iff (hregular : scope.Regular)
    (hs : source ∈ scope.holders column.value) :
    (v.withScope scope).qualifyColumn [] column = .ok (qualifiedColumn source.label column) ↔
      scope.SoleOwner source column.value := by
  rw [← hregular.resolve_eq_source_iff hs, Visible.qualifyColumn_withScope]
  cases hr : scope.resolve column false with
  | pass =>
    rw [(Scope.resolve_eq_pass_iff.mp hr).holders] at hs
    cases hs
  | keep => simp [qualifiedColumn]
  | replace e => simp
  | clash sources => simp

theorem Scope.qualifyColumn_eq_error_iff (hs : source ∈ scope.holders column.value) :
    (∃ e, (v.withScope scope).qualifyColumn [] column = .error e) ↔
      scope.Ambiguous column.value := by
  rw [Visible.qualifyColumn_withScope]
  cases hr : scope.resolve column false with
  | pass =>
    rw [(Scope.resolve_eq_pass_iff.mp hr).holders] at hs
    cases hs
  | clash sources => simpa using (Scope.resolve_eq_clash_iff.mp hr).1
  | keep | replace _ =>
    refine ⟨by simp, fun ha => ?_⟩
    rw [Scope.resolve_eq_clash_iff.mpr ⟨ha, rfl⟩] at hr
    cases hr

/-- With all columns known, a column can only be that of a source if no other source has it. -/
theorem Scope.Regular.soleOwner_iff (hregular : scope.Regular) (hknown : scope.unknowns = [])
    {name : String} (hcase : scope.OneCase name) (hs : source ∈ scope.holders name) :
    scope.SoleOwner source name ↔
      ∀ other ∈ scope.sources.values, other.columns.contains name = true → other = source := by
  constructor
  · intro hsole other hother hcontains
    have hmem : other ∈ scope.holders name := List.mem_filter.mpr ⟨hother, hcontains⟩
    rw [hsole.holders] at hmem
    exact List.mem_singleton.mp hmem
  · intro hall
    have hsub : scope.holders name ⊆ [source] := fun other hother =>
      List.mem_singleton.mpr (hall other (List.mem_of_mem_filter hother)
        (List.mem_filter.mp hother).2)
    have hholders := eq_singleton_of_subset (List.ne_nil_of_mem hs) (hregular.holders_nodup _) hsub
    refine ⟨hholders, fun m hm _ => ?_, fun _ => hknown⟩
    have howners := hregular.owners_subset hknown hcase hm
    rw [hholders] at howners
    exact eq_singleton_of_subset (hregular.owned _ (OrderedMap.mem_of_get?_eq_some hm))
      (hregular.owners _ (OrderedMap.mem_of_get?_eq_some hm)).nodup howners

end owners

/-! ## Conditions -/

/-- Whatever is in view of a query, let the `FROM` clause of one of its selects have distinct labels
and make a scope, and let just one of the tables that a join has on its two sides have a column of
the join's condition. The column is taken for that of this table exactly if it can only be that among
all tables of the clause; so, with all columns known, exactly if no other table of the whole clause
has it. It is refused, and the query with it, if it is ambiguous among all of them, and for no other
reason. If the query is qualified, the condition stands at its place with the column replaced. -/
theorem Query.joinColumn_iff {x : Qualifier} {v : Visible} {q : Query} {s₀ : Select}
    (hs₀ : s₀ ∈ q.body.selects) {registered : List TableTree} {scope : Scope}
    (hfrom : TableTree.registerList x (q.inner x v) {} s₀.sources = .ok (registered, scope))
    (hlabels : (TableFactor.labels s₀.factors).Nodup) {site : JoinSite}
    (hsite : site ∈ s₀.joinSites) {e : Expr} (he : site.condition = .on e) {c : Ident}
    (hc : .column c ∈ e.atoms) {only : Source}
    (honly : (scope.sourcesOf (site.left ++ site.right)).filter
      (fun source => source.columns.contains c.value) = [only]) :
    (((q.inner x v).withScope scope).qualifyColumn [] c = .ok (qualifiedColumn only.label c) ↔
        scope.SoleOwner only c.value) ∧
      (scope.unknowns = [] → scope.OneCase c.value →
        (((q.inner x v).withScope scope).qualifyColumn [] c = .ok (qualifiedColumn only.label c) ↔
          ∀ other ∈ scope.sources.values, other.columns.contains c.value = true → other = only)) ∧
      ((∃ fault, ((q.inner x v).withScope scope).qualifyColumn [] c = .error fault) ↔
        scope.Ambiguous c.value) ∧
      (scope.Ambiguous c.value → ∀ r, q.qualify x v ≠ .ok r) ∧
      ∀ q' columns, q.qualify x v = .ok (q', columns) →
        ∃ (k : Nat) (s : Select) (i : Nat) (site' : JoinSite) (r : Rewriting),
          q.body.selects[k]? = some s₀ ∧ q'.body.selects[k]? = some s ∧
          s₀.joinSites[i]? = some site ∧ s.joinSites[i]? = some site' ∧
          site'.condition = .on (e.rewrite r) ∧
          ((q.inner x v).withScope scope).qualifyColumn [] c = .ok (r.column c) := by
  have hregular : scope.Regular :=
    ((TableTree.registersList s₀.sources hfrom).regular Scope.regular_empty hlabels).2
  have hholder : only ∈ scope.holders c.value := by
    have hmem : only ∈ (scope.sourcesOf (site.left ++ site.right)).filter
        (fun source => source.columns.contains c.value) := honly ▸ List.mem_singleton.mpr rfl
    obtain ⟨hmem, hcontains⟩ := List.mem_filter.mp hmem
    exact List.mem_filter.mpr ⟨Scope.mem_of_mem_sourcesOf hmem, hcontains⟩
  have htaken := hregular.qualifyColumn_eq_source_iff (v := q.inner x v) hholder
  have hrefused := Scope.qualifyColumn_eq_error_iff (v := q.inner x v) hholder
  have hplace : ∀ q' columns, q.qualify x v = .ok (q', columns) →
      ∃ (k : Nat) (s : Select) (i : Nat) (site' : JoinSite) (r : Rewriting),
        q.body.selects[k]? = some s₀ ∧ q'.body.selects[k]? = some s ∧
        s₀.joinSites[i]? = some site ∧ s.joinSites[i]? = some site' ∧
        site'.condition = .on (e.rewrite r) ∧
        ((q.inner x v).withScope scope).qualifyColumn [] c = .ok (r.column c) := by
    intro q' columns hq
    obtain ⟨k, hk⟩ := List.mem_iff_getElem?.mp hs₀
    obtain ⟨s, hk', given, hs⟩ := forall₂_exists_right (Query.qualify_selects ⟨columns, hq⟩) hk
    obtain ⟨registered', outputs, hsel⟩ := Select.qualify_eq_ok hs
    have hscope := hsel.tables
    rw [hfrom] at hscope
    obtain ⟨rfl, rfl⟩ := Prod.mk.inj (ok_eq_ok.mp hscope)
    obtain ⟨hsettled, i, site', hi, hi', hcondition⟩ := hsel.condition hsite he
    obtain ⟨column, hcolumn⟩ := hsettled _ hc
    exact ⟨k, s, i, site', _, hk, hk', hi, hi', hcondition,
      by rw [Qualifier.rewriting_column hcolumn, hcolumn]⟩
  refine ⟨htaken, fun hknown hcase => ?_, hrefused, fun hambiguous r hr => ?_, hplace⟩
  · rw [htaken, hregular.soleOwner_iff hknown hcase hholder]
  · obtain ⟨k, s, i, site', rewriting, -, -, -, -, -, hcolumn⟩ := hplace r.1 r.2 hr
    obtain ⟨fault, hfault⟩ := hrefused.mpr hambiguous
    rw [hcolumn] at hfault
    cases hfault

/-- `SELECT t.b AS b FROM (SELECT NULL AS b) AS t JOIN (SELECT NULL AS d) AS u ON b = d
JOIN (SELECT NULL AS d) AS w ON u.d = w.d` -/
def laterNamesake : Select :=
  .plain [.plain "t" "b"] [.mk (nullSource "t" ["b"])
    [.mk false .inner (nullSource "u" ["d"]) none
        (.on (.binary (.operator "=") (.column ⟨"b", none⟩) (.column ⟨"d", none⟩))),
      .mk false .inner (nullSource "w" ["d"]) none
        (.on (.binary (.operator "=") (.path [⟨"u", none⟩, ⟨"d", none⟩])
          (.path [⟨"w", none⟩, ⟨"d", none⟩])))]]

/-- In the first condition `b` is taken for the column of `t`. But `d`, which only `u` has among the
tables that are joined there, is refused because of `w`, and the query with it. -/
theorem Query.joinColumn_iff_laterNamesake :
    TableTree.registerList ⟨⟨∅⟩, {}⟩ {} {} laterNamesake.sources =
        .ok (laterNamesake.sources, laterNamesake.scope ⟨⟨∅⟩, {}⟩ {}) ∧
      (TableFactor.labels laterNamesake.factors).Nodup ∧
      (({} : Visible).withScope (laterNamesake.scope ⟨⟨∅⟩, {}⟩ {})).qualifyColumn [] ⟨"b", none⟩ =
        .ok (qualifiedColumn ⟨"t", none⟩ ⟨"b", none⟩) ∧
      ∀ r, (Query.plain [] (.select laterNamesake)).qualify ⟨⟨∅⟩, {}⟩ {} ≠ .ok r := by
  have hfrom : TableTree.registerList ⟨⟨∅⟩, {}⟩ {} {} laterNamesake.sources =
      .ok (laterNamesake.sources, laterNamesake.scope ⟨⟨∅⟩, {}⟩ {}) := rfl
  have hlabels : (TableFactor.labels laterNamesake.factors).Nodup := by decide
  have hmem : laterNamesake ∈ (Query.plain [] (.select laterNamesake)).body.selects :=
    List.mem_singleton.mpr rfl
  have hsite : ⟨[nullSource "t" ["b"]], [nullSource "u" ["d"]],
      .on (.binary (.operator "=") (.column ⟨"b", none⟩) (.column ⟨"d", none⟩))⟩ ∈
        laterNamesake.joinSites := List.mem_cons_self
  let joined : List TableFactor := [nullSource "t" ["b"]] ++ [nullSource "u" ["d"]]
  have hb₀ : ((laterNamesake.scope ⟨⟨∅⟩, {}⟩ {}).sourcesOf joined).filter
      (fun source => source.columns.contains "b") = [⟨⟨"t", none⟩, .known ["b"]⟩] := rfl
  have hd₀ : ((laterNamesake.scope ⟨⟨∅⟩, {}⟩ {}).sourcesOf joined).filter
      (fun source => source.columns.contains "d") = [⟨⟨"u", none⟩, .known ["d"]⟩] := rfl
  have hb := Query.joinColumn_iff (v := {}) hmem hfrom hlabels hsite rfl (c := ⟨"b", none⟩)
    List.mem_cons_self hb₀
  have hd := Query.joinColumn_iff (v := {}) hmem hfrom hlabels hsite rfl (c := ⟨"d", none⟩)
    (List.mem_cons_of_mem _ List.mem_cons_self) hd₀
  refine ⟨hfrom, hlabels, hb.1.mpr ⟨rfl, fun m hm => ?_, fun _ => rfl⟩,
    hd.2.2.2.1 ⟨by decide, fun m hm => ?_⟩⟩
  · cases hm
  · cases hm

end ColumnLineage
