import ColumnLineage.Proofs.DirectLineage
import ColumnLineage.Proofs.DistinctNames
import ColumnLineage.Proofs.NameCompletion
import ColumnLineage.Proofs.QualifierRun
import ColumnLineage.Proofs.Texts

/-!
# What bare names mean

A qualifier that has a default schema leaves a table with a bare name only if it takes it for a
common table. If the names of common tables are words and no two are declared with the same name,
such a table means one declaration, however many common tables a builder has at hand.
-/

namespace ColumnLineage

/-! ## Bare names -/

/-- A name is taken for a common table if it is bare and one of that name is in view. -/
theorem Visible.cteOf?_isSome {v : Visible} {name : ObjectName} : (v.cteOf? name).isSome ↔
    ∃ only, name.parts = [only] ∧ ∃ n ∈ v.cteNames, Text.equalIgnoringCase n only.value := by
  obtain ⟨parts⟩ := name
  match parts with
  | [] => simp [Visible.cteOf?]
  | _ :: _ :: _ => simp [Visible.cteOf?]
  | [only] => simp [Visible.cteOf?, Visible.cteColumns?, Visible.cteNames]

variable {s : Spot}

/-- What a table of a select was before it was qualified, and what was in view then. -/
theorem Query.written_of_at? {x : Qualifier} {root q : Query} (h : x.qualify root = .ok q)
    {place : Place} {select : Select} {i : Nat} {name : ObjectName} {numbered : Bool}
    {label : Option TableAlias} {hints : List Expr} (hat : q.at? place = some s)
    (hb : s.body = .select select)
    (hf : select.factors[i]? = some (.table name numbered label hints)) :
    ∃ v s₀ written, BodyRan x root place v (.select s₀) (.select select) ∧
      v.cteNames = s.env.names ∧ s₀.factors[i]? = some (.table written numbered label hints) ∧
      name = if (v.cteOf? written).isSome then written else written.complete x.defaults := by
  obtain ⟨⟨v, b₀, hran, hv⟩, -⟩ := Query.ran_of_at? h hat
  rw [Query.place_of_at? hat, hb] at hran
  obtain ⟨columns, scope, hqualify⟩ := hran.qualify
  obtain ⟨s₀, own, rfl, hsel⟩ := Body.select_of_qualify hqualify
  obtain ⟨registered, outputs, hsel⟩ := Select.qualify_eq_ok hsel
  obtain ⟨f₀, hf₀, start, next, hreg⟩ := forall₂_exists_left hsel.factors hf
  cases hreg with
  | table _ => exact ⟨v, s₀, _, hran, hv, hf₀, rfl⟩
  | other ht _ _ _ => exact absurd rfl (ht _ _ _ _)

/-! ## Words -/

def Reference.words : Reference → List String
  | .column qualifier name => qualifier.toList ++ [name]
  | .scalar _ => []

/-- The names in an item of a select by which columns are found. -/
def SelectItem.words : SelectItem → List String
  | .starOf name => (name.parts.getLast?.map Ident.value).toList
  | item => item.references.flatMap Reference.words

/-- The name by which columns of a table are qualified. -/
def TableFactor.words : TableFactor → List String
  | .table name _ label _ =>
    [(label.map fun a => a.name.value).getD (TableReference.ofObjectName name).name]
  | .tableFunction name _ _ label _ =>
    [(label.map fun a => a.name.value).getD (TableReference.ofObjectName name).name]
  | .lateralFunction _ _ label => (label.map fun a => a.name.value).toList
  | .tableOf _ label => (label.map fun a => a.name.value).toList
  | .unnest _ _ label _ => (label.map fun a => a.name.value).toList
  | .derived _ _ label => (label.map fun a => a.name.value).toList
  | _ => []

/-- The names in a select by which columns are found. -/
def Select.words (s : Select) : List String :=
  s.items.flatMap SelectItem.words ++ s.factors.flatMap TableFactor.words

/-- The names of the common tables that a query declares, and those in its selects. -/
def Part.words : Part → List String
  | .query q => q.ctes.map (·.name.value) ++ q.body.selects.flatMap Select.words
  | .table _ _ => []

/-- The names in a query, at any depth, by which columns and common tables are found. -/
def Query.words (q : Query) : List String :=
  q.parts.flatMap Part.words

def Query.Folded (q : Query) : Prop :=
  ∀ w ∈ q.words, PlainWord w

instance (q : Query) : Decidable q.Folded :=
  inferInstanceAs (Decidable (∀ w ∈ q.words, PlainWord w))

theorem Query.Folded.select {q : Query} (h : q.Folded) {place : Place} {select : Select}
    (hat : q.at? place = some s) (hb : s.body = .select select) {w : String}
    (hw : w ∈ select.words) : PlainWord w := by
  obtain ⟨inner, hi, hsel⟩ := (Query.within_of_at? hat).selects
  have hmem : select ∈ inner.body.selects := by
    apply hsel
    rw [hb]
    exact List.mem_singleton_self select
  refine h w (List.mem_flatMap.mpr ⟨_, hi, List.mem_append_right _ ?_⟩)
  exact List.mem_flatMap.mpr ⟨select, hmem, hw⟩

theorem Query.Folded.declaration {q : Query} (h : q.Folded) {place : Place}
    (hat : q.at? place = some s) {d : Declaration} (hd : d ∈ s.env) :
    PlainWord d.cte.name.value := by
  obtain ⟨inner, hi, hc⟩ := (Query.within_of_at? hat).ctes d hd
  refine h _ (List.mem_flatMap.mpr ⟨_, hi inner.mem_parts_self, List.mem_append_left _ ?_⟩)
  exact List.mem_map.mpr ⟨d.cte, hc, rfl⟩

/-! ## Unambiguous queries -/

/-- A query in which every bare name means one declaration. -/
structure Query.Unambiguous (q : Query) : Prop where
  folded : q.Folded
  /-- No two common tables have the same name. -/
  distinct : q.cteNames.Nodup
  /-- A table with a bare name is a visible common table. -/
  bound : ∀ {place : Place} {s : Spot} {select : Select} {i : Nat} {name : ObjectName}
    {numbered : Bool} {label : Option TableAlias} {hints : List Expr}, q.at? place = some s →
      s.body = .select select → select.factors[i]? = some (.table name numbered label hints) →
      (TableReference.ofObjectName name).isBare →
      (s.binding? (.ofObjectName name)).isSome

/-- A qualifier with a default schema settles what bare names mean. -/
theorem Query.settled_of_qualify {x : Qualifier} {root q : Query} (h : x.qualify root = .ok q)
    (hschema : x.defaults.schema.isSome) (hnamed : ∀ t ∈ root.allTables, t.1.parts ≠ [])
    (hfolded : q.Folded) (hdistinct : q.cteNames.Nodup) : q.Unambiguous where
  folded := hfolded
  distinct := hdistinct
  bound := by
    intro place s select i name numbered label hints hat hb hf hbare
    obtain ⟨v, s₀, written, hran, hv, hf₀, hname⟩ := Query.written_of_at? h hat hb hf
    have hwritten : (written, label) ∈ root.allTables := by
      refine List.mem_filterMap.mpr ⟨.table written label, hran.parts ?_, rfl⟩
      exact Select.factor_parts hf₀ (by simp [TableFactor.parts])
    by_cases hcte : (v.cteOf? written).isSome
    · rw [if_pos hcte] at hname
      obtain ⟨only, hparts, n, hn, heq⟩ := Visible.cteOf?_isSome.mp hcte
      rw [hv] at hn
      obtain ⟨d, hd, rfl⟩ := List.mem_map.mp hn
      rw [(hfolded.declaration hat hd).lower] at heq
      have hr : TableReference.ofObjectName name = ⟨none, none, only.value⟩ := by
        rw [hname, TableReference.ofObjectName_single hparts]
      cases hfind : s.env.named? only.value with
      | some found => simp [Spot.binding?, hr, TableReference.isBare, hfind]
      | none => exact absurd heq (Env.find?_eq_none.mp hfind d hd)
    · rw [if_neg hcte] at hname
      rw [hname, ObjectName.not_isBare_complete (hnamed _ hwritten) hschema] at hbare
      cases hbare

/-! ## Sole owners -/

theorem soleOwner?_eq (catalog : Catalog) (sources : SourceMap) (column : String) :
    soleOwner? catalog sources column = (sole? sources.values).or
      (sole? (sources.values.filter fun x => ownsColumn catalog column x.2)) := by
  unfold soleOwner?
  split
  · rename_i only hv
    rw [hv]
    rfl
  · rename_i values hv
    have hnone : sole? sources.values = none := by
      unfold sole?
      split
      · rename_i only hs
        exact absurd hs (hv only)
      · rfl
    rw [hnone, Option.none_or]
    rcases sources.values.filter _ with _ | ⟨_, _ | ⟨_, _⟩⟩ <;> rfl

theorem sole?_rel {α β : Type} {R : α → β → Prop} {as : List α} {bs : List β}
    (h : List.Forall₂ R as bs) : Option.Rel R (sole? as) (sole? bs) := by
  rcases h with _ | ⟨hab, _ | ⟨_, _⟩⟩
  · exact .none
  · exact .some hab
  · exact .none

variable {b : PlacedBody}

namespace Query.Unambiguous

variable {q : Query}

theorem visibleCte?_of_binding? (hq : q.Unambiguous) (h : Follows q b s) {r : TableReference}
    {d : Declaration} {seen : Env} (hb : s.binding? r = some (d, seen)) :
    visibleCte? b.ctes r = some d.placed := by
  unfold Spot.binding? at hb
  split at hb
  · rename_i hbare
    unfold visibleCte?
    rw [if_pos hbare]
    have hd : d ∈ s.env := Env.mem_of_find? hb
    have hfits := Env.fits_of_find? hb
    have hmem : d.placed ∈ b.ctes := h.visible.subset (List.mem_map.mpr ⟨d, hd, rfl⟩)
    cases hfind : b.ctes.find? fun c => Text.equalIgnoringCase c.cte.name.value r.name with
    | none => exact absurd hfits (List.find?_eq_none.mp hfind d.placed hmem)
    | some c =>
      -- Both have the name in small letters, and there is one declaration of it.
      have hfits' : Text.equalIgnoringCase c.cte.name.value r.name := by
        simpa using List.find?_some hfind
      have hname : c.cte.lowerName = d.placed.cte.lowerName :=
        (Text.toLower_eq_of_equalIgnoringCase hfits').trans
          (Text.toLower_eq_of_equalIgnoringCase hfits).symm
      obtain ⟨place, t, hat, hc⟩ := h.stacked.declared c (List.mem_of_find?_eq_some hfind)
      obtain ⟨e, he, rfl⟩ := List.mem_map.mp hc
      have hdeclared := (Query.reached_of_at? hat).env e he
      have hdeclared' := (Query.reached_of_at? h.at_place).env d hd
      rw [Query.placed_eq_of_name hq.distinct hdeclared hdeclared' hname]
  · cases hb

theorem follows_of_binding? (hq : q.Unambiguous) (h : Follows q b s) {r : TableReference}
    {d : Declaration} {seen : Env} (hb : s.binding? r = some (d, seen)) :
    Follows q (d.cte.query.placed d.place b.ctes) (d.cte.query.spot d.place seen) := by
  have hfound := hq.visibleCte?_of_binding? h hb
  unfold Spot.binding? at hb
  unfold visibleCte? at hfound
  split at hb
  · rename_i hbare
    rw [if_pos hbare] at hfound
    obtain ⟨hat, -⟩ := (Query.coherent_of_at? h.at_place).find? hb
    obtain ⟨seen', hc⟩ := h.cte (List.mem_of_find?_eq_some hfound)
    have hspot : d.cte.query.spot d.place seen = d.cte.query.spot d.place seen' :=
      Option.some.inj (hat.symm.trans hc.at_place)
    rw [hspot]
    exact hc
  · cases hb

/-! ## Sources -/

/-- A source that a builder finds is a lexical source. -/
inductive SourceRel (q : Query) : SelectSource → LexicalSource → Prop
  | table {r : TableReference} (h : r.isBare = false) : SourceRel q (.table r) (.table r)
  | query {b : PlacedBody} {s : Spot} (declared : List String) (h : Follows q b s) :
    SourceRel q (.query b declared) (.query s declared)
  | function : SourceRel q .function .function

theorem sourceOf?_rel (hq : q.Unambiguous) (h : Follows q b s) {select : Select}
    (hb : b.body = .select select) {i : Nat} {factor : TableFactor}
    (hf : select.factors[i]? = some factor) :
    Option.Rel (EntryRel (SourceRel q)) (sourceOf? b.place b.ctes i factor)
      (s.sourceOf? i factor) := by
  have hlabel : ∀ label : Option TableAlias, Option.Rel (EntryRel (SourceRel q))
      (label.map fun a => (a.name.value, SelectSource.function))
      (label.map fun a => (a.name.value, LexicalSource.function)) := by
    intro label
    cases label with
    | none => exact .none
    | some a => exact .some ⟨rfl, .function⟩
  cases factor with
  | table name numbered label hints =>
    simp only [sourceOf?, Spot.sourceOf?]
    cases hbind : s.binding? (.ofObjectName name) with
    | some found =>
      obtain ⟨d, seen⟩ := found
      rw [hq.visibleCte?_of_binding? h hbind]
      exact .some ⟨rfl, .query _ (hq.follows_of_binding? h hbind)⟩
    | none =>
      have hbare : (TableReference.ofObjectName name).isBare = false := by
        cases hbare : (TableReference.ofObjectName name).isBare with
        | false => rfl
        | true =>
          have hsome := hq.bound h.at_place (h.body_eq.trans hb) hf hbare
          rw [hbind] at hsome
          cases hsome
      simp only [visibleCte?, hbare, Bool.false_eq_true, if_false]
      exact .some ⟨rfl, .table hbare⟩
  | tableFunction name arguments numbered label hints => exact .some ⟨rfl, .function⟩
  | lateralFunction name arguments label => exact hlabel label
  | tableOf e label => exact hlabel label
  | unnest arrays numbered label offset => exact hlabel label
  | derived lateral inner label =>
    cases label with
    | none => exact .none
    | some a => exact .some ⟨rfl, .query _ (h.derived hb hf)⟩
  | nested tables label => exact .none
  | document opening e rest label => exact .none
  | pivot table aggregates column values otherwise label => exact .none
  | unpivot table value name columns label => exact .none

theorem sources_rel (hq : q.Unambiguous) (h : Follows q b s) {select : Select}
    (hb : b.body = .select select) :
    List.Forall₂ (EntryRel (EntryRel (SourceRel q))) (sourceMap b.place b.ctes select).entries
      (s.sources select).entries := by
  refine OrderedMap.forall₂_ofList (forall₂_filterMap ?_)
  rintro ⟨factor, i⟩ hf
  have hrel := hq.sourceOf?_rel h hb (List.mem_zipIdx_iff_getElem?.mp hf)
  dsimp only
  generalize sourceOf? b.place b.ctes i factor = found at hrel
  generalize s.sourceOf? i factor = found' at hrel
  cases hrel with
  | none => exact .none
  | @some x y hxy =>
    obtain ⟨hl, hs⟩ := hxy
    exact .some ⟨congrArg Text.toLower hl, hl, hs⟩

theorem ownsColumn_eq {catalog : Catalog} {column : String} {source : SelectSource}
    {source' : LexicalSource} (h : SourceRel q source source') :
    ownsColumn catalog column source = source'.owns catalog column := by
  cases h <;> rfl

theorem sourceFor?_rel (hq : q.Unambiguous) (h : Follows q b s) {select : Select}
    (hb : b.body = .select select) (catalog : Catalog) (qualifier : Option String)
    (column : String) :
    Option.Rel (EntryRel (SourceRel q))
      (SelectView.sourceOf? ⟨b.place, b.ctes, sourceMap b.place b.ctes select⟩ catalog qualifier
        column)
      (s.sourceFor? catalog select qualifier column) := by
  have hrel := hq.sources_rel h hb
  cases qualifier with
  | some label => exact OrderedMap.rel_get? hrel _
  | none =>
    have hvalues := OrderedMap.forall₂_values hrel
    have howners : List.Forall₂ (EntryRel (SourceRel q))
        ((sourceMap b.place b.ctes select).values.filter fun x => ownsColumn catalog column x.2)
        ((s.sources select).values.filter fun x => x.2.owns catalog column) := by
      refine List.rel_filter ?_ hvalues
      rintro _ _ ⟨-, hxy⟩
      simp only [ownsColumn_eq hxy]
    simp only [SelectView.sourceOf?, Spot.sourceFor?, soleOwner?_eq, Spot.soleOwner?]
    have hsole := sole?_rel hvalues
    generalize sole? (sourceMap b.place b.ctes select).values = found at hsole
    generalize sole? (s.sources select).values = found' at hsole
    cases hsole with
    | some hxy => exact .some hxy
    | none => exact sole?_rel howners

end Query.Unambiguous

end ColumnLineage
