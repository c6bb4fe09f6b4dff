import ColumnLineage.Proofs.GraphBuild
import ColumnLineage.Proofs.SmallLetters

/-!
# Finished drafts

A draft that is finished accounts for itself: the sources of a node are what the builder finds for
its column in that very draft. So a key tells what its node is, whatever common tables were at hand
when the node was made. This holds for all queries, however their common tables are named.
-/

namespace ColumnLineage

/-! ## Names without dots -/

/-- A column that is looked for by its position or by a name without a dot. -/
def Target.Dotless : Target → Prop
  | .name column => '.' ∉ column.toList
  | .index _ => True

/-- The name of the column that a reference reads. -/
def Reference.column? : Reference → Option String
  | .column _ name => some name
  | .scalar _ => none

/-- The names of the columns that the items of a select read. -/
def Select.readColumns (s : Select) : List String :=
  s.items.flatMap fun item => item.references.filterMap Reference.column?

/-- The names of the columns that selects read, at any depth of a query. -/
def Query.readColumns (q : Query) : List String :=
  q.parts.flatMap fun
    | .query inner => inner.body.selects.flatMap Select.readColumns
    | .table _ _ => []

/-- No column that is read has a dot in its name. -/
def Query.DotlessColumns (q : Query) : Prop :=
  ∀ column ∈ q.readColumns, '.' ∉ column.toList

instance (q : Query) : Decidable q.DotlessColumns :=
  inferInstanceAs (Decidable (∀ column ∈ q.readColumns, '.' ∉ column.toList))

theorem declaredTarget_dotless {declared : List String} {column : String}
    (h : '.' ∉ column.toList) : (declaredTarget declared column).Dotless := by
  unfold declaredTarget
  split
  · trivial
  · exact h

theorem dot_mem_dotted (label column : String) : '.' ∈ (dotted label column).toList := by
  simp [dotted]

theorem dotted_inj {label label' column column' : String} (h : '.' ∉ column.toList)
    (h' : '.' ∉ column'.toList) (he : dotted label column = dotted label' column') :
    label = label' ∧ column = column' := by
  have hsplit := splitLastDot?_dotted label h
  rw [he, splitLastDot?_dotted label' h'] at hsplit
  cases hsplit
  exact ⟨rfl, rfl⟩

variable {b : PlacedBody}

theorem Query.Visits.readColumns_subset {q : Query} (h : q.Visits b) {s : Select}
    (hb : b.opened.body = .select s) : s.readColumns ⊆ q.readColumns := by
  intro column hc
  obtain ⟨spot, hspot⟩ := h.follows
  have hopened := hspot.opened
  obtain ⟨inner, hi, hsel⟩ := (Query.within_of_at? hopened.at_place).selects
  have hmem : s ∈ inner.body.selects := by
    apply hsel
    rw [hopened.body_eq, hb]
    exact List.mem_singleton_self s
  exact List.mem_flatMap.mpr ⟨_, hi, List.mem_flatMap.mpr ⟨s, hmem, hc⟩⟩

/-! ## Sources and common tables -/

/-- The origin of the node of a column behind an alias of a select, unless the alias is that of a
query. -/
def Select.leafOrigin (s : Select) (label : String) : Origin :=
  match (sourceMap [] [] s).get? (Text.toLower label) with
  | some (_, .table r) => .table r
  | _ => .placeholder

/-- Sources are the same, unless the first one is a query. -/
def SameUnlessQuery (source source' : SelectSource) : Prop :=
  (∀ body declared, source ≠ .query body declared) → source' = source

/-- The common tables at hand decide only which tables are queries. -/
theorem sourceMap_rel (place : Place) (ctes : List PlacedCte) (s : Select) :
    List.Forall₂ (EntryRel (EntryRel SameUnlessQuery)) (sourceMap place ctes s).entries
      (sourceMap [] [] s).entries := by
  have hlabel : ∀ label : Option TableAlias, Option.Rel (EntryRel SameUnlessQuery)
      (label.map fun a => (a.name.value, SelectSource.function))
      (label.map fun a => (a.name.value, SelectSource.function)) := by
    intro label
    cases label with
    | some a => exact .some ⟨rfl, fun _ => rfl⟩
    | none => exact .none
  have hfactor : ∀ (i : Nat) (factor : TableFactor), Option.Rel (EntryRel SameUnlessQuery)
      (sourceOf? place ctes i factor) (sourceOf? [] [] i factor) := by
    intro i factor
    cases factor with
    | table name numbered label hints =>
      have hnone : visibleCte? [] (.ofObjectName name) = none := by
        unfold visibleCte?
        split <;> rfl
      simp only [sourceOf?, hnone]
      cases visibleCte? ctes (.ofObjectName name) with
      | some c => exact .some ⟨rfl, fun h => absurd rfl (h _ _)⟩
      | none => exact .some ⟨rfl, fun _ => rfl⟩
    | derived lateral inner label =>
      cases label with
      | some a => exact .some ⟨rfl, fun h => absurd rfl (h _ _)⟩
      | none => exact .none
    | tableFunction name arguments numbered label hints => exact .some ⟨rfl, fun _ => rfl⟩
    | nested tables label => exact .none
    | document opening e rest label => exact .none
    | pivot table aggregates column values otherwise label => exact .none
    | unpivot table value name columns label => exact .none
    | lateralFunction name arguments label => exact hlabel label
    | tableOf e label => exact hlabel label
    | unnest arrays numbered label offset => exact hlabel label
  refine OrderedMap.forall₂_ofList (forall₂_filterMap ?_)
  rintro ⟨factor, i⟩ -
  have hrel := hfactor i factor
  dsimp only
  generalize sourceOf? place ctes i factor = found at hrel
  generalize sourceOf? [] [] i factor = found' at hrel
  cases hrel with
  | none => exact .none
  | @some x y hxy =>
    obtain ⟨hl, hs⟩ := hxy
    exact .some ⟨congrArg Text.toLower hl, hl, hs⟩

variable {qualifier : Option String}

section origins

variable {b : PlacedBody} {s : Select} {label : String}

/-- Whether a select has a source of some alias does not depend on the common tables at hand. -/
theorem get?_view_eq_none_iff {key : String} :
    (b.view s).sources.get? key = none ↔ (sourceMap [] [] s).get? key = none := by
  have hrel := OrderedMap.rel_get? (sourceMap_rel b.opened.place b.opened.ctes s) key
  change (sourceMap b.opened.place b.opened.ctes s).get? key = none ↔ _
  generalize (sourceMap b.opened.place b.opened.ctes s).get? key = found at hrel ⊢
  generalize (sourceMap [] [] s).get? key = found' at hrel ⊢
  cases hrel <;> simp

theorem leafOrigin_of_none (h : (b.view s).sources.get? (Text.toLower label) = none) :
    s.leafOrigin label = .placeholder := by
  rw [Select.leafOrigin, get?_view_eq_none_iff.mp h]

theorem get?_of_not_query {l : String} {source : SelectSource}
    (h : (b.view s).sources.get? (Text.toLower label) = some (l, source))
    (hq : ∀ body declared, source ≠ .query body declared) :
    (sourceMap [] [] s).get? (Text.toLower label) = some (l, source) := by
  have hrel := OrderedMap.rel_get? (sourceMap_rel b.opened.place b.opened.ctes s)
    (Text.toLower label)
  change (sourceMap b.opened.place b.opened.ctes s).get? (Text.toLower label) = _ at h
  rw [h] at hrel
  generalize (sourceMap [] [] s).get? (Text.toLower label) = found at hrel
  cases hrel with
  | @some _ y hxy =>
    obtain ⟨l', source'⟩ := y
    obtain ⟨hl, hs⟩ := hxy
    dsimp only at hl hs
    rw [← hl, hs hq]

theorem leafOrigin_of_table {l : String} {r : TableReference}
    (h : (b.view s).sources.get? (Text.toLower label) = some (l, .table r)) :
    s.leafOrigin label = .table r := by
  rw [Select.leafOrigin, get?_of_not_query h (by simp)]

theorem leafOrigin_of_function {l : String}
    (h : (b.view s).sources.get? (Text.toLower label) = some (l, .function)) :
    s.leafOrigin label = .placeholder := by
  rw [Select.leafOrigin, get?_of_not_query h (by simp)]

theorem get?_of_sourceOf? {catalog : Catalog} {column : String} {source : SelectSource}
    (h : (b.view s).sourceOf? catalog qualifier column = some (label, source)) :
    (b.view s).sources.get? (Text.toLower label) = some (label, source) := by
  obtain ⟨key, hm⟩ := SelectView.mem_of_sourceOf? h
  obtain ⟨-, -, -, -, rfl⟩ := mem_sourceMap hm
  exact OrderedMap.get?_of_mem hm

/-- The node of a column behind an alias has the origin of the alias, unless it is that of a
query. -/
theorem leafOrigin_of_wanted {catalog : Catalog} {column c : String} {origin : Origin}
    (hcolumn : '.' ∉ column.toList) (hc : '.' ∉ c.toList)
    (h : (b.view s).wanted catalog qualifier column = .leaf (dotted label c) origin) :
    origin = s.leafOrigin label := by
  unfold SelectView.wanted at h
  split at h
  · rename_i hs
    obtain ⟨he, rfl⟩ := Wanted.leaf.inj h
    obtain ⟨rfl, -⟩ := dotted_inj hcolumn hc he
    exact (leafOrigin_of_table (get?_of_sourceOf? hs)).symm
  · cases h
  · rename_i hs
    obtain ⟨he, rfl⟩ := Wanted.leaf.inj h
    obtain ⟨rfl, -⟩ := dotted_inj hcolumn hc he
    exact (leafOrigin_of_function (get?_of_sourceOf? hs)).symm
  · rename_i hs
    obtain ⟨he, rfl⟩ := Wanted.leaf.inj h
    cases qualifier with
    | some l =>
      obtain ⟨rfl, -⟩ := dotted_inj hcolumn hc he
      exact (leafOrigin_of_none hs).symm
    | none =>
      have hdot := dot_mem_dotted label c
      rw [← he] at hdot
      exact absurd hdot hcolumn

end origins

/-! ## Nodes and their keys -/

/-- Bodies that are visited at one place are one body, whatever common tables they are visited with,
and so are the bodies inside their parentheses. -/
theorem Query.Visits.opened_eq_of_place {q : Query} {b' : PlacedBody} (h : q.Visits b)
    (h' : q.Visits b') (hp : b.place = b'.place) :
    b.opened.place = b'.opened.place ∧ b.opened.body = b'.opened.body := by
  obtain ⟨spot, hspot⟩ := h.follows
  obtain ⟨spot', hspot'⟩ := h'.follows
  have hat := hspot.at_place
  rw [hp, hspot'.at_place, Option.some.injEq] at hat
  subst hat
  constructor
  · exact hspot.opened.place_eq.symm.trans hspot'.opened.place_eq
  · exact hspot.opened.body_eq.symm.trans hspot'.opened.body_eq

theorem Query.Visits.body_eq_of_place {q : Query} {b' : PlacedBody} (h : q.Visits b)
    (h' : q.Visits b') (hp : b.opened.place = b'.opened.place) :
    b.opened.body = b'.opened.body := by
  obtain ⟨spot, hspot⟩ := h.follows
  obtain ⟨spot', hspot'⟩ := h'.follows
  have hat := hspot.opened.at_place
  rw [hp, hspot'.opened.at_place, Option.some.injEq] at hat
  rw [← hspot.opened.body_eq, ← hat, hspot'.opened.body_eq]

theorem Query.Visits.select_eq_of_place {q : Query} {b' : PlacedBody} (h : q.Visits b)
    (h' : q.Visits b') (hp : b.opened.place = b'.opened.place) {s s' : Select}
    (hb : b.opened.body = .select s) (hb' : b'.opened.body = .select s') : s = s' := by
  have he := h.body_eq_of_place h' hp
  rw [hb, hb', Body.select.injEq] at he
  exact he

section drafts

variable {q : Query} {catalog : Catalog} {limit : Nat}

/-- A node was made for an item of a select: a builder that visits the select with certain common
tables and levels left finds the sources of the node, in the draft as it is. -/
def MadeFor (q : Query) (catalog : Catalog) (limit : Nat) (d : Draft) (id : Nat) (place : Place)
    (s : Select) (i : Nat) : Prop :=
  ∃ b n item node, q.Visits b ∧ b.opened.place = place ∧ b.opened.body = .select s ∧
    s.items[i]? = some item ∧ d.nodes[id]? = some node ∧ node.origin = .projection item.text ∧
    referenceSources catalog (columnWithin catalog limit n) (b.view s) i 0 [] item.references d =
      .ok (node.sources, d)

/-- A node is what its key asks for. -/
structure Fits (q : Query) (catalog : Catalog) (limit : Nat) (d : Draft) (id : Nat) (key : Key) :
    Prop where
  /-- The key of an item has a node that was made for it. -/
  item : ∀ {b : PlacedBody} {s : Select} {i : Nat}, key = .column b.opened.place (some i) →
    q.Visits b → b.opened.body = .select s → MadeFor q catalog limit d id b.opened.place s i
  /-- The key of a column behind an alias has a node without sources, of the origin of the alias. -/
  leaf : ∀ {b : PlacedBody} {s : Select} {label c : String},
    key = .leaf b.opened.place (dotted label c) → '.' ∉ c.toList → q.Visits b →
      b.opened.body = .select s → d.nodes[id]? = some ⟨dotted label c, s.leafOrigin label, []⟩

/-- The key of a column of a body that is no select asks for nothing. -/
theorem fits_of_not_select (hv : q.Visits b) (hb : ∀ s, b.opened.body ≠ .select s) (d : Draft)
    (id : Nat) (index : Option Nat) : Fits q catalog limit d id (.column b.opened.place index) where
  item he hv' hb' := by
    rw [Key.column.injEq] at he
    exact absurd ((hv.body_eq_of_place hv' he.1).trans hb') (hb _)
  leaf he := by cases he

/-- The columns of visited bodies by positions and names without dots. -/
def DotlessVisit (q : Query) (b : PlacedBody) (target : Target) : Prop :=
  q.Visits b ∧ target.Dotless

theorem DotlessVisit.column (hq : q.DotlessColumns) {target : Target} (h : DotlessVisit q b target)
    {s : Select} (hb : b.opened.body = .select s) {column : String}
    (hr : s.Reads target qualifier column) : '.' ∉ column.toList := by
  rcases hr with ⟨item, hi, hr⟩ | ⟨rfl, -⟩
  · refine hq column (h.1.readColumns_subset hb (List.mem_flatMap.mpr ⟨item, hi, ?_⟩))
    exact List.mem_filterMap.mpr ⟨_, hr, rfl⟩
  · exact h.2

theorem hereditary_dotless (hq : q.DotlessColumns) : Hereditary catalog (DotlessVisit q) := by
  intro b target p hv hp b' t hw
  have hseeks := hp.seeks hw
  refine ⟨hv.1.tail hseeks.enters, ?_⟩
  cases hseeks with
  | read hb hr hw =>
    obtain ⟨key, label, declared, -, rfl⟩ := SelectView.mem_of_wanted hw
    exact declaredTarget_dotless (hv.column hq hb hr)
  | scalar hb hi hk => trivial
  | left hb hi => trivial
  | right hb hi => trivial

theorem fits_of_finished (hq : q.DotlessColumns) {d : Draft} {key : Key} {id : Nat}
    (h : d.Finished (Planned catalog limit (DotlessVisit q)) key id) :
    Fits q catalog limit d id key := by
  obtain ⟨name, origin, sources, ids, hplanned, hnode, hrun⟩ := h
  cases hplanned with
  | own n hv hp =>
    cases hp with
    | @item s i item hb hp hi =>
      refine ⟨fun {b' s' i'} he hv' hb' => ?_, fun he => by cases he⟩
      obtain ⟨hplace, he⟩ := Key.column.inj he
      cases he
      obtain rfl := hv.1.select_eq_of_place hv' hplace hb hb'
      refine ⟨_, n, item, _, hv.1, hplace, hb, hi, hnode, rfl, ?_⟩
      rw [referenceSources_eq]
      exact hrun
    | @star s qualifier column hb hp ht hs =>
      refine ⟨fun he => by (cases he), fun {b' s' label c} he => ?_⟩
      -- The key of a column that a star gives has no dot.
      have hdot := dot_mem_dotted label c
      rw [← (Key.leaf.inj he).2, String.toList_append, List.mem_append] at hdot
      rcases hdot with hdot | hdot
      · simp at hdot
      · subst ht
        exact absurd (Text.dot_mem_of_mem_toLower hdot) hv.2
    | sides hb hi => exact fits_of_not_select hv.1 (by simp [hb]) _ _ _
    | plain hs ho => exact fits_of_not_select hv.1 hs _ _ _
  | leaf hv hp hw =>
    refine ⟨fun he => (by cases he), fun {b' s' label c} he hc hv' hb' => ?_⟩
    obtain ⟨hplace, rfl⟩ := Key.leaf.inj he
    rw [hp.place_eq] at hplace
    obtain ⟨rfl, -⟩ := pure_run_eq_ok.mp hrun
    cases hp.seeks hw with
    | read hb hr hw =>
      obtain rfl := hv.1.select_eq_of_place hv' hplace hb hb'
      rw [hnode, leafOrigin_of_wanted (hv.column hq hb hr) hc hw]

/-- All keys of a draft have nodes that fit. -/
def Draft.Fitting (q : Query) (catalog : Catalog) (limit : Nat) (d : Draft) : Prop :=
  ∀ ⦃key : Key⦄ ⦃id : Nat⦄, d.find? key = some id → Fits q catalog limit d id key

theorem fitting_of_run (hq : q.DotlessColumns) {target : Target} (ht : target.Dotless)
    {n root : Nat} {d : Draft}
    (hrun : columnWithin catalog limit n (q.placed [] []) target {} = .ok (root, d)) :
    d.Fitting q catalog limit := by
  intro key id hk
  exact fits_of_finished hq ((finished_of_run (hereditary_dotless hq) ⟨.refl, ht⟩ hrun).2 hk)

/-! ## The sources of an item -/

/-- The nodes that references lead to are found again one by one, and there are no others. -/
theorem mem_referenceSources {n : Nat} {v : SelectView} {item : Nat} {references : List Reference}
    {d : Draft} {ids : List Nat}
    (h : referenceSources catalog (columnWithin catalog limit n) v item 0 [] references d =
      .ok (ids, d)) :
    (∀ k r, references[k]? = some r → ∃ id,
      referenceSource catalog (columnWithin catalog limit n) v item k r d = .ok (id, d)) ∧
    ∀ id, id ∈ ids ↔ ∃ k r, references[k]? = some r ∧
      referenceSource catalog (columnWithin catalog limit n) v item k r d = .ok (id, d) := by
  rw [referenceSources_eq] at h
  obtain ⟨hall, hmem⟩ :=
    Wanted.mem_runAll (steady_columnWithin catalog limit n) _ h fun _ _ hk => hk
  simp only [referenceSource_eq]
  refine ⟨fun k r hk => hall _ ?_, fun id => ?_⟩
  · exact SelectView.mem_wantedReferences.mpr ⟨k, r, hk, by rw [Nat.zero_add]⟩
  · rw [hmem, or_iff_right List.not_mem_nil]
    constructor
    · rintro ⟨w, hw, hrun⟩
      obtain ⟨k, r, hk, rfl⟩ := SelectView.mem_wantedReferences.mp hw
      exact ⟨k, r, hk, by rwa [Nat.zero_add] at hrun⟩
    · rintro ⟨k, r, hk, hrun⟩
      exact ⟨_, SelectView.mem_wantedReferences.mpr ⟨k, r, hk, by rw [Nat.zero_add]⟩, hrun⟩

end drafts

end ColumnLineage
