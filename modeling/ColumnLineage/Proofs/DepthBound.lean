import ColumnLineage.Proofs.ReachableColumns
import Mathlib.Data.Finset.Card

/-!
# How deep a builder goes

The places that a builder visits are found by name, so they may lead back to where it came from. It
stops all the same: before it goes a level deeper it makes a node with a key that was not known, and
a query has finitely many of these keys, whatever the catalog is.

* `Query.lineageGraph_settles`: so each column has a depth from which on the limit plays no part.
-/

namespace ColumnLineage

/-! ## Sites -/

/-- The body of a query at a place with the common tables that the query declares; a side of a set
operation declares none. -/
structure Site where
  place : Place
  ctes : List Cte
  body : Body

def Query.site (q : Query) (place : Place) : Site :=
  ⟨place, q.ctes, q.body⟩

/-- The query in parentheses that a table of a select is. -/
def TableFactor.derived? : TableFactor → Option Query
  | .derived _ query _ => some query
  | _ => none

/-- The scalar query that a reference is. -/
def Reference.scalar? : Reference → Option Query
  | .column _ _ => none
  | .scalar query => some query

/-- The sites of the queries in the sources and the items of a select. -/
def Select.sitesInside (place : Place) (s : Select) : List Site :=
  (s.factors.zipIdx.filterMap fun (factor, i) =>
    factor.derived?.map fun q => q.site (.source i :: place)) ++
  s.items.zipIdx.flatMap fun (item, i) =>
    item.references.zipIdx.filterMap fun (r, k) =>
      r.scalar?.map fun q => q.site (.scalar i k :: place)

/-- The sites one step inside a body. -/
def Body.sitesInside (place : Place) : Body → List Site
  | .parens q => [q.site (.inner :: place)]
  | .setOperation _ _ left right =>
    [⟨.left :: place, [], left⟩, ⟨.right :: place, [], right⟩]
  | .select s => s.sitesInside place
  | _ => []

/-- The sites one step inside a site. -/
def Site.inside (s : Site) : List Site :=
  (placedCtes s.place s.ctes).map (fun c => c.cte.query.site c.place) ++ s.body.sitesInside s.place

def Site.parts (s : Site) : List Part :=
  Cte.partsList s.ctes ++ s.body.parts

theorem Query.site_parts_length_lt (q : Query) (place : Place) :
    (q.site place).parts.length < q.parts.length := by
  rw [q.parts_eq_cons, List.length_cons]
  exact Nat.lt_succ_of_le q.parts_sublist.length_le

theorem parts_length_le_of_mem {α : Type} {f : α → List Part} {a : α} {as : List α}
    (h : a ∈ as) : (f a).length ≤ (as.flatMap f).length := by
  rw [List.flatMap_def]
  exact (List.sublist_flatten_of_mem (List.mem_map_of_mem h)).length_le

variable {s : Select} {q : Query}

/-- A derived table has fewer parts than the select that reads it. -/
theorem Select.derived_parts_length_le {factor : TableFactor} (hf : factor ∈ s.factors)
    (hq : factor.derived? = some q) : q.parts.length ≤ s.parts.length := by
  have hparts : factor.parts = q.parts := by
    cases factor <;> cases hq
    rw [TableFactor.parts]
  rw [← hparts]
  calc factor.parts.length
    _ ≤ (s.factors.flatMap TableFactor.parts).length := parts_length_le_of_mem hf
    _ ≤ (TableTree.partsList s.sources).length := s.factors_parts.length_le
    _ ≤ s.parts.length :=
        ((List.sublist_append_right _ _).trans s.parts_sublist).length_le

theorem Select.scalar_parts_length_le {item : SelectItem} {r : Reference} (hi : item ∈ s.items)
    (hr : r ∈ item.references) (hq : r.scalar? = some q) : q.parts.length ≤ s.parts.length := by
  have hparts : r.parts = q.parts := by
    cases r <;> cases hq
    rfl
  rw [← hparts]
  calc r.parts.length
    _ ≤ (item.references.flatMap Reference.parts).length := parts_length_le_of_mem hr
    _ ≤ item.parts.length := item.references_parts.length_le
    _ ≤ (s.items.flatMap SelectItem.parts).length := parts_length_le_of_mem hi
    _ ≤ s.parts.length := by
        rw [← SelectItem.partsList_eq]
        exact ((List.sublist_append_left _ _).trans s.parts_sublist).length_le

theorem Select.sitesInside_lt {place : Place} {t : Site} (h : t ∈ s.sitesInside place) :
    t.parts.length < s.parts.length := by
  rcases List.mem_append.mp h with h | h
  · obtain ⟨⟨factor, i⟩, hf, ht⟩ := List.mem_filterMap.mp h
    obtain ⟨q, hq, rfl⟩ := Option.map_eq_some_iff.mp ht
    have hfactor := List.mem_of_getElem? (List.mem_zipIdx_iff_getElem?.mp hf)
    exact Nat.lt_of_lt_of_le (q.site_parts_length_lt _) (Select.derived_parts_length_le hfactor hq)
  · obtain ⟨⟨item, i⟩, hi, h⟩ := List.mem_flatMap.mp h
    obtain ⟨⟨r, k⟩, hr, ht⟩ := List.mem_filterMap.mp h
    obtain ⟨q, hq, rfl⟩ := Option.map_eq_some_iff.mp ht
    have hitem := List.mem_of_getElem? (List.mem_zipIdx_iff_getElem?.mp hi)
    have href := List.mem_of_getElem? (List.mem_zipIdx_iff_getElem?.mp hr)
    exact Nat.lt_of_lt_of_le (q.site_parts_length_lt _)
      (Select.scalar_parts_length_le hitem href hq)

/-- A site inside another has fewer parts, or as many and a smaller body. -/
theorem Site.inside_lt {s t : Site} (h : t ∈ s.inside) :
    Prod.Lex (· < ·) (· < ·) (t.parts.length, sizeOf t.body) (s.parts.length, sizeOf s.body) := by
  have hs : s.parts.length = (Cte.partsList s.ctes).length + s.body.parts.length :=
    List.length_append
  rcases List.mem_append.mp h with h | h
  · obtain ⟨c, hc, rfl⟩ := List.mem_map.mp h
    have hlt := c.cte.query.site_parts_length_lt c.place
    have hle : c.cte.query.parts.length ≤ (Cte.partsList s.ctes).length := by
      rw [Cte.partsList_eq]
      exact parts_length_le_of_mem (f := fun c => c.query.parts) (cte_mem_of_placedCtes hc)
    exact .left _ _ (by omega)
  cases hb : s.body with
  | parens q =>
    rw [hb] at h hs
    obtain rfl := List.mem_singleton.mp h
    have hlt := q.site_parts_length_lt (.inner :: s.place)
    have hparts : (Body.parens q).parts = q.parts := by rw [Body.parts]
    rw [hparts] at hs
    exact .left _ _ (by omega)
  | setOperation op quantifier left right =>
    rw [hb] at h hs
    have hparts : (Body.setOperation op quantifier left right).parts = left.parts ++ right.parts := by
      rw [Body.parts]
    rw [hparts, List.length_append] at hs
    -- The parts may all lie on one side, which is smaller then.
    rcases List.mem_cons.mp h with rfl | h
    · refine Prod.Lex.right' _ ?_ ?_
      · change left.parts.length ≤ _
        omega
      · simp only [Body.setOperation.sizeOf_spec]
        omega
    · obtain rfl := List.mem_singleton.mp h
      refine Prod.Lex.right' _ ?_ ?_
      · change right.parts.length ≤ _
        omega
      · simp only [Body.setOperation.sizeOf_spec]
        omega
  | select select =>
    rw [hb] at h hs
    have hlt := Select.sitesInside_lt h
    have hparts : (Body.select select).parts = select.parts := by rw [Body.parts]
    rw [hparts] at hs
    exact .left _ _ (by omega)
  | _ =>
    rw [hb] at h
    cases h

/-- All sites inside a site, and the site itself. -/
def Site.all (s : Site) : List Site :=
  s :: s.inside.attach.flatMap fun ⟨t, _⟩ => t.all
termination_by (s.parts.length, sizeOf s.body)
decreasing_by exact Site.inside_lt ‹_›

theorem Site.mem_all {s u : Site} : u ∈ s.all ↔ u = s ∨ ∃ t ∈ s.inside, u ∈ t.all := by
  rw [Site.all]
  simp

theorem Site.all_inside {s t u : Site} (ht : t ∈ s.all) (hu : u ∈ t.inside) : u ∈ s.all := by
  rcases Site.mem_all.mp ht with rfl | ⟨s', hs', ht'⟩
  · exact Site.mem_all.mpr (.inr ⟨u, hu, Site.mem_all.mpr (.inl rfl)⟩)
  · exact Site.mem_all.mpr (.inr ⟨s', hs', Site.all_inside ht' hu⟩)
termination_by (s.parts.length, sizeOf s.body)
decreasing_by exact Site.inside_lt hs'

def Query.sites (q : Query) : List Site :=
  (q.site []).all

/-! ## What is visited stands at sites -/

/-- A common table is declared at a site of a query. -/
def PlacedCte.Sited (q : Query) (c : PlacedCte) : Prop :=
  ∃ t ∈ q.sites, c ∈ placedCtes t.place t.ctes

theorem PlacedCte.Sited.site {c : PlacedCte} (h : c.Sited q) :
    c.cte.query.site c.place ∈ q.sites := by
  obtain ⟨t, ht, hc⟩ := h
  exact Site.all_inside ht (List.mem_append_left _ (List.mem_map_of_mem hc))

/-- What stands at a spot stands at a site, and so does what is declared for it. -/
structure Spot.Sited (q : Query) (s : Spot) : Prop where
  body : ∃ ctes, ⟨s.place, ctes, s.body⟩ ∈ q.sites
  /-- What is in view is declared at sites. -/
  declared : ∀ d ∈ s.env, d.placed.Sited q

theorem Query.spot_sited {inner : Query} {place : Place} {env : Env}
    (h : inner.site place ∈ q.sites) (he : ∀ d ∈ env, d.placed.Sited q) :
    (inner.spot place env).Sited q where
  body := ⟨inner.ctes, h⟩
  declared d hd := by
    have hp : d.placed ∈ (inner.declared place env).placed := List.mem_map_of_mem hd
    rw [Query.placed_declared] at hp
    rcases List.mem_append.mp hp with hp | hp
    · exact ⟨_, h, hp⟩
    · obtain ⟨e, he', hsame⟩ := List.mem_map.mp hp
      exact hsame ▸ he e he'

theorem Spot.Sited.inside {s : Spot} (h : s.Sited q) {t : Site}
    (ht : t ∈ s.body.sitesInside s.place) : t ∈ q.sites := by
  obtain ⟨ctes, hs⟩ := h.body
  exact Site.all_inside hs (List.mem_append_right _ ht)

theorem Spot.Sited.step {s t : Spot} (h : s.Sited q) {step : Step} (hs : s.step step = some t) :
    t.Sited q := by
  cases Spot.inside_of_step hs with
  | cte _ hd =>
    exact Query.spot_sited (h.declared _ (Env.mem_of_find? hd)).site fun e he =>
      h.declared e ((Env.sublist_of_find? hd).subset he)
  | inner hb =>
    refine Query.spot_sited (h.inside ?_) h.declared
    rw [hb]
    exact List.mem_singleton_self _
  | left hb =>
    refine ⟨⟨[], h.inside ?_⟩, h.declared⟩
    rw [hb]
    exact List.mem_cons_self
  | right hb =>
    refine ⟨⟨[], h.inside ?_⟩, h.declared⟩
    rw [hb]
    exact List.mem_cons_of_mem _ List.mem_cons_self
  | @source select i lateral inner label hb hf =>
    refine Query.spot_sited (h.inside ?_) h.declared
    rw [hb]
    exact List.mem_append_left _ (List.mem_filterMap.mpr
      ⟨(_, i), List.mem_zipIdx_iff_getElem?.mpr hf, rfl⟩)
  | @scalar select i k item inner hb hi hk =>
    refine Query.spot_sited (h.inside ?_) h.declared
    rw [hb]
    exact List.mem_append_right _ (List.mem_flatMap.mpr
      ⟨(item, i), List.mem_zipIdx_iff_getElem?.mpr hi, List.mem_filterMap.mpr
        ⟨(_, k), List.mem_zipIdx_iff_getElem?.mpr hk, rfl⟩⟩)

theorem Query.sited_of_at? {q : Query} : {place : Place} → {s : Spot} → q.at? place = some s →
    s.Sited q
  | [], s, h => by
      cases h
      exact Query.spot_sited (Site.mem_all.mpr (.inl rfl)) (by simp)
  | step :: place, s, h => by
      obtain ⟨t, ht, hs⟩ := Option.bind_eq_some_iff.mp h
      exact (Query.sited_of_at? ht).step hs

variable {b : PlacedBody}

/-- A body that is visited stands at a site, once its parentheses are opened. -/
theorem Query.Visits.site (h : q.Visits b) :
    ∃ ctes, ⟨b.opened.place, ctes, b.opened.body⟩ ∈ q.sites := by
  obtain ⟨spot, hspot⟩ := h.follows
  obtain ⟨ctes, hs⟩ := (Query.sited_of_at? hspot.opened.at_place).body
  rw [hspot.opened.place_eq, hspot.opened.body_eq] at hs
  exact ⟨ctes, hs⟩

/-- The common tables that it is visited with are declared at sites. -/
theorem Query.Visits.cte_sited (h : q.Visits b) {c : PlacedCte} (hc : c ∈ b.opened.ctes) :
    c.Sited q := by
  obtain ⟨spot, hspot⟩ := h.follows
  obtain ⟨place, s, hat, hs⟩ := hspot.opened.stacked.declared c hc
  obtain ⟨d, hd, rfl⟩ := List.mem_map.mp hs
  exact (Query.sited_of_at? hat).declared d hd

/-! ## What is looked for -/

/-- The positions of the columns that the alias of a derived table declares. -/
def TableFactor.positions : TableFactor → List Nat
  | .derived _ _ (some a) => List.range a.columnNames.length
  | _ => []

/-- The positions by which columns of a site, and of the queries that are read there, are looked
for: those that are declared, and those of names that the body gives. -/
def Site.positions (s : Site) : List Nat :=
  (s.ctes.flatMap fun c => List.range c.columns.length) ++
    (match s.body with
      | .select select => select.factors.flatMap TableFactor.positions
      | _ => []) ++
    List.range s.body.positionalNames.length

/-- All that is looked for on the way to a column of a query: the column itself, the first column of
scalar queries, the columns that are read, and the positions that sites have. -/
def Query.targets (q : Query) (column : String) : List Target :=
  .name column :: .index 0 ::
    (q.readColumns.map .name ++ (q.sites.flatMap Site.positions).map .index)

theorem Query.mem_targets_of_position {s : Site} (hs : s ∈ q.sites) {i : Nat} (hi : i ∈ s.positions)
    (column : String) : .index i ∈ q.targets column := by
  refine List.mem_cons_of_mem _ (List.mem_cons_of_mem _ (List.mem_append_right _ ?_))
  exact List.mem_map_of_mem (List.mem_flatMap.mpr ⟨s, hs, hi⟩)

theorem Query.Visits.mem_targets_of_read (h : q.Visits b) (hb : b.opened.body = .select s)
    {name : String} (hn : name ∈ s.readColumns) (column : String) :
    .name name ∈ q.targets column := by
  refine List.mem_cons_of_mem _ (List.mem_cons_of_mem _ (List.mem_append_left _ ?_))
  exact List.mem_map_of_mem (h.readColumns_subset hb hn)

/-- Positions that are declared for a source of a select are looked for. -/
theorem Query.Visits.mem_targets_of_declared (h : q.Visits b) (hb : b.opened.body = .select s)
    {key label : String} {body : PlacedBody} {declared : List String}
    (hm : (key, label, .query body declared) ∈
      (sourceMap b.opened.place b.opened.ctes s).entries) {i : Nat} (hi : i < declared.length)
    (column : String) : .index i ∈ q.targets column := by
  obtain ⟨k, factor, hf, hs, -⟩ := mem_sourceMap hm
  cases factor with
  | table name numbered given hints =>
    simp only [sourceOf?] at hs
    split at hs
    · rename_i c hv
      cases hs
      unfold visibleCte? at hv
      split at hv
      · obtain ⟨t, ht, hc⟩ := h.cte_sited (List.mem_of_find?_eq_some hv)
        refine Query.mem_targets_of_position ht (List.mem_append_left _ (List.mem_append_left _ ?_)) _
        refine List.mem_flatMap.mpr ⟨c.cte, cte_mem_of_placedCtes hc, List.mem_range.mpr ?_⟩
        simpa using hi
      · cases hv
    · cases hs
  | derived lateral inner given =>
    obtain ⟨a, rfl, ha⟩ := Option.map_eq_some_iff.mp hs
    cases ha
    obtain ⟨ctes, hsite⟩ := h.site
    refine Query.mem_targets_of_position hsite
      (List.mem_append_left _ (List.mem_append_right _ ?_)) _
    rw [hb]
    exact List.mem_flatMap.mpr ⟨_, List.mem_of_getElem? hf, List.mem_range.mpr hi⟩
  | _ => simp [sourceOf?] at hs

variable {column : String}

theorem declaredTarget_mem {declared : List String} {targets : List Target}
    (hc : .name column ∈ targets) (hd : ∀ i < declared.length, .index i ∈ targets) :
    declaredTarget declared column ∈ targets := by
  unfold declaredTarget
  split
  · rename_i i hi
    exact hd i (List.findIdx?_eq_some_iff_getElem.mp hi).1
  · exact hc

/-- The position of a column of a set operation is looked for on both sides. -/
theorem Query.Visits.mem_targets_of_positionOf (h : q.Visits b) {target : Target}
    (ht : target ∈ q.targets column) {i : Nat}
    (hi : positionOf b.opened.body.positionalNames target = .ok i) :
    .index i ∈ q.targets column := by
  cases target with
  | index j =>
    cases hi
    exact ht
  | name c =>
    simp only [positionOf] at hi
    split at hi <;> cases hi
    rename_i hpos
    obtain ⟨ctes, hsite⟩ := h.site
    refine Query.mem_targets_of_position hsite (List.mem_append_right _ (List.mem_range.mpr ?_)) _
    exact (List.findIdx?_eq_some_iff_getElem.mp hpos).1

/-! ## Keys -/

/-- The keys under which what is looked for at sites is known. -/
def Query.keys (q : Query) (column : String) : Finset Key :=
  (q.sites.flatMap fun s => (q.targets column).filterMap fun target =>
    (Spot.key ⟨s.place, s.body, []⟩ target).toOption).toFinset

theorem Query.Visits.key_mem (h : q.Visits b) {target : Target} (ht : target ∈ q.targets column)
    {key : Key} (hk : Spot.key ⟨b.opened.place, b.opened.body, []⟩ target = .ok key) :
    key ∈ q.keys column := by
  obtain ⟨ctes, hsite⟩ := h.site
  refine List.mem_toFinset.mpr (List.mem_flatMap.mpr ⟨_, hsite, ?_⟩)
  refine List.mem_filterMap.mpr ⟨target, ht, ?_⟩
  rw [hk]
  rfl

/-- How many of some keys a draft does not know. -/
def Draft.missing (keys : Finset Key) (d : Draft) : Nat :=
  (keys.filter fun key => d.find? key = none).card

theorem Draft.missing_le_of_extends {keys : Finset Key} {d d' : Draft} (h : Extends d d') :
    d'.missing keys ≤ d.missing keys := by
  refine Finset.card_le_card fun key hk => ?_
  rw [Finset.mem_filter] at hk ⊢
  refine ⟨hk.1, ?_⟩
  cases hf : d.find? key with
  | none => rfl
  | some id =>
    rw [h.keys hf] at hk
    exact absurd hk.2 (by simp)

theorem Draft.missing_start_lt {keys : Finset Key} {d : Draft} {key : Key} (hk : key ∈ keys)
    (hnone : d.find? key = none) (name : String) (origin : Origin) :
    (d.start key name origin).missing keys < d.missing keys := by
  refine Finset.card_lt_card (Finset.ssubset_iff_of_subset ?_ |>.mpr ⟨key, ?_, ?_⟩)
  · intro key' hk'
    rw [Finset.mem_filter, Draft.find?_start] at hk'
    rw [Finset.mem_filter]
    split at hk'
    · exact absurd hk'.2 (by simp)
    · exact hk'
  · rw [Finset.mem_filter]
    exact ⟨hk, hnone⟩
  · rw [Finset.mem_filter, Draft.find?_start, if_pos rfl]
    simp

/-! ## Levels and keys -/

/-- A step does not run out of levels if fewer keys are missing than levels are left. -/
def Shallow {α : Type} (keys : Finset Key) (n : Nat) (m : Build α) : Prop :=
  ∀ ⦃d : Draft⦄ ⦃e : GraphError⦄, d.missing keys < n → m d = .error e → ¬ e.IsDepth

variable {e : GraphError}

section steps

variable {α β : Type} {keys : Finset Key} {n : Nat}

theorem shallow_pure (a : α) : Shallow keys n (pure a : Build α) := by
  intro d e _ h
  cases h

theorem shallow_throw (he : ¬ e.IsDepth) : Shallow keys n (throw e : Build α) := by
  intro d e' _ h
  cases h
  exact he

theorem Shallow.bind {m : Build α} {f : α → Build β} (hm : Shallow keys n m) (hs : Steady m)
    (hf : ∀ a, Shallow keys n (f a)) : Shallow keys n (m >>= f) := by
  intro d e hlt h
  cases hr : m d with
  | error e' =>
    have he : (m >>= f) d = .error e' := by
      change (m d >>= _) = _
      rw [hr]
      rfl
    cases he.symm.trans h
    exact hm hlt hr
  | ok r =>
    have he : (m >>= f) d = f r.1 r.2 := by
      change (m d >>= _) = _
      rw [hr]
      rfl
    refine hf r.1 (Nat.lt_of_le_of_lt ?_ hlt) (he.symm.trans h)
    exact Draft.missing_le_of_extends (hs.grows hr)

theorem error_of_node {key : Key} {name : String} {origin : Origin} {sources : Build (List Nat)}
    {d : Draft} (h : Draft.node key name origin sources d = .error e) :
    d.find? key = none ∧ sources (d.start key name origin) = .error e := by
  rw [Draft.node_run] at h
  cases hk : d.find? key with
  | some id =>
    rw [hk] at h
    cases h
  | none =>
    rw [hk] at h
    refine ⟨rfl, ?_⟩
    cases hs : sources (d.start key name origin) with
    | error e' =>
      rw [hs] at h
      cases h
      rfl
    | ok r =>
      rw [hs] at h
      cases h

/-- The level that the sources of a node take is paid by its key. -/
theorem shallow_node {key : Key} (hk : key ∈ keys) (name : String) (origin : Origin)
    {sources : Build (List Nat)} (hs : Shallow keys n sources) :
    Shallow keys (n + 1) (Draft.node key name origin sources) := by
  intro d e hlt h
  obtain ⟨hnone, hrun⟩ := error_of_node h
  have hstart := Draft.missing_start_lt hk hnone name origin
  exact hs (by omega) hrun

theorem shallow_bare (key : Key) (name : String) (origin : Origin) :
    Shallow keys n (Draft.node key name origin (return [])) := by
  intro d e _ h
  obtain ⟨-, hrun⟩ := error_of_node h
  cases hrun

end steps

theorem GraphError.not_isDepth_of_under (h : ∀ limit, e.under limit = e) : ¬ e.IsDepth := by
  rintro ⟨limit, rfl⟩
  have hnext := h (limit + 1)
  simp [GraphError.under] at hnext

section builder

variable {q : Query} {catalog : Catalog} {column : String} {n : Nat}

theorem shallow_runAll {deeper : Deeper} (hs : ∀ b t, Steady (deeper b t)) {place : Place}
    {once : Bool} {keys : Finset Key} : (wanted : List Wanted) → (found : List Nat) →
      (∀ b t, .column b t ∈ wanted → Shallow keys n (deeper b t)) →
      Shallow keys n (Wanted.runAll deeper place once found wanted)
  | [], found, _ => shallow_pure found
  | w :: rest, found, h => by
      refine Shallow.bind ?_ (Wanted.steady_run hs w) fun id =>
        shallow_runAll hs rest _ fun b t hw => h b t (List.mem_cons_of_mem _ hw)
      cases w with
      | leaf name origin => exact shallow_bare (.leaf place name) name origin
      | column b t => exact h b t List.mem_cons_self

/-- What is wanted for a column is looked for among the targets of the query, too. -/
theorem Query.Visits.target_mem (hv : q.Visits b) {target : Target} (ht : target ∈ q.targets column)
    {b' : PlacedBody} {t : Target} (hs : b.Seeks catalog target (.column b' t)) :
    t ∈ q.targets column := by
  cases hs with
  | @read s qualifier name _ hb hr hw =>
    obtain ⟨key, label, declared, hm, rfl⟩ := SelectView.mem_of_wanted hw
    have hname : .name name ∈ q.targets column := by
      rcases hr with ⟨item, hi, hr⟩ | ⟨rfl, -⟩
      · refine hv.mem_targets_of_read hb (List.mem_flatMap.mpr ⟨item, hi, ?_⟩) column
        exact List.mem_filterMap.mpr ⟨_, hr, rfl⟩
      · exact ht
    exact declaredTarget_mem hname fun i hi => hv.mem_targets_of_declared hb hm hi column
  | scalar hb hi hk => exact List.mem_cons_of_mem _ List.mem_cons_self
  | left hb hi => exact hv.mem_targets_of_positionOf ht hi
  | right hb hi => exact hv.mem_targets_of_positionOf ht hi

/-- A builder with more levels left than keys are missing does not run out of levels. -/
theorem shallow_columnWithin (limit : Nat) : (n : Nat) → {b : PlacedBody} → q.Visits b →
    {target : Target} → target ∈ q.targets column →
      Shallow (q.keys column) n (columnWithin catalog limit n b target)
  | 0, _, _, _, _ => fun _ _ hlt => absurd hlt (Nat.not_lt_zero _)
  | n + 1, b, hv, target, ht => by
      change Shallow _ _ (bodyColumn catalog (columnWithin catalog limit n) b target)
      rw [bodyColumn_eq]
      cases hp : b.plan catalog target with
      | error e =>
        exact shallow_throw (GraphError.not_isDepth_of_under (PlacedBody.under_of_plan hp))
      | ok p =>
        have hplans := PlacedBody.plans_of_plan hp
        refine shallow_node (hv.key_mem ht (Spot.key_of_plans rfl rfl hplans)) _ _ ?_
        refine shallow_runAll (steady_columnWithin catalog limit n) p.wanted [] fun b' t hw => ?_
        have hseeks := hplans.seeks hw
        exact shallow_columnWithin limit n (hv.tail hseeks.enters) (hv.target_mem ht hseeks)

end builder

/-! ## Graphs -/

/-- A limit that is not smaller than the number of keys is never exceeded. -/
theorem Query.not_isDepth_of_lineageGraph {catalog : Catalog} {limit : Nat}
    (h : (q.keys column).card ≤ limit) (he : q.lineageGraph catalog column limit = .error e) :
    ¬ e.IsDepth := by
  have hbuild : Shallow (q.keys column) (limit + 1)
      (columnWithin catalog limit (limit + 1) (q.placed [] []) (.name column)) :=
    shallow_columnWithin limit (limit + 1) .refl List.mem_cons_self
  have hmissing : Draft.missing (q.keys column) {} < limit + 1 :=
    Nat.lt_succ_of_le (Nat.le_trans (Finset.card_filter_le _ _) h)
  unfold Query.lineageGraph at he
  cases hr : columnWithin catalog limit (limit + 1) (q.placed [] []) (.name column) {} with
  | error e' =>
    rw [hr] at he
    cases he
    exact hbuild hmissing hr
  | ok r =>
    rw [hr] at he
    cases he

/-- For every column of every query there is a depth, the same for all catalogs, from which on no
limit is exceeded and all limits give the same answer: the walk ends by itself. -/
theorem Query.lineageGraph_settles (q : Query) (column : String) :
    ∃ depth, ∀ (catalog : Catalog) (limit : Nat), depth ≤ limit →
      (∀ l, q.lineageGraph catalog column limit ≠ .error (.depthExceeded l)) ∧
        q.lineageGraph catalog column limit = q.lineageGraph catalog column depth := by
  refine ⟨(q.keys column).card, fun catalog limit hle => ⟨fun l he => ?_, ?_⟩⟩
  · exact Query.not_isDepth_of_lineageGraph hle he ⟨l, rfl⟩
  · exact Query.lineageGraph_of_le q catalog column hle fun e he =>
      Query.not_isDepth_of_lineageGraph (Nat.le_refl _) he

/-- A common table that reads itself has one graph under all limits that are large enough. -/
theorem Query.lineageGraph_settles_recursive :
    ∃ depth, ∀ limit, depth ≤ limit →
      TraceContext.recursiveTable.lineageGraph ⟨∅⟩ "a" limit = .ok TraceContext.recursiveGraph := by
  obtain ⟨depth, hdepth⟩ := Query.lineageGraph_settles TraceContext.recursiveTable "a"
  refine ⟨depth, fun limit hle => ?_⟩
  have hsmall : TraceContext.recursiveTable.lineageGraph ⟨∅⟩ "a" 9 =
      .ok TraceContext.recursiveGraph := by decide
  have hlarge : TraceContext.recursiveTable.lineageGraph ⟨∅⟩ "a" (max depth 9) =
      .ok TraceContext.recursiveGraph := by
    rw [Query.lineageGraph_of_le _ _ _ (Nat.le_max_right depth 9) (by simp [hsmall]), hsmall]
  rw [(hdepth ⟨∅⟩ limit hle).2, ← (hdepth ⟨∅⟩ _ (Nat.le_max_left depth 9)).2, hlarge]

end ColumnLineage
