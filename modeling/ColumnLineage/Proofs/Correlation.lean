import ColumnLineage.Proofs.FinishedDrafts
import ColumnLineage.Proofs.OwnLineage
import ColumnLineage.Proofs.SharedLineage

/-!
# Correlated references

A scalar query may read columns of the select around it. A builder knows no source for the alias of
such a column inside the scalar query, so its node only has a name. The walk over the graph looks
the name up among the aliases of the whole query: there later tables win over earlier ones, and
common tables and derived tables have no place.

* `Correlation.agrees_iff_known_by_alias`: when a correlated reference contributes what it would in
  the select around it.
-/

namespace ColumnLineage

theorem FullName.column_eq_iff {f f' : FullName} {c : String} :
    f.column c = f'.column c ↔ f.text = f'.text := by
  unfold FullName.column
  rw [String.append_assoc, String.append_assoc, String.append_left_inj]

namespace AnalysisContext

/-! ## Contributions -/

def walk (x : AnalysisContext) (q : Query) (d : Draft) : TraceContext :=
  ⟨d.nodes, q.cteNames, q.aliases x.defaults, x.defaults, x.limit⟩

/-- What a reference in an item of a select contributes to a draft, with the given number of levels
left: what the node emits that a builder finds for it. A builder that has met the reference before
finds the node that it has made then. -/
def Contributes (x : AnalysisContext) (q : Query) (d : Draft) (n : Nat) (b : PlacedBody)
    (s : Select) (i k : Nat) (r : Reference) (t : String) : Prop :=
  ∃ id d', referenceSource x.catalog (columnWithin x.catalog x.limit n) (b.view s) i k r d =
    .ok (id, d') ∧ (x.walk q d').Emits id t

variable {x : AnalysisContext} {q : Query} {d : Draft} {n : Nat} {b : PlacedBody} {s : Select}

theorem contributes_iff_of_run {i k : Nat} {r : Reference} {id : Nat} {d' : Draft}
    (h : referenceSource x.catalog (columnWithin x.catalog x.limit n) (b.view s) i k r d =
      .ok (id, d')) (t : String) :
    x.Contributes q d n b s i k r t ↔ (x.walk q d').Emits id t := by
  constructor
  · rintro ⟨id', d'', h', he⟩
    rw [h] at h'
    cases h'
    exact he
  · intro he
    exact ⟨id, d', h, he⟩

/-! ## Columns behind an alias -/

theorem exists_leaf {place : Place} {name : String} {origin : Origin}
    (h : ∀ id, d.find? (.leaf place name) = some id → d.nodes[id]? = some ⟨name, origin, []⟩) :
    ∃ id d', Draft.leaf (place, name) name origin (return []) d = .ok (id, d') ∧
      d'.nodes[id]? = some ⟨name, origin, []⟩ := by
  change ∃ id d', Draft.node (.leaf place name) name origin (return []) d = .ok (id, d') ∧ _
  rw [Draft.node_run]
  cases hk : d.find? (.leaf place name) with
  | some id => exact ⟨id, d, rfl, h id hk⟩
  | none =>
    have hnode : (d.start (.leaf place name) name origin).nodes[d.nodes.size]? =
        some ⟨name, origin, []⟩ := by
      rw [Draft.nodes_start, Array.getElem?_push_size]
    refine ⟨d.nodes.size, d.start (.leaf place name) name origin, ?_, hnode⟩
    change Except.ok (d.nodes.size, (d.start (.leaf place name) name origin).finish d.nodes.size []) = _
    rw [Draft.finish_nil hnode]

/-- A reference that leads to the node of a name contributes what the node stands for. -/
theorem contributes_leaf (hd : d.Fitting q x.catalog x.limit) (hv : q.Visits b)
    (hb : b.opened.body = .select s) {a c label : String} (hc : '.' ∉ c.toList)
    (hsource : columnSource x.catalog (columnWithin x.catalog x.limit n) (b.view s) (some a) c =
      Draft.leaf (b.opened.place, dotted label c) (dotted label c) (s.leafOrigin label) (return []))
    (i k : Nat) (t : String) :
    x.Contributes q d n b s i k (.column (some a) c) t ↔
      (x.walk q d).terminal? ⟨dotted label c, s.leafOrigin label, []⟩ = some t := by
  have hknown : ∀ id, d.find? (.leaf b.opened.place (dotted label c)) = some id →
      d.nodes[id]? = some ⟨dotted label c, s.leafOrigin label, []⟩ :=
    fun id hk => (hd hk).leaf rfl hc hv hb
  obtain ⟨id, d', hrun, hnode⟩ := exists_leaf hknown
  have hn : (x.walk q d').node id = ⟨dotted label c, s.leafOrigin label, []⟩ := by
    simp only [TraceContext.node, walk, hnode, Option.getD_some]
  have hreference : referenceSource x.catalog (columnWithin x.catalog x.limit n) (b.view s) i k
      (.column (some a) c) d = .ok (id, d') := by
    change columnSource x.catalog _ (b.view s) (some a) c d = _
    rw [hsource, hrun]
  rw [contributes_iff_of_run hreference, ← emits_iff_of_leaf (by rw [hn]), hn, Option.mem_toList]
  exact Iff.rfl

/-- A reference whose alias is no source contributes the column of the table that the query knows by
the alias. -/
theorem contributes_of_free (hd : d.Fitting q x.catalog x.limit) (hv : q.Visits b)
    (hb : b.opened.body = .select s) {a c : String} (hc : '.' ∉ c.toList)
    (hfree : (b.view s).sources.get? (Text.toLower a) = none) (i k : Nat) (t : String) :
    x.Contributes q d n b s i k (.column (some a) c) t ↔
      ((q.aliases x.defaults).get? (Text.toLower a)).map (·.column c) = some t := by
  have horigin := leafOrigin_of_none hfree
  have hsource : columnSource x.catalog (columnWithin x.catalog x.limit n) (b.view s) (some a) c =
      Draft.leaf (b.opened.place, dotted a c) (dotted a c) (s.leafOrigin a) (return []) := by
    rw [columnSource_eq, horigin]
    simp only [SelectView.wanted, SelectView.sourceOf?, hfree]
    rfl
  rw [contributes_leaf hd hv hb hc hsource, horigin, terminal?_origin_placeholder hc]
  exact Iff.rfl

/-- A reference to a table contributes the column of the table, unless the table has the name of a
common table. -/
theorem contributes_of_table (hd : d.Fitting q x.catalog x.limit) (hv : q.Visits b)
    (hb : b.opened.body = .select s) {a c label : String} {r : TableReference}
    (hc : '.' ∉ c.toList)
    (hbound : (b.view s).sources.get? (Text.toLower a) = some (label, .table r)) (i k : Nat)
    (t : String) :
    x.Contributes q d n b s i k (.column (some a) c) t ↔
      (if r.isCteIn q.cteNames then none
        else some ((FullName.resolve r x.defaults).column c)) = some t := by
  have horigin : s.leafOrigin label = .table r := by
    have hsource : (b.view s).sourceOf? x.catalog (some a) c = some (label, .table r) := hbound
    exact leafOrigin_of_table (get?_of_sourceOf? hsource)
  have hsource : columnSource x.catalog (columnWithin x.catalog x.limit n) (b.view s) (some a) c =
      Draft.leaf (b.opened.place, dotted label c) (dotted label c) (s.leafOrigin label)
        (return []) := by
    rw [columnSource_eq, horigin]
    simp only [SelectView.wanted, SelectView.sourceOf?, hbound]
    rfl
  rw [contributes_leaf hd hv hb hc hsource, horigin, terminal?_origin_table hc]
  exact Iff.rfl

/-! ## Items -/

/-- The node of an item emits what its references contribute. The select may have been visited with
other common tables and levels left when the node was made. -/
theorem emits_item (hd : d.Fitting q x.catalog x.limit) (hv : q.Visits b)
    (hb : b.opened.body = .select s) {i : Nat} {item : SelectItem}
    (hi : s.items[i]? = some item) {id : Nat}
    (hk : d.find? (.column b.opened.place (some i)) = some id) :
    ∃ b' n', q.Visits b' ∧ b'.opened.place = b.opened.place ∧ b'.opened.body = .select s ∧
      (∀ (k : Nat) (r : Reference), item.references[k]? = some r →
        ∃ id', referenceSource x.catalog (columnWithin x.catalog x.limit n') (b'.view s) i k r d =
          .ok (id', d)) ∧
      ∀ t, (x.walk q d).Emits id t ↔
        ∃ k r, item.references[k]? = some r ∧ x.Contributes q d n' b' s i k r t := by
  obtain ⟨b', n', item', node, hv', hplace, hb', hi', hnode, horigin, hrun⟩ :=
    (hd hk).item rfl hv hb
  rw [hi, Option.some.injEq] at hi'
  subst hi'
  obtain ⟨hall, hmem⟩ := mem_referenceSources hrun
  refine ⟨b', n', hv', hplace, hb', hall, ?_⟩
  intro t
  have hn : (x.walk q d).node id = node := by
    simp only [TraceContext.node, walk, hnode, Option.getD_some]
  have hcomputed : (x.walk q d).terminal? ((x.walk q d).node id) = none := by
    rw [hn]
    refine terminal?_computed ?_
    rw [horigin]
    rfl
  rw [TraceContext.emits_iff hcomputed, hn]
  constructor
  · rintro ⟨id', hid, he⟩
    obtain ⟨k, r, hr, hrun'⟩ := (hmem id').mp hid
    exact ⟨k, r, hr, id', d, hrun', he⟩
  · rintro ⟨k, r, hr, hcontributes⟩
    obtain ⟨id', hrun'⟩ := hall k r hr
    exact ⟨id', (hmem id').mpr ⟨k, r, hr, hrun'⟩,
      (contributes_iff_of_run hrun' t).mp hcontributes⟩

/-- A builder finds a column of a select under the key of its item. -/
theorem find?_of_columnWithin (hb : b.opened.body = .select s) {i : Nat} {item : SelectItem}
    (hi : s.items[i]? = some item) {id : Nat} {d' : Draft}
    (h : columnWithin x.catalog x.limit n b (.index i) d = .ok (id, d')) :
    d'.find? (.column b.opened.place (some i)) = some id := by
  obtain ⟨p, hp, hk⟩ := ColumnLineage.find?_of_columnWithin h
  rw [PlacedBody.plan_index hb hi] at hp
  cases hp
  exact hk

end AnalysisContext

/-! ## Correlated references -/

/-- A reference `label.column` in the first item of a scalar query, which an item of a visited select
reads. Its alias is no source of the scalar query, but it is one of the select. -/
structure Correlation (q : Query) where
  /-- The body that the select around it is. -/
  outer : PlacedBody
  select : Select
  /-- The position of the item that reads the scalar query. -/
  index : Nat
  item : SelectItem
  /-- The position of the scalar query among the references of the item. -/
  position : Nat
  query : Query
  inner : Select
  first : SelectItem
  /-- The position of the reference among those of the first item. -/
  reference : Nat
  label : String
  column : String
  known : String
  source : SelectSource
  visits : q.Visits outer
  outer_body : outer.opened.body = .select select
  item_at : select.items[index]? = some item
  query_at : item.references[position]? = some (.scalar query)
  inner_body : (query.placed (.scalar index position :: outer.opened.place)
    outer.opened.ctes).opened.body = .select inner
  first_at : inner.items[0]? = some first
  reference_at : first.references[reference]? = some (.column (some label) column)
  free : ((query.placed (.scalar index position :: outer.opened.place)
    outer.opened.ctes).view inner).sources.get? (Text.toLower label) = none
  bound : (outer.view select).sources.get? (Text.toLower label) = some (known, source)

namespace Correlation

variable {q : Query}

def nested (c : Correlation q) : PlacedBody :=
  c.query.placed (.scalar c.index c.position :: c.outer.opened.place) c.outer.opened.ctes

def Contributed (c : Correlation q) (x : AnalysisContext) (d : Draft) (n : Nat) (t : String) : Prop :=
  x.Contributes q d n c.nested c.inner 0 c.reference (.column (some c.label) c.column) t

/-- What the reference would contribute if it stood in the select around it, in the place of the
scalar query. -/
def Direct (c : Correlation q) (x : AnalysisContext) (d : Draft) (n : Nat) (t : String) : Prop :=
  x.Contributes q d n c.outer c.select c.index c.position (.column (some c.label) c.column) t

/-- The reference contributes what it would in the select around it. -/
def Agrees (c : Correlation q) (x : AnalysisContext) (d : Draft) (n : Nat) : Prop :=
  ∀ t, c.Contributed x d n t ↔ c.Direct x d n t

theorem visits_nested (c : Correlation q) : q.Visits c.nested :=
  c.visits.tail (.scalar c.outer_body c.item_at c.query_at)

theorem dotless (c : Correlation q) (hq : q.DotlessColumns) : '.' ∉ c.column.toList := by
  refine hq _ (c.visits_nested.readColumns_subset c.inner_body ?_)
  refine List.mem_flatMap.mpr ⟨c.first, List.mem_of_getElem? c.first_at, ?_⟩
  exact List.mem_filterMap.mpr ⟨_, List.mem_of_getElem? c.reference_at, rfl⟩

variable {x : AnalysisContext} {d : Draft} {n : Nat}

/-- The reference contributes the column of the table that the query knows by its alias. -/
theorem contributed_iff (c : Correlation q) (hq : q.DotlessColumns)
    (hd : d.Fitting q x.catalog x.limit) (t : String) :
    c.Contributed x d n t ↔
      ((q.aliases x.defaults).get? (Text.toLower c.label)).map (·.column c.column) = some t :=
  AnalysisContext.contributes_of_free hd c.visits_nested c.inner_body (c.dotless hq) c.free 0
    c.reference t

/-- What the reference contributes is emitted by the node of the item around it. -/
theorem emits_of_contributed (c : Correlation q) (hq : q.DotlessColumns)
    (hd : d.Fitting q x.catalog x.limit) {id : Nat}
    (hk : d.find? (.column c.outer.opened.place (some c.index)) = some id) {t : String}
    (ht : c.Contributed x d n t) : (x.walk q d).Emits id t := by
  obtain ⟨b, m, hv, hplace, hb, hfound, hemits⟩ :=
    AnalysisContext.emits_item hd c.visits c.outer_body c.item_at hk
  -- The item was made by a visit with perhaps other common tables; it read the scalar query with
  -- these.
  obtain ⟨id', hrun⟩ := hfound c.position _ c.query_at
  have hv' : q.Visits (c.query.placed (.scalar c.index c.position :: b.opened.place) b.opened.ctes) :=
    hv.tail (.scalar hb c.item_at c.query_at)
  obtain ⟨hplace', hbody⟩ := hv'.opened_eq_of_place c.visits_nested
    (congrArg (Step.scalar c.index c.position :: ·) hplace)
  have hb' := hbody.trans c.inner_body
  have hk' := AnalysisContext.find?_of_columnWithin hb' c.first_at hrun
  obtain ⟨b₂, m₂, hv₂, -, hb₂, -, hemits'⟩ :=
    AnalysisContext.emits_item hd hv' hb' c.first_at hk'
  have hfree : (b₂.view c.inner).sources.get? (Text.toLower c.label) = none :=
    get?_view_eq_none_iff.mpr (get?_view_eq_none_iff.mp c.free)
  have hnested : (x.walk q d).Emits id' t := by
    refine (hemits' t).mpr ⟨c.reference, _, c.reference_at, ?_⟩
    rw [AnalysisContext.contributes_of_free hd hv₂ hb₂ (c.dotless hq) hfree]
    exact (c.contributed_iff hq hd t).mp ht
  exact (hemits t).mpr ⟨c.position, _, c.query_at, id', d, hrun, hnested⟩

/-- Where the source is a table, the reference contributes what it would in the select around it
exactly if the query knows that table by the alias. -/
theorem agrees_iff_of_table (c : Correlation q) (hq : q.DotlessColumns)
    (hd : d.Fitting q x.catalog x.limit) {r : TableReference} (hr : c.source = .table r) :
    c.Agrees x d n ↔ ((q.aliases x.defaults).get? (Text.toLower c.label)).map FullName.text =
      if r.isCteIn q.cteNames then none else some (FullName.resolve r x.defaults).text := by
  have hbound := c.bound
  rw [hr] at hbound
  have hsame : c.Agrees x d n ↔
      ((q.aliases x.defaults).get? (Text.toLower c.label)).map (·.column c.column) =
        if r.isCteIn q.cteNames then none
        else some ((FullName.resolve r x.defaults).column c.column) := by
    rw [Option.ext_iff]
    refine forall_congr' fun t => ?_
    rw [c.contributed_iff hq hd, Direct,
      AnalysisContext.contributes_of_table hd c.visits c.outer_body (c.dotless hq) hbound]
  rw [hsame]
  cases (q.aliases x.defaults).get? (Text.toLower c.label) with
  | none => split <;> simp
  | some f =>
    split
    · simp
    · simp only [Option.map_some, Option.some.injEq, FullName.column_eq_iff]

/-- Where the source is a table and the query knows no other table by the alias, the reference
contributes what it would in the select around it. -/
theorem agrees_of_unshared (c : Correlation q) (hq : q.DotlessColumns)
    (hd : d.Fitting q x.catalog x.limit) {r : TableReference} (hr : c.source = .table r)
    (hbase : r.isCteIn q.cteNames = false)
    (hunshared : ∀ u ∈ q.baseTables, Text.toLower u.knownAs = Text.toLower c.label →
      FullName.resolve u.reference x.defaults = FullName.resolve r x.defaults) :
    c.Agrees x d n := by
  have hm := OrderedMap.mem_of_get?_eq_some c.bound
  rw [hr] at hm
  obtain ⟨u, hu, href, hknown⟩ := c.visits.exists_tableUse c.outer_body hm
  obtain ⟨-, -, -, -, hkey⟩ := mem_sourceMap hm
  have hu' : u ∈ q.baseTables := by
    refine List.mem_filter.mpr ⟨hu, ?_⟩
    rw [href, hbase]
    rfl
  have hget : (q.aliases x.defaults).get? (Text.toLower c.label) =
      some (FullName.resolve r x.defaults) := by
    apply OrderedMap.get?_ofList_of_forall
    · refine List.mem_map.mpr ⟨u, hu', ?_⟩
      rw [href, hknown, hkey]
    · intro e he hek
      obtain ⟨u', hu'', rfl⟩ := List.mem_map.mp he
      exact hunshared u' hu'' hek
  rw [c.agrees_iff_of_table hq hd hr, hget, hbase]
  rfl

/-- Where the query knows no table by the alias, the reference contributes nothing. -/
theorem not_contributed_of_unknown (c : Correlation q) (hq : q.DotlessColumns)
    (hd : d.Fitting q x.catalog x.limit)
    (hunknown : ∀ u ∈ q.baseTables, Text.toLower u.knownAs ≠ Text.toLower c.label) (t : String) :
    ¬ c.Contributed x d n t := by
  rw [c.contributed_iff hq hd]
  intro h
  obtain ⟨f, hf, -⟩ := Option.map_eq_some_iff.mp h
  have hm := OrderedMap.mem_of_mem_ofList (OrderedMap.mem_of_get?_eq_some hf)
  obtain ⟨u, hu, he⟩ := List.mem_map.mp hm
  exact hunknown u hu (congrArg Prod.fst he)

/-- A correlated reference contributes the column of the last table of the whole query that is known
by its alias. That goes into the item around it, and into the trace of the item.

Where the source of the select around it is a table, this is what the reference would contribute
there exactly if that last table has the same full name, and so always if the query knows no other
table by the alias. Where the source is a common table or a derived table and the query knows no
table by the alias, the reference contributes nothing, whatever it would contribute there. -/
theorem agrees_iff_known_by_alias (x : AnalysisContext) (hq : q.DotlessColumns) {target : Target}
    (ht : target.Dotless) {root : Nat} {d : Draft}
    (hrun : columnWithin x.catalog x.limit (x.limit + 1) (q.placed [] []) target {} =
      .ok (root, d)) (c : Correlation q) (n : Nat) :
    (∀ t, c.Contributed x d n t ↔
      ((q.aliases x.defaults).get? (Text.toLower c.label)).map (·.column c.column) = some t) ∧
    (∀ id, d.find? (.column c.outer.opened.place (some c.index)) = some id →
      ∀ t, c.Contributed x d n t → (x.walk q d).Emits id t ∧
        ∀ found, id = root → q.traceOf x.catalog x.defaults x.limit target = .ok found →
          t ∈ found) ∧
    (∀ r, c.source = .table r →
      (c.Agrees x d n ↔ ((q.aliases x.defaults).get? (Text.toLower c.label)).map FullName.text =
        if r.isCteIn q.cteNames then none else some (FullName.resolve r x.defaults).text) ∧
      (r.isCteIn q.cteNames = false →
        (∀ u ∈ q.baseTables, Text.toLower u.knownAs = Text.toLower c.label →
          FullName.resolve u.reference x.defaults = FullName.resolve r x.defaults) →
        c.Agrees x d n)) ∧
    (∀ body declared, c.source = .query body declared →
      (∀ u ∈ q.baseTables, Text.toLower u.knownAs ≠ Text.toLower c.label) →
      (c.Agrees x d n ↔ ∀ t, ¬ c.Direct x d n t)) := by
  have hd : d.Fitting q x.catalog x.limit := fitting_of_run hq ht hrun
  refine ⟨fun t => c.contributed_iff hq hd t, ?_, ?_, ?_⟩
  · intro id hk t hcontributed
    have hemits := c.emits_of_contributed hq hd hk hcontributed
    refine ⟨hemits, ?_⟩
    rintro found rfl hfound
    exact ((Query.traced_of_traceOf hrun hfound).mem_iff t).mpr hemits
  · intro r hr
    exact ⟨c.agrees_iff_of_table hq hd hr, fun hbase => c.agrees_of_unshared hq hd hr hbase⟩
  · intro body declared _ hunknown
    refine forall_congr' fun t => ?_
    have hnot : ¬ c.Contributed x d n t := c.not_contributed_of_unknown hq hd hunknown t
    constructor
    · exact fun h hdirect => hnot (h.mpr hdirect)
    · exact fun hdirect => ⟨fun h => absurd h hnot, fun h => absurd h hdirect⟩

/-- `SELECT (SELECT b.a FROM s.v AS o) AS m FROM s.t AS b UNION ALL SELECT label.c FROM s.u AS label` -/
def twoBranches (label : String) : Query :=
  let table (name label : String) : TableTree :=
    .mk (.table ⟨[⟨"s", none⟩, ⟨name, none⟩]⟩ false (some ⟨⟨label, none⟩, []⟩) []) []
  .plain [] (.setOperation .union .all
    (.select (.plain
      [.expr (.scalar (.plain [] (.select (.plain [.plain "b" "a"] [table "v" "o"]))))
        (some ⟨"m", none⟩)]
      [table "t" "b"]))
    (.select (.plain [.plain label "c"] [table "u" label])))

/-- The reference `b.a` in the scalar query. -/
def inFirstBranch (label : String) : Correlation (twoBranches label) where
  outer := ⟨_, [.left], []⟩
  select := _
  index := 0
  item := _
  position := 0
  query := _
  inner := _
  first := _
  reference := 0
  label := "b"
  column := "a"
  known := "b"
  source := .table ⟨none, some "s", "t"⟩
  visits := .single (.left rfl)
  outer_body := rfl
  item_at := rfl
  query_at := rfl
  inner_body := rfl
  first_at := rfl
  reference_at := rfl
  free := rfl
  bound := rfl

/-- What a builder has made while it looked for the column `m`. -/
def finished (label : String) : Nat × Draft :=
  ((columnWithin ⟨∅⟩ 8 9 ((twoBranches label).placed [] []) (.name "m") {}).toOption).getD (0, {})

/-- The reference contributes a column of the table of the other branch if that has the same alias,
and one of its own table if not. -/
theorem agrees_iff_known_by_alias_twoBranches :
    ((twoBranches "b").trace ⟨∅⟩ ⟨none, none⟩ 8 "m" = .ok ["s.u.a", "s.u.c"] ∧
      (inFirstBranch "b").Contributed ⟨⟨∅⟩, ⟨none, none⟩, 8⟩ (finished "b").2 7 "s.u.a" ∧
      ¬ (inFirstBranch "b").Agrees ⟨⟨∅⟩, ⟨none, none⟩, 8⟩ (finished "b").2 7) ∧
    ((twoBranches "e").trace ⟨∅⟩ ⟨none, none⟩ 8 "m" = .ok ["s.t.a", "s.u.c"] ∧
      (inFirstBranch "e").Agrees ⟨⟨∅⟩, ⟨none, none⟩, 8⟩ (finished "e").2 7) := by
  have hrun : ∀ label ∈ ["b", "e"],
      columnWithin ⟨∅⟩ 8 9 ((twoBranches label).placed [] []) (.name "m") {} =
        .ok ((finished label).1, (finished label).2) := by
    have hok : ∀ label ∈ ["b", "e"],
        (columnWithin ⟨∅⟩ 8 9 ((twoBranches label).placed [] []) (.name "m") {}).isOk := by
      decide +kernel
    intro label hlabel
    rw [Prod.mk.eta, finished]
    exact eq_ok_getD (hok label hlabel)
  have hdotless : ∀ label ∈ ["b", "e"], (twoBranches label).DotlessColumns := by
    decide +kernel
  have htarget : (Target.name "m").Dotless := by
    change '.' ∉ "m".toList
    decide
  obtain ⟨hb, -, hagrees, -⟩ := agrees_iff_known_by_alias ⟨⟨∅⟩, ⟨none, none⟩, 8⟩
    (hdotless "b" (by simp)) htarget (hrun "b" (by simp)) (inFirstBranch "b") 7
  obtain ⟨-, -, hunshared, -⟩ := agrees_iff_known_by_alias ⟨⟨∅⟩, ⟨none, none⟩, 8⟩
    (hdotless "e" (by simp)) htarget (hrun "e" (by simp)) (inFirstBranch "e") 7
  refine ⟨⟨by decide +kernel, (hb _).mpr (by decide +kernel), ?_⟩, by decide +kernel, ?_⟩
  · rw [(hagrees _ rfl).1]
    decide +kernel
  · exact (hunshared _ rfl).2 (by decide +kernel) (by decide +kernel)

end Correlation

end ColumnLineage
