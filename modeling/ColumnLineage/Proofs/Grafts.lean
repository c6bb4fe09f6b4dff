import ColumnLineage.Proofs.Comparison
import ColumnLineage.Proofs.Dependencies
import ColumnLineage.Proofs.FinishedDrafts

/-!
# A query inside another one

A query may be put into another one at a place where some common tables are in view. A builder that
comes to it there does what a builder does that starts with it, as long as no table in it has the
name of one of those common tables: all places lie below the given one, and all nodes have numbers
behind those that are there already.
-/

namespace ColumnLineage

/-- Where a query is put into another one. -/
structure Graft where
  base : Place
  outer : List PlacedCte
  /-- The number of nodes that are made before. -/
  offset : Nat

variable {b : PlacedBody}

namespace Graft

variable {g : Graft}

/-! ## Places, tables and bodies -/

/-- A place of the query, seen from outside. -/
def place (g : Graft) (p : Place) : Place :=
  p ++ g.base

/-- A common table of the query, seen from outside. -/
def cte (g : Graft) (c : PlacedCte) : PlacedCte :=
  ⟨c.cte, g.place c.place⟩

/-- The common tables in view, those outside included. -/
def ctes (g : Graft) (cs : List PlacedCte) : List PlacedCte :=
  cs.map g.cte ++ g.outer

/-- A body of the query, seen from outside. -/
def body (g : Graft) (b : PlacedBody) : PlacedBody :=
  ⟨b.body, g.place b.place, g.ctes b.ctes⟩

/-- A source of a select of the query, seen from outside. -/
def source (g : Graft) : SelectSource → SelectSource
  | .table r => .table r
  | .query b declared => .query (g.body b) declared
  | .function => .function

theorem ctes_placedCtes (place : Place) (own : List Cte) (cs : List PlacedCte) :
    g.ctes (placedCtes place own ++ cs) = placedCtes (g.place place) own ++ g.ctes cs := by
  simp [ctes, placedCtes, cte, Graft.place, List.map_reverse, Function.comp_def]

theorem body_placed (q : Query) (place : Place) (cs : List PlacedCte) :
    g.body (q.placed place cs) = q.placed (g.place place) (g.ctes cs) := by
  unfold Query.placed
  rw [← ctes_placedCtes]
  rfl

theorem body_openedBody (g : Graft) : (b : Body) → (place : Place) → (cs : List PlacedCte) →
    g.body (b.opened place cs) = b.opened (g.place place) (g.ctes cs)
  | .parens { ctes := own, body, .. }, place, cs => by
      rw [Body.opened, Body.opened, body_openedBody g body, ctes_placedCtes]
      rfl
  | .select _, _, _ => rfl
  | .setOperation _ _ _ _, _, _ => rfl
  | .values _ _, _, _ => rfl
  | .defaultValues, _, _ => rfl
  | .table _, _, _ => rfl
  | .insert _, _, _ => rfl
  | .update _, _, _ => rfl

theorem opened_body (b : PlacedBody) : (g.body b).opened = g.body b.opened :=
  (g.body_openedBody b.body b.place b.ctes).symm

/-! ## Sources -/

/-- No table of the query has the bare name of a common table outside. -/
def Apart (g : Graft) (q : Query) : Prop :=
  ∀ c ∈ g.outer, ∀ u ∈ q.tableUses, u.reference.isBare = true →
    Text.equalIgnoringCase c.cte.name.value u.reference.name = false

theorem visibleCte?_ctes {r : TableReference}
    (h : ∀ c ∈ g.outer, r.isBare = true → Text.equalIgnoringCase c.cte.name.value r.name = false)
    (cs : List PlacedCte) : visibleCte? (g.ctes cs) r = (visibleCte? cs r).map g.cte := by
  unfold visibleCte?
  split
  · rename_i hbare
    have hnone : g.outer.find?
        (fun c => Text.equalIgnoringCase c.cte.name.value r.name) = none := by
      rw [List.find?_eq_none]
      intro c hc
      simp [h c hc hbare]
    rw [ctes, List.find?_append, hnone, Option.or_none, List.find?_map]
    rfl
  · rfl

theorem sourceOf?_graft {q : Query} (hq : g.Apart q) (hv : q.Visits b) {s : Select}
    (hb : b.opened.body = .select s) {i : Nat} {factor : TableFactor}
    (hf : s.factors[i]? = some factor) :
    sourceOf? (g.place b.opened.place) (g.ctes b.opened.ctes) i factor =
      (sourceOf? b.opened.place b.opened.ctes i factor).map fun x => (x.1, g.source x.2) := by
  cases factor with
  | table name numbered label hints =>
    have hu := hv.factor_mem_tableUses hb hf
    simp only [sourceOf?]
    rw [visibleCte?_ctes (fun c hc => hq c hc _ hu)]
    cases visibleCte? b.opened.ctes (.ofObjectName name) with
    | none => rfl
    | some c =>
      simp only [Option.map_some, Graft.source, body_placed]
      rfl
  | derived lateral inner label =>
    cases label with
    | none => rfl
    | some a =>
      simp only [sourceOf?, Option.map_some, Graft.source, body_placed]
      rfl
  | tableFunction name arguments numbered label hints => rfl
  | lateralFunction name arguments label => cases label <;> rfl
  | tableOf e label => cases label <;> rfl
  | unnest arrays numbered label offset => cases label <;> rfl
  | nested tables label => rfl
  | document opening e rest label => rfl
  | pivot table aggregates column values otherwise label => rfl
  | unpivot table value name columns label => rfl

/-- A source as it is seen from outside. -/
def Source (g : Graft) (source source' : SelectSource) : Prop :=
  source' = g.source source

/-- The sources of a visited select are those that are seen from outside, one by one. -/
theorem sources_view {q : Query} (hq : g.Apart q) (hv : q.Visits b) {s : Select}
    (hb : b.opened.body = .select s) :
    List.Forall₂ (EntryRel (EntryRel g.Source)) (b.view s).sources.entries
      ((g.body b).view s).sources.entries := by
  unfold PlacedBody.view
  rw [opened_body]
  refine OrderedMap.forall₂_ofList (forall₂_filterMap ?_)
  rintro ⟨factor, i⟩ hm
  have hf : s.factors[i]? = some factor := List.mem_zipIdx_iff_getElem?.mp hm
  have hsource := sourceOf?_graft hq hv hb hf
  dsimp only [Graft.body]
  rw [hsource]
  cases sourceOf? b.opened.place b.opened.ctes i factor with
  | none => exact .none
  | some x => exact .some ⟨rfl, rfl, rfl⟩

theorem ownsColumn_source (catalog : Catalog) (column : String) (source : SelectSource) :
    ownsColumn catalog column (g.source source) = ownsColumn catalog column source := by
  cases source <;> rfl

/-- A column of a visited select is read from the same source, seen from outside. -/
theorem sourceOf?_view {q : Query} (hq : g.Apart q) (hv : q.Visits b) {s : Select}
    (hb : b.opened.body = .select s) (catalog : Catalog) (qualifier : Option String)
    (column : String) :
    Option.Rel (EntryRel g.Source) ((b.view s).sourceOf? catalog qualifier column)
      (((g.body b).view s).sourceOf? catalog qualifier column) := by
  have hrel := sources_view hq hv hb
  cases qualifier with
  | some label => exact OrderedMap.rel_get? hrel _
  | none =>
    have hvalues := OrderedMap.forall₂_values hrel
    have howners : List.Forall₂ (EntryRel g.Source)
        ((b.view s).sources.values.filter fun x => ownsColumn catalog column x.2)
        (((g.body b).view s).sources.values.filter fun x => ownsColumn catalog column x.2) := by
      refine List.rel_filter ?_ hvalues
      rintro ⟨label, source⟩ ⟨label', source'⟩ ⟨-, hxy⟩
      obtain rfl : source' = g.source source := hxy
      simp only [ownsColumn_source]
    simp only [SelectView.sourceOf?, soleOwner?_eq]
    have hsole := sole?_rel hvalues
    generalize sole? (b.view s).sources.values = found at hsole
    generalize sole? ((g.body b).view s).sources.values = found' at hsole
    cases hsole with
    | some hxy => exact .some hxy
    | none => exact sole?_rel howners

/-! ## Drafts -/

/-- A key of a draft, seen from outside. -/
def key (g : Graft) : Key → Key
  | .column p index => .column (g.place p) index
  | .leaf p name => .leaf (g.place p) name

/-- A node of a draft, seen from outside. -/
def node (g : Graft) (n : Node) : Node :=
  { n with sources := n.sources.map (· + g.offset) }

/-- What is wanted for a column, seen from outside. -/
def wanted (g : Graft) : Wanted → Wanted
  | .leaf name origin => .leaf name origin
  | .column b target => .column (g.body b) target

/-- What a column is made of, seen from outside. -/
def plan (g : Graft) (p : Plan) : Plan :=
  ⟨g.key p.key, p.name, p.origin, p.once, p.wanted.map g.wanted⟩

theorem key_inj {k k' : Key} : g.key k = g.key k' ↔ k = k' := by
  cases k <;> cases k' <;> simp [key, Graft.place]

section plans

variable {q : Query} (hq : g.Apart q) {b : PlacedBody} (hv : q.Visits b) (catalog : Catalog)

include hq hv

theorem wanted_view {s : Select} (hb : b.opened.body = .select s) (qualifier : Option String)
    (column : String) : ((g.body b).view s).wanted catalog qualifier column =
      g.wanted ((b.view s).wanted catalog qualifier column) := by
  have hrel := sourceOf?_view hq hv hb catalog qualifier column
  unfold SelectView.wanted
  generalize (b.view s).sourceOf? catalog qualifier column = found at hrel
  generalize ((g.body b).view s).sourceOf? catalog qualifier column = found' at hrel
  cases hrel with
  | none => rfl
  | @some x y hxy =>
    obtain ⟨label, source⟩ := x
    obtain ⟨label', source'⟩ := y
    obtain ⟨rfl, rfl⟩ := hxy
    cases source <;> rfl

theorem wantedReferences_view {s : Select} (hb : b.opened.body = .select s) (i : Nat) :
    (references : List Reference) → (k : Nat) →
      ((g.body b).view s).wantedReferences catalog i k references =
        ((b.view s).wantedReferences catalog i k references).map g.wanted
  | [], _ => rfl
  | r :: rest, k => by
      refine congrArg₂ List.cons ?_ (wantedReferences_view hb i rest (k + 1))
      cases r with
      | column qualifier name => exact wanted_view hq hv catalog hb qualifier name
      | scalar inner =>
        simp only [SelectView.wantedReference, PlacedBody.view, opened_body, wanted, body_placed]
        rfl

theorem plan_body (target : Target) :
    (g.body b).plan catalog target = (b.plan catalog target).map g.plan := by
  have hopened : (g.body b).opened.body = b.opened.body := by rw [opened_body]; rfl
  unfold PlacedBody.plan
  rw [hopened]
  cases hb : b.opened.body with
  | select s =>
    dsimp only
    cases s.pick target with
    | error e => rfl
    | ok pick =>
      refine congrArg Except.ok ?_
      cases pick with
      | item i item =>
        simp only [Plan.ofPick, wantedReferences_view hq hv catalog hb, Graft.plan]
        simp only [PlacedBody.view, opened_body]
        rfl
      | star qualifier column =>
        simp only [Plan.ofPick, wanted_view hq hv catalog hb, Graft.plan]
        simp only [PlacedBody.view, opened_body]
        rfl
  | setOperation op quantifier left right =>
    dsimp only
    rw [opened_body]
    cases positionOf (Body.setOperation op quantifier left right).positionalNames target <;> rfl
  | _ =>
    rw [opened_body]
    rfl

end plans

/-- A draft holds a copy of another one behind the nodes that were made before. -/
structure Holds (g : Graft) (d d' : Draft) : Prop where
  size : d'.nodes.size = d.nodes.size + g.offset
  nodes : ∀ i : Nat, d'.nodes[i + g.offset]? = d.nodes[i]?.map g.node
  keys : ∀ k : Key, d'.find? (g.key k) = (d.find? k).map (· + g.offset)

theorem Holds.start {d d' : Draft} (h : g.Holds d d') (k : Key) (name : String) (origin : Origin) :
    g.Holds (d.start k name origin) (d'.start (g.key k) name origin) where
  size := by
    rw [Draft.nodes_start, Draft.nodes_start, Array.size_push, Array.size_push, h.size]
    omega
  nodes i := by
    rw [Draft.nodes_start, Draft.nodes_start, Array.getElem?_push, Array.getElem?_push, h.size]
    by_cases hi : i = d.nodes.size
    · rw [if_pos (by omega), if_pos hi]
      rfl
    · rw [if_neg (by omega), if_neg hi, h.nodes]
  keys k' := by
    rw [Draft.find?_start, Draft.find?_start, h.size]
    by_cases hk : k = k'
    · rw [if_pos (key_inj.mpr hk), if_pos hk]
      rfl
    · rw [if_neg (fun he => hk (key_inj.mp he)), if_neg hk, h.keys]

theorem Holds.finish {d d' : Draft} (h : g.Holds d d') (id : Nat) (sources : List Nat) :
    g.Holds (d.finish id sources) (d'.finish (id + g.offset) (sources.map (· + g.offset))) where
  size := by
    rw [Draft.size_finish, Draft.size_finish, h.size]
  nodes i := by
    rw [Draft.nodes_finish, Draft.nodes_finish, h.nodes]
    by_cases hi : id = i
    · rw [if_pos (by omega), if_pos hi, Option.map_map, Option.map_map]
      rfl
    · rw [if_neg (by omega), if_neg hi]
  keys k := by
    rw [Draft.find?_finish, Draft.find?_finish, h.keys]

end Graft

/-! ## Builders side by side -/

/-- A failure that names a limit on depth. -/
def GraphError.IsDepth (e : GraphError) : Prop :=
  ∃ limit, e = .depthExceeded limit

/-- The same failure under another limit. -/
def GraphError.under (limit : Nat) : GraphError → GraphError
  | .depthExceeded _ => .depthExceeded limit
  | e => e

theorem PlacedBody.under_of_plan {catalog : Catalog} {target : Target} {e : GraphError}
    (h : b.plan catalog target = .error e) (limit : Nat) : e.under limit = e := by
  have hitem : ∀ {s : Select} {i : Nat} {e : GraphError}, s.itemAt i = .error e →
      e.under limit = e := by
    intro s i e h
    unfold Select.itemAt at h
    split at h <;> cases h
    rfl
  unfold plan at h
  split at h
  · rename_i s hb
    have hp := map_eq_error.mp h
    cases target with
    | index i => exact hitem hp
    | name column =>
      simp only [Select.pick] at hp
      split at hp
      · exact hitem hp
      · split at hp <;> cases hp
        rfl
  · have hp := map_eq_error.mp h
    cases target with
    | index i => cases hp
    | name column =>
      simp only [positionOf] at hp
      split at hp <;> cases hp
      rfl
  · cases h

namespace Graft

variable {g : Graft} {limit : Nat} {cut : GraphError → Prop}

/-- A builder at the start of the query and one that comes to it from outside, whose limit is
given. -/
def builders (g : Graft) (limit : Nat) (cut : GraphError → Prop) :
    Comparison Draft Draft GraphError GraphError where
  state := g.Holds
  failure e e' := e' = e.under limit
  cut := cut

/-- A number of a node, seen from outside. -/
def Moved (g : Graft) (id id' : Nat) : Prop :=
  id' = id + g.offset

/-- Numbers of nodes, seen from outside. -/
def MovedAll (g : Graft) (ids ids' : List Nat) : Prop :=
  ids' = ids.map (· + g.offset)

theorem matches_node (k : Key) (name : String) (origin : Origin)
    {sources sources' : Build (List Nat)}
    (hs : (g.builders limit cut).Matches g.MovedAll sources sources') :
    (g.builders limit cut).Matches g.Moved (Draft.node k name origin sources)
      (Draft.node (g.key k) name origin sources') := by
  intro d d' hd
  have hsources := hs (hd.start k name origin)
  rw [Draft.node_run, Draft.node_run, Graft.Holds.keys hd k]
  cases d.find? k with
  | some id => exact .ok rfl hd
  | none =>
    simp only [Option.map_none]
    generalize sources (d.start k name origin) = r at hsources
    generalize sources' (d'.start (g.key k) name origin) = r' at hsources
    cases hsources with
    | ok hids hfound =>
      refine .ok (Graft.Holds.size hd) ?_
      rw [show _ = _ from hids, Graft.Holds.size hd]
      exact Graft.Holds.finish hfound _ _
    | error he => exact .error he
    | cut he => exact .cut he

theorem movedAll_insert (once : Bool) {found found' : List Nat} (hfound : g.MovedAll found found')
    {id id' : Nat} (hid : g.Moved id id') :
    g.MovedAll (insertFound once found id) (insertFound once found' id') := by
  obtain rfl := hfound
  obtain rfl := hid
  have hmem : (found.map (· + g.offset)).contains (id + g.offset) = found.contains id := by
    simp
  unfold MovedAll insertFound
  rw [hmem]
  split
  · rfl
  · rw [List.map_append]
    rfl

variable {deeper deeper' : Deeper}

theorem matches_runAll {place : Place} {once : Bool} : (wanted : List Wanted) →
    (∀ b t, .column b t ∈ wanted →
      (g.builders limit cut).Matches g.Moved (deeper b t) (deeper' (g.body b) t)) →
    (found found' : List Nat) → g.MovedAll found found' →
      (g.builders limit cut).Matches g.MovedAll (Wanted.runAll deeper place once found wanted)
        (Wanted.runAll deeper' (g.place place) once found' (wanted.map g.wanted))
  | [], _, _, _, hfound => Comparison.matches_pure hfound
  | w :: rest, hd, found, found', hfound => by
      refine Comparison.Matches.bind (R := g.Moved) ?_ fun id id' hid =>
        matches_runAll rest (fun b t hw => hd b t (List.mem_cons_of_mem _ hw)) _ _
          (movedAll_insert once hfound hid)
      cases w with
      | leaf name origin =>
        exact matches_node (.leaf place name) name origin (Comparison.matches_pure rfl)
      | column b t => exact hd b t List.mem_cons_self

/-- A column of a body is found from outside as it is from the start of the query. -/
theorem matches_bodyColumn {q : Query} (hq : g.Apart q) {catalog : Catalog} (hv : q.Visits b)
    (hd : ∀ b', b.Enters b' → ∀ target : Target,
      (g.builders limit cut).Matches g.Moved (deeper b' target) (deeper' (g.body b') target))
    (target : Target) :
    (g.builders limit cut).Matches g.Moved (bodyColumn catalog deeper b target)
      (bodyColumn catalog deeper' (g.body b) target) := by
  rw [bodyColumn_eq, bodyColumn_eq, plan_body hq hv]
  cases hp : b.plan catalog target with
  | error e => exact Comparison.matches_throw (PlacedBody.under_of_plan hp limit).symm
  | ok p =>
    have hplans := PlacedBody.plans_of_plan hp
    have hplace : (g.key p.key).place = g.place p.key.place := by
      cases p.key <;> rfl
    refine matches_node p.key p.name p.origin ?_
    rw [Plan.sources, Plan.sources, Graft.plan, hplace]
    exact matches_runAll p.wanted (fun b' t hw => hd b' (hplans.seeks hw).enters t) [] [] rfl

/-- With the same number of levels left, or more if the first run may be cut short, a builder finds
from outside what it finds from the start of the query. -/
theorem matches_columnWithin {q : Query} (hq : g.Apart q) {catalog : Catalog} {limit₀ : Nat} :
    (n n' : Nat) → (g.builders limit cut).Levels (.depthExceeded limit₀) n n' →
      {b : PlacedBody} → q.Visits b → (target : Target) →
      (g.builders limit cut).Matches g.Moved
        (columnWithin catalog limit₀ n b target) (columnWithin catalog limit n' (g.body b) target)
  | 0, 0, _, _, _, _ => Comparison.matches_throw rfl
  | 0, _ + 1, h, _, _, _ => Comparison.matches_of_cut h.cut _
  | _ + 1, 0, h, _, _, _ => absurd h Comparison.not_levels_zero
  | n + 1, n' + 1, h, _, hv, target => by
      have hless := Comparison.levels_succ_iff.mp h
      exact matches_bodyColumn hq hv
        (fun _ he target' => matches_columnWithin hq n n' hless (hv.tail he) target') target

end Graft

/-! ## Walks side by side -/

/-- A failure that names a limit on depth. -/
def TraceError.IsDepth (e : TraceError) : Prop :=
  ∃ limit, e = .depthExceeded limit

namespace Graft

/-- A graph holds a copy of another one, whose nodes contribute to lineage what they do there. -/
structure Mirrors (g : Graft) (x x' : TraceContext) : Prop where
  sources : ∀ id, (x'.node (id + g.offset)).sources = (x.node id).sources.map (· + g.offset)
  /-- It stands for the same column, if it does for any. -/
  terminal : ∀ id, x'.terminal? (x'.node (id + g.offset)) = x.terminal? (x.node id)

/-- A walk over a graph and one over the copy, whose limit is given. They fail only where they come
too deep. -/
def walks (g : Graft) (limit : Nat) (cut : TraceError → Prop) :
    Comparison TraceMemo TraceMemo TraceError TraceError where
  state memo memo' := ∀ id, memo'.get? (id + g.offset) = memo.get? id
  failure e e' := e.IsDepth ∧ e' = .depthExceeded limit
  cut := cut

variable {g : Graft} {limit : Nat} {cut : TraceError → Prop} {x x' : TraceContext}

theorem matches_unionOf {walk walk' : Nat → Walk (List String)}
    (hw : ∀ id, (g.walks limit cut).Matches Eq (walk id) (walk' (id + g.offset))) :
    (ids : List Nat) → (found : List String) → (g.walks limit cut).Matches Eq
      (TraceContext.unionOf walk found ids)
      (TraceContext.unionOf walk' found (ids.map (· + g.offset)))
  | [], _ => Comparison.matches_pure rfl
  | id :: rest, found => by
      refine (hw id).bind fun more more' hmore => ?_
      subst hmore
      exact matches_unionOf hw rest _

theorem matches_ownLineage (hx : g.Mirrors x x') {walk walk' : Nat → Walk (List String)}
    (hw : ∀ id, (g.walks limit cut).Matches Eq (walk id) (walk' (id + g.offset))) (id : Nat) :
    (g.walks limit cut).Matches Eq (x.ownLineage walk id)
      (x'.ownLineage walk' (id + g.offset)) := by
  unfold TraceContext.ownLineage
  rw [hx.terminal, hx.sources]
  cases x.terminal? (x.node id) with
  | some column => exact Comparison.matches_pure rfl
  | none => exact matches_unionOf hw _ _

/-- With the same number of levels left, or more if the first walk may be cut short, a walk over the
copy of a graph collects what a walk over the graph does. -/
theorem matches_lineage (hx : g.Mirrors x x') (hlimit : x'.limit = limit) :
    (n n' : Nat) → (g.walks limit cut).Levels (.depthExceeded x.limit) n n' → (id : Nat) →
      (g.walks limit cut).Matches Eq (x.lineage n id) (x'.lineage n' (id + g.offset))
  | 0, 0, _, _ => Comparison.matches_throw ⟨⟨_, rfl⟩, congrArg TraceError.depthExceeded hlimit⟩
  | 0, _ + 1, h, _ => Comparison.matches_of_cut h.cut _
  | _ + 1, 0, h, _ => absurd h Comparison.not_levels_zero
  | n + 1, n' + 1, h, id => by
      have hless := Comparison.levels_succ_iff.mp h
      intro memo memo' hm
      rw [TraceContext.lineage_succ, TraceContext.lineage_succ, hm id]
      cases memo.get? id with
      | some known => exact .ok rfl hm
      | none =>
        refine ((matches_ownLineage hx (matches_lineage hx hlimit n n' hless) id).bind
          fun found found' hfound => ?_) hm
        subst hfound
        refine Comparison.Matches.bind (Comparison.matches_modify ?_) fun _ _ _ =>
          Comparison.matches_pure rfl
        -- What is remembered under one number on the one side is so under the other.
        intro memo memo' hm id'
        rw [OrderedMap.get?_insert, OrderedMap.get?_insert, hm id']
        by_cases hid : id = id'
        · rw [if_pos (by omega), if_pos hid]
        · rw [if_neg (by omega), if_neg hid]

end Graft

end ColumnLineage
