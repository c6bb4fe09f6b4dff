import ColumnLineage.Proofs.Grafts

/-!
# The limit on depth

A builder and the walk behind it stop when they come too deep. Under a larger limit both go the same
way and only stop later, so a limit has no influence on a trace but to turn it into a failure that
names the limit.

* `Query.trace_of_le`: a trace that is not too deep is the same under every larger limit.
-/

namespace ColumnLineage

/-! ## A query in its own place -/

namespace Graft

def same : Graft :=
  ⟨[], [], 0⟩

theorem body_same (b : PlacedBody) : same.body b = b := by
  have hcte : same.cte = id := by
    funext c
    simp [cte, Graft.place, same]
  have hctes : same.ctes b.ctes = b.ctes := by
    rw [Graft.ctes, hcte, List.map_id]
    exact List.append_nil _
  have hplace : same.place b.place = b.place := List.append_nil _
  rw [Graft.body, hctes, hplace]

theorem node_same : same.node = id := by
  funext n
  simp [node, same]

theorem key_same (k : Key) : same.key k = k := by
  cases k <;> simp [key, Graft.place, same]

theorem holds_same (d : Draft) : same.Holds d d where
  size := rfl
  nodes i := by
    rw [node_same, Option.map_id]
    rfl
  keys k := by
    rw [key_same]
    exact Option.map_id'.symm

theorem nodes_of_holds_same {d d' : Draft} (h : same.Holds d d') : d'.nodes = d.nodes := by
  apply Array.ext_getElem?
  intro i
  have hi := h.nodes i
  rwa [node_same, Option.map_id] at hi

theorem apart_same (q : Query) : same.Apart q := by
  intro c hc
  cases hc

theorem mirrors_limit (x : TraceContext) (limit : Nat) : same.Mirrors x { x with limit } where
  sources _ := (List.map_id _).symm
  terminal _ := rfl

end Graft

/-! ## Graphs -/

section graphs

variable (q : Query) (catalog : Catalog) (column : String) {m m' : Nat}

/-- With as many levels left, or with more, a builder goes the same way. -/
theorem agree_columnWithin {cut : GraphError → Prop}
    (h : (Graft.same.builders m' cut).Levels (.depthExceeded m) m m') :
    (Graft.same.builders m' cut).Agree Graft.same.Moved
      (columnWithin catalog m (m + 1) (q.placed [] []) (.name column) {})
      (columnWithin catalog m' (m' + 1) (q.placed [] []) (.name column) {}) := by
  have hmatch : (Graft.same.builders m' cut).Matches Graft.same.Moved
      (columnWithin catalog m (m + 1) (q.placed [] []) (.name column))
      (columnWithin catalog m' (m' + 1) (Graft.same.body (q.placed [] [])) (.name column)) :=
    Graft.matches_columnWithin (Graft.apart_same q) _ _ (Comparison.levels_succ_iff.mpr h) .refl _
  rw [Graft.body_same] at hmatch
  exact hmatch (Graft.holds_same {})

/-- A graph that is not too deep is the same under every larger limit. -/
theorem Query.lineageGraph_of_le (h : m ≤ m')
    (hne : ∀ e, q.lineageGraph catalog column m = .error e → ¬ e.IsDepth) :
    q.lineageGraph catalog column m' = q.lineageGraph catalog column m := by
  have hlevels : (Graft.same.builders m' GraphError.IsDepth).Levels (.depthExceeded m) m m' :=
    Comparison.levels_of_le h ⟨m, rfl⟩
  have hruns := agree_columnWithin q catalog column hlevels
  unfold Query.lineageGraph at hne ⊢
  generalize columnWithin catalog m (m + 1) (q.placed [] []) (.name column) {} = r at hruns hne ⊢
  generalize columnWithin catalog m' (m' + 1) (q.placed [] []) (.name column) {} = r' at hruns ⊢
  cases hruns with
  | ok hroot hd =>
    obtain rfl := hroot
    change Except.ok (Graph.mk _ _) = Except.ok (Graph.mk _ _)
    rw [Graft.nodes_of_holds_same hd]
  | @error e e' he =>
    have hnot := hne e rfl
    cases e with
    | depthExceeded limit => exact absurd ⟨limit, rfl⟩ hnot
    | columnNotFound c => exact congrArg Except.error he
    | indexOutOfRange i => exact congrArg Except.error he
  | @cut e r he => exact absurd he (hne e rfl)

theorem Query.limit_of_lineageGraph {limit : Nat}
    (h : q.lineageGraph catalog column m = .error (.depthExceeded limit)) : limit = m := by
  have hruns := agree_columnWithin q catalog column
    ((Graft.same.builders m Comparison.uncut).levels_refl (.depthExceeded m) m)
  unfold Query.lineageGraph at h
  generalize columnWithin catalog m (m + 1) (q.placed [] []) (.name column) {} = r at hruns h
  cases hruns with
  | ok hroot hd => cases h
  | error he =>
    cases h
    exact GraphError.depthExceeded.inj he
  | cut he => exact he.elim

end graphs

/-! ## Walks -/

namespace TraceContext

variable (x : TraceContext) (id : Nat) {limit : Nat}

/-- With as many levels left, or with more, a walk goes the same way. -/
theorem agree_lineage {cut : TraceError → Prop}
    (h : (Graft.same.walks limit cut).Levels (.depthExceeded x.limit) x.limit limit) :
    (Graft.same.walks limit cut).Agree Eq (x.lineage (x.limit + 1) id ∅)
      ({ x with limit }.lineage (limit + 1) id ∅) :=
  Graft.matches_lineage (Graft.mirrors_limit x limit) rfl _ _ (Comparison.levels_succ_iff.mpr h) id
    fun _ => rfl

/-- A walk that does not come too deep collects the same under every larger limit. -/
theorem lineage_of_le (h : x.limit ≤ limit)
    (hne : ∀ e, x.lineage (x.limit + 1) id ∅ = .error e → ¬ e.IsDepth) :
    ({ x with limit }.lineage (limit + 1) id ∅).map Prod.fst =
      (x.lineage (x.limit + 1) id ∅).map Prod.fst := by
  have hlevels : (Graft.same.walks limit TraceError.IsDepth).Levels (.depthExceeded x.limit)
      x.limit limit := Comparison.levels_of_le h ⟨x.limit, rfl⟩
  have hruns := x.agree_lineage id hlevels
  generalize x.lineage (x.limit + 1) id ∅ = r at hruns hne ⊢
  generalize { x with limit }.lineage (limit + 1) id ∅ = r' at hruns ⊢
  cases hruns with
  | ok hfound _ => exact congrArg Except.ok hfound.symm
  | @error e e' he => exact absurd he.1 (hne e rfl)
  | @cut e r he => exact absurd he (hne e rfl)

/-- A walk fails only where it comes too deep, and names its own limit. -/
theorem eq_of_lineage {e : TraceError} (h : x.lineage (x.limit + 1) id ∅ = .error e) :
    e = .depthExceeded x.limit := by
  have hself : (Graft.same.walks x.limit Comparison.uncut).Agree Eq
      (x.lineage (x.limit + 1) id ∅) (x.lineage (x.limit + 1) id ∅) :=
    x.agree_lineage id (Comparison.levels_refl _ _ _)
  rw [h] at hself
  cases hself with
  | error he => exact he.2
  | cut he => exact he.elim

end TraceContext

/-! ## Traces -/

namespace Query

variable (q : Query) (catalog : Catalog) (d : Defaults) (column : String) {m m' : Nat}

theorem trace_eq (limit : Nat) :
    q.trace catalog d limit column =
      match q.lineageGraph catalog column limit with
      | .error e => .error (.ofGraphError e)
      | .ok g => ((q.traceContext d limit g).lineage (limit + 1) g.root ∅).map Prod.fst :=
  rfl

/-- A trace fails because it is too deep, or for a reason that has nothing to do with the limit. -/
theorem trace_eq_error {e : TraceError} (h : q.trace catalog d m column = .error e) :
    e = .depthExceeded m ∨
      ∃ e', q.lineageGraph catalog column m = .error e' ∧ ¬ e'.IsDepth ∧ e = .graph e' := by
  rw [trace_eq] at h
  cases hg : q.lineageGraph catalog column m with
  | error e' =>
    rw [hg] at h
    cases h
    cases e' with
    | depthExceeded limit =>
      obtain rfl := q.limit_of_lineageGraph catalog column hg
      exact Or.inl rfl
    | columnNotFound c => exact Or.inr ⟨_, rfl, by simp [GraphError.IsDepth], rfl⟩
    | indexOutOfRange i => exact Or.inr ⟨_, rfl, by simp [GraphError.IsDepth], rfl⟩
  | ok g =>
    rw [hg] at h
    dsimp only at h
    cases hw : (q.traceContext d m g).lineage (m + 1) g.root ∅ with
    | error e' =>
      rw [hw] at h
      cases h
      exact Or.inl ((q.traceContext d m g).eq_of_lineage g.root hw)
    | ok r =>
      rw [hw] at h
      cases h

theorem trace_eq_of_le (h : m ≤ m')
    (hne : ∀ limit, q.trace catalog d m column ≠ .error (.depthExceeded limit)) :
    q.trace catalog d m' column = q.trace catalog d m column := by
  have hgraph : q.lineageGraph catalog column m' = q.lineageGraph catalog column m := by
    refine q.lineageGraph_of_le catalog column h fun e he hdepth => ?_
    obtain ⟨limit, rfl⟩ := hdepth
    refine hne limit ?_
    rw [trace_eq, he]
    rfl
  rw [trace_eq, trace_eq, hgraph]
  cases hg : q.lineageGraph catalog column m with
  | error e => rfl
  | ok g =>
    refine (q.traceContext d m g).lineage_of_le g.root h fun e he hdepth => ?_
    obtain ⟨limit, rfl⟩ := hdepth
    refine hne limit ?_
    rw [trace_eq, hg]
    exact congrArg (Except.map Prod.fst) he

/-- A trace that is not too deep is the same under every larger limit. A trace that is too deep
names its own limit, in one way whether the graph is too deep or the walk over it. -/
theorem trace_of_le (h : m ≤ m') :
    ((∀ limit, q.trace catalog d m column ≠ .error (.depthExceeded limit)) →
      q.trace catalog d m' column = q.trace catalog d m column) ∧
    (∀ limit, q.trace catalog d m column = .error (.depthExceeded limit) → limit = m) ∧
    ∀ limit, q.trace catalog d m column ≠ .error (.graph (.depthExceeded limit)) := by
  refine ⟨q.trace_eq_of_le catalog d column h, ?_, ?_⟩
  · intro limit ht
    rcases q.trace_eq_error catalog d column ht with he | ⟨e, -, -, he⟩
    · exact TraceError.depthExceeded.inj he
    · cases he
  · intro limit ht
    rcases q.trace_eq_error catalog d column ht with he | ⟨e, -, hnot, he⟩
    · cases he
    · obtain rfl := TraceError.graph.inj he
      exact hnot ⟨limit, rfl⟩

/-- The column of a common table is three columns deep in the graph. Its trace is too deep under the
limit 1, and the same under the limits 2 and 256. -/
theorem trace_of_le_twoTables :
    AnalysisContext.twoTables.trace ⟨∅⟩ ⟨none, some "s"⟩ 1 "a" = .error (.depthExceeded 1) ∧
      AnalysisContext.twoTables.trace ⟨∅⟩ ⟨none, some "s"⟩ 2 "a" = .ok ["s.t.a"] ∧
      AnalysisContext.twoTables.trace ⟨∅⟩ ⟨none, some "s"⟩ 256 "a" = .ok ["s.t.a"] := by
  have hdeep : AnalysisContext.twoTables.trace ⟨∅⟩ ⟨none, some "s"⟩ 1 "a" =
      .error (.depthExceeded 1) := by
    decide
  have hok : AnalysisContext.twoTables.trace ⟨∅⟩ ⟨none, some "s"⟩ 2 "a" = .ok ["s.t.a"] := by
    decide
  have hne : ∀ limit, AnalysisContext.twoTables.trace ⟨∅⟩ ⟨none, some "s"⟩ 2 "a" ≠
      .error (.depthExceeded limit) := by
    intro limit h
    rw [hok] at h
    cases h
  have hle : 2 ≤ 256 := by decide
  exact ⟨hdeep, hok, ((trace_of_le _ _ _ _ hle).1 hne).trans hok⟩

end Query

end ColumnLineage
