import ColumnLineage.Proofs.DepthLimit

/-!
# Reachable columns

A node ends a path if it stands for a column of a base table by itself; from any other node paths
lead on to its sources. A walk over a graph collects the columns at which the paths from its root
end. It fails for every limit if one of these paths runs into a cycle, and it cannot fail if none of
them is longer than the limit.

* `TraceContext.lineage_reaches`: all of this for the graphs of columns.
-/

namespace ColumnLineage

/-! ## Graphs without loose ends -/

theorem Draft.Keyed.lt_of_run {d : Draft} (hd : d.Keyed) {catalog : Catalog} {limit n : Nat}
    {place : Place} {w : Wanted} {id : Nat}
    (h : w.run (columnWithin catalog limit n) place d = .ok (id, d)) : id < d.nodes.size := by
  cases w with
  | leaf name origin => exact hd.bounded (Wanted.find?_of_leaf h)
  | column b target =>
    obtain ⟨p, -, hk⟩ := find?_of_columnWithin h
    exact hd.bounded hk

/-- The root of the graph of a column and the sources of its nodes are nodes of the graph. -/
theorem Query.lineageGraph_closed {q : Query} {catalog : Catalog} {column : String} {depth : Nat}
    {g : Graph} (h : q.lineageGraph catalog column depth = .ok g) :
    g.root < g.nodes.size ∧ ∀ {id : Nat} {node : Node}, g.nodes[id]? = some node →
      ∀ source ∈ node.sources, source < g.nodes.size := by
  obtain ⟨⟨root, d⟩, hrun, hg⟩ := bind_eq_ok.mp h
  obtain rfl := pure_eq_ok.mp hg
  obtain ⟨hkeyed, hfinished⟩ := finished_of_run (hereditary_visits q) .refl hrun
  obtain ⟨p, -, hroot⟩ := find?_of_columnWithin hrun
  refine ⟨hkeyed.bounded hroot, fun {id node} hn source hs => ?_⟩
  obtain ⟨key, hk⟩ := hkeyed.surjective (Array.getElem?_eq_some_iff.mp hn).1
  obtain ⟨name, origin, sources, ids, hplanned, hnode, hsources⟩ := hfinished hk
  obtain rfl : node = _ := Option.some.inj (hn.symm.trans hnode)
  cases hplanned with
  | own n hv hp =>
    obtain ⟨-, hmem⟩ :=
      Wanted.mem_runAll (steady_columnWithin catalog depth n) _ hsources fun _ _ hk => hk
    obtain ⟨w, -, hw⟩ := ((hmem source).mp hs).resolve_left List.not_mem_nil
    exact hkeyed.lt_of_run hw
  | leaf hv hp hw =>
    obtain ⟨rfl, -⟩ := pure_run_eq_ok.mp hsources
    cases hs

namespace TraceContext

/-! ## Paths -/

/-- A node stands for a column of a base table by itself: it reads a table that is no common table,
or it has a name only, whose alias is known. -/
inductive Ends (x : TraceContext) (n : Node) : String → Prop
  | base {r : TableReference} (h : n.kind x.cteNames = .base r) :
    Ends x n ((FullName.resolve r x.defaults).column (behindLastDot n.name))
  | label {label column : String} {table : FullName} (h : n.kind x.cteNames = .label)
    (hs : splitLastDot? n.name = some (label, column))
    (ha : x.aliases.get? (Text.toLower label) = some table) : Ends x n (table.column column)

/-- An edge leads from a node of the graph that ends no path to one of its sources. -/
def Edge (x : TraceContext) (id source : Nat) : Prop :=
  ∃ n, x.nodes[id]? = some n ∧ (∀ s, ¬ x.Ends n s) ∧ source ∈ n.sources

/-- A path from one node ends at another one, which stands for a column. -/
def Reaches (x : TraceContext) (id : Nat) (s : String) : Prop :=
  ∃ last n, Relation.ReflTransGen x.Edge id last ∧ x.nodes[last]? = some n ∧ x.Ends n s

/-- A path from a node runs into a cycle. -/
def ReachesCycle (x : TraceContext) (id : Nat) : Prop :=
  ∃ again, Relation.ReflTransGen x.Edge id again ∧ Relation.TransGen x.Edge again again

variable {x : TraceContext}

theorem ends_iff {n : Node} {s : String} : x.Ends n s ↔ x.terminal? n = some s := by
  constructor
  · intro h
    cases h with
    | base h => simp only [terminal?, h]
    | label h hs ha => simp only [terminal?, h, hs, Option.bind_some, ha, Option.map_some]
  · intro h
    unfold terminal? at h
    split at h
    · rename_i r hk
      cases h
      exact .base hk
    · rename_i hk
      obtain ⟨⟨label, column⟩, hs, h⟩ := Option.bind_eq_some_iff.mp h
      obtain ⟨table, ha, rfl⟩ := Option.map_eq_some_iff.mp h
      exact .label hk hs ha
    · cases h

theorem not_ends_iff {n : Node} : (∀ s, ¬ x.Ends n s) ↔ x.terminal? n = none := by
  simp only [ends_iff]
  exact Option.eq_none_iff_forall_ne_some.symm

/-- What stands where there is no node neither ends a path nor has sources. -/
theorem node_cases (x : TraceContext) (id : Nat) : x.nodes[id]? = some (x.node id) ∨
    x.terminal? (x.node id) = none ∧ (x.node id).sources = [] := by
  unfold node
  cases x.nodes[id]? with
  | some n => exact Or.inl rfl
  | none => exact Or.inr ⟨rfl, rfl⟩

theorem edge_iff {id source : Nat} :
    x.Edge id source ↔ x.terminal? (x.node id) = none ∧ source ∈ (x.node id).sources := by
  constructor
  · rintro ⟨n, hn, hends, hs⟩
    have hnode : x.node id = n := by rw [node, hn, Option.getD_some]
    rw [hnode]
    exact ⟨not_ends_iff.mp hends, hs⟩
  · rintro ⟨ht, hs⟩
    rcases x.node_cases id with hn | ⟨-, hnone⟩
    · exact ⟨x.node id, hn, not_ends_iff.mpr ht, hs⟩
    · rw [hnone] at hs
      cases hs

theorem emits_iff_reaches {id : Nat} {s : String} : x.Emits id s ↔ x.Reaches id s := by
  constructor
  · intro h
    induction h with
    | @terminal id s h =>
      rcases x.node_cases id with hn | ⟨hnone, -⟩
      · exact ⟨id, _, .refl, hn, ends_iff.mpr h⟩
      · cases hnone.symm.trans h
    | source h hm _ ih =>
      obtain ⟨last, n, hpath, hn, hends⟩ := ih
      exact ⟨last, n, .head (edge_iff.mpr ⟨h, hm⟩) hpath, hn, hends⟩
  · rintro ⟨last, n, hpath, hn, hends⟩
    induction hpath using Relation.ReflTransGen.head_induction_on with
    | refl =>
      refine .terminal ?_
      rw [node, hn, Option.getD_some]
      exact ends_iff.mp hends
    | head hedge _ ih =>
      obtain ⟨ht, hm⟩ := edge_iff.mp hedge
      exact .source ht hm ih

/-! ## Cycles -/

theorem Founded.edge {id source : Nat} (h : x.Founded id) (he : x.Edge id source) :
    x.Founded source := by
  obtain ⟨ht, hm⟩ := edge_iff.mp he
  cases h with
  | terminal h' =>
    rw [ht] at h'
    cases h'
  | sources _ hs => exact hs source hm

/-- A cycle through a node would be one through its sources as well. -/
theorem Founded.not_cycle {id : Nat} (h : x.Founded id) : ¬ Relation.TransGen x.Edge id id := by
  induction h with
  | @terminal id s h =>
    intro hcycle
    obtain ⟨source, hedge, -⟩ := Relation.TransGen.head'_iff.mp hcycle
    rw [(edge_iff.mp hedge).1] at h
    cases h
  | @sources id _ _ ih =>
    intro hcycle
    obtain ⟨source, hedge, hback⟩ := Relation.TransGen.head'_iff.mp hcycle
    exact ih source (edge_iff.mp hedge).2 (Relation.TransGen.tail' hback hedge)

theorem Founded.not_reachesCycle {id : Nat} (h : x.Founded id) : ¬ x.ReachesCycle id := by
  rintro ⟨again, hpath, hcycle⟩
  have hagain : x.Founded again := by
    clear hcycle
    induction hpath with
    | refl => exact h
    | tail _ hedge ih => exact ih.edge hedge
  exact hagain.not_cycle hcycle

/-! ## Lengths -/

/-- All paths from a node have fewer edges than a number. -/
def Within (x : TraceContext) (n id : Nat) : Prop :=
  ∀ path, List.IsChain x.Edge (id :: path) → path.length < n

theorem within_succ_iff {n id : Nat} :
    x.Within (n + 1) id ↔ ∀ source, x.Edge id source → x.Within n source := by
  constructor
  · intro h source he path hpath
    have hlonger := h (source :: path) (List.isChain_cons_cons.mpr ⟨he, hpath⟩)
    simpa using hlonger
  · intro h path hpath
    cases path with
    | nil => exact Nat.succ_pos n
    | cons source rest =>
      obtain ⟨he, hrest⟩ := List.isChain_cons_cons.mp hpath
      exact Nat.succ_lt_succ (h source he rest hrest)

theorem unionOf_ok {walk : Nat → Walk (List String)} : (ids : List Nat) →
    (∀ id ∈ ids, ∀ memo, ∃ r, walk id memo = .ok r) → ∀ found memo,
      ∃ r, unionOf walk found ids memo = .ok r
  | [], _, found, memo => ⟨(found, memo), rfl⟩
  | id :: rest, h, found, memo => by
      obtain ⟨⟨more, memo₁⟩, h₁⟩ := h id List.mem_cons_self memo
      obtain ⟨r, hr⟩ := unionOf_ok rest (fun id' hid => h id' (List.mem_cons_of_mem _ hid))
        (union found more) memo₁
      exact ⟨r, bind_run_eq_ok.mpr ⟨more, memo₁, h₁, hr⟩⟩

/-- A walk with more levels left than any path has edges ends, whatever it remembers. -/
theorem lineage_of_lengths : (n : Nat) → {id : Nat} → x.Within n id → (memo : TraceMemo) →
    ∃ r, x.lineage n id memo = .ok r
  | 0, _, h, _ => absurd (h [] (.singleton _)) (Nat.lt_irrefl 0)
  | n + 1, id, h, memo => by
      rw [lineage_succ]
      cases memo.get? id with
      | some known => exact ⟨_, rfl⟩
      | none =>
        have hown : ∃ r, x.ownLineage (x.lineage n) id memo = .ok r := by
          unfold ownLineage
          cases ht : x.terminal? (x.node id) with
          | some column => exact ⟨_, rfl⟩
          | none =>
            refine unionOf_ok _ ?_ [] memo
            intro source hs memo
            exact lineage_of_lengths n (within_succ_iff.mp h source (edge_iff.mpr ⟨ht, hs⟩)) memo
        obtain ⟨⟨found, memo₁⟩, hr⟩ := hown
        exact ⟨(found, memo₁.insert id found), bind_run_eq_ok.mpr ⟨found, memo₁, hr, rfl⟩⟩

/-! ## Walks over the graphs of columns -/

/-- A walk over the graph of a column, with any common tables, aliases, default parts and limit:
paths from the root stay in the graph; if the walk ends, it has collected the columns at the ends of
these paths, in order and each once; if one of them runs into a cycle, the walk is too deep; and if
none of them has more edges than the limit, the walk ends. -/
theorem lineage_reaches {q : Query} {catalog : Catalog} {column : String} {depth : Nat} {g : Graph}
    (hg : q.lineageGraph catalog column depth = .ok g) {x : TraceContext}
    (hx : x.nodes = g.nodes) :
    (∀ id, Relation.ReflTransGen x.Edge g.root id → id < g.nodes.size) ∧
      (∀ found memo, x.lineage (x.limit + 1) g.root ∅ = .ok (found, memo) →
        Text.Ascending found ∧ ∀ s, s ∈ found ↔ x.Reaches g.root s) ∧
      (x.ReachesCycle g.root →
        x.lineage (x.limit + 1) g.root ∅ = .error (.depthExceeded x.limit)) ∧
      ((∀ path, List.IsChain x.Edge (g.root :: path) → path.length ≤ x.limit) →
        ∃ found memo, x.lineage (x.limit + 1) g.root ∅ = .ok (found, memo)) := by
  obtain ⟨hroot, hsources⟩ := Query.lineageGraph_closed hg
  refine ⟨?_, ?_, ?_, ?_⟩
  · intro id hpath
    induction hpath with
    | refl => exact hroot
    | tail _ hedge _ =>
      obtain ⟨n, hn, -, hs⟩ := hedge
      rw [hx] at hn
      exact hsources hn _ hs
  · intro found memo h
    obtain ⟨htraced, -⟩ := lineage_traced _ remembers_empty h
    exact ⟨htraced.ascending, fun s => (htraced.mem_iff s).trans emits_iff_reaches⟩
  · intro hcycle
    cases hr : x.lineage (x.limit + 1) g.root ∅ with
    | error e => rw [x.eq_of_lineage g.root hr]
    | ok r =>
      obtain ⟨htraced, -⟩ := lineage_traced _ remembers_empty hr
      exact absurd hcycle htraced.founded.not_reachesCycle
  · intro hshort
    have hwithin : x.Within (x.limit + 1) g.root := fun path hpath =>
      Nat.lt_succ_of_le (hshort path hpath)
    obtain ⟨⟨found, memo⟩, hr⟩ := lineage_of_lengths (x.limit + 1) hwithin ∅
    exact ⟨found, memo, hr⟩

/-- `WITH RECURSIVE r AS (SELECT t.a AS a FROM t UNION ALL SELECT r.a AS a FROM r) SELECT r.a AS a
FROM r` -/
def recursiveTable : Query :=
  { Query.plain
      [.mk ⟨⟨"r", none⟩, []⟩ none
        (.plain [] (.setOperation .union .all (.select (.plain [.plain "t" "a"] [.plain "t"]))
          (.select (.plain [.plain "r" "a"] [.plain "r"])))) none]
      (.select (.plain [.plain "r" "a"] [.plain "r"])) with isRecursive := true }

/-- The graph of its column, in which the common table is a source of itself. -/
def recursiveGraph : Graph where
  nodes := #[⟨"a", .projection "r.a AS a", [1]⟩, ⟨"a", .setOperation 0, [2, 4]⟩,
    ⟨"a", .projection "t.a AS a", [3]⟩, ⟨"t.a", .table ⟨none, none, "t"⟩, []⟩,
    ⟨"a", .projection "r.a AS a", [1]⟩]
  root := 0

/-- The graph of the first column of a query over two tables, which is a path. -/
def pathGraph : Graph where
  nodes := #[⟨"a", .projection "c.a AS a", [1]⟩, ⟨"a", .projection "t.a AS a", [2]⟩,
    ⟨"t.a", .table ⟨none, none, "t"⟩, []⟩]
  root := 0

/-- A recursive common table is too deep for every limit, also without other names and aliases. A
path of two edges is walked to its end within the limit 2. -/
theorem lineage_reaches_recursive :
    recursiveTable.lineageGraph ⟨∅⟩ "a" 9 = .ok recursiveGraph ∧
      (∀ limit, lineage ⟨recursiveGraph.nodes, ["r"], ∅, {}, limit⟩ (limit + 1) 0 ∅ =
        .error (.depthExceeded limit)) ∧
      AnalysisContext.twoTables.lineageGraph ⟨∅⟩ "a" 9 = .ok pathGraph ∧
      ∃ found memo, lineage ⟨pathGraph.nodes, ["c"], ∅, ⟨none, some "s"⟩, 2⟩ 3 0 ∅ =
        .ok (found, memo) ∧ "s.t.a" ∈ found := by
  have hrecursive : recursiveTable.lineageGraph ⟨∅⟩ "a" 9 = .ok recursiveGraph := by
    decide
  have hpath : AnalysisContext.twoTables.lineageGraph ⟨∅⟩ "a" 9 = .ok pathGraph := by
    decide
  refine ⟨hrecursive, ?_, hpath, ?_⟩
  · intro limit
    let x : TraceContext := ⟨recursiveGraph.nodes, ["r"], ∅, {}, limit⟩
    have hfirst : x.Edge 0 1 := edge_iff.mpr ⟨rfl, List.mem_singleton_self 1⟩
    have hdown : x.Edge 1 4 := edge_iff.mpr ⟨rfl, List.mem_of_getElem? (i := 1) rfl⟩
    have hup : x.Edge 4 1 := edge_iff.mpr ⟨rfl, List.mem_singleton_self 1⟩
    obtain ⟨-, -, hcycle, -⟩ := lineage_reaches hrecursive (x := x) rfl
    exact hcycle ⟨1, .single hfirst, .tail (.single hdown) hup⟩
  · let x : TraceContext := ⟨pathGraph.nodes, ["c"], ∅, ⟨none, some "s"⟩, 2⟩
    have hend : x.terminal? (x.node 2) = some "s.t.a" := by decide
    have hshort : x.Within 3 0 := by
      refine within_succ_iff.mpr fun source he => ?_
      obtain rfl : source = 1 := List.mem_singleton.mp (edge_iff.mp he).2
      refine within_succ_iff.mpr fun source he => ?_
      obtain rfl : source = 2 := List.mem_singleton.mp (edge_iff.mp he).2
      refine within_succ_iff.mpr fun source he => ?_
      cases hend.symm.trans (edge_iff.mp he).1
    obtain ⟨-, hcollects, -, hends⟩ := lineage_reaches hpath (x := x) rfl
    obtain ⟨found, memo, hwalk⟩ := hends fun path h => Nat.le_of_lt_succ (hshort path h)
    refine ⟨found, memo, hwalk, ((hcollects found memo hwalk).2 "s.t.a").mpr ?_⟩
    have hfirst : x.Edge 0 1 := edge_iff.mpr ⟨rfl, by decide⟩
    have hsecond : x.Edge 1 2 := edge_iff.mpr ⟨rfl, by decide⟩
    exact ⟨2, _, .tail (.single hfirst) hsecond, rfl, ends_iff.mpr hend⟩

end TraceContext

end ColumnLineage
