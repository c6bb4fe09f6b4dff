import ColumnLineage.Proofs.GraphBuild
import ColumnLineage.Proofs.GraphFold

/-!
# Sharing is invisible

A trace builds a graph in which each column of each place is one node, and walks it with a memory.
Where it ends, it gives what plain recursion over the query gives.

* `Query.trace_eq_directLineage`: traces and plain recursion agree.
-/

namespace ColumnLineage

theorem Converges.unique {value? : Nat → Option (List String)} {P Q : String → Prop}
    (hP : Converges value? P) (hQ : Converges value? Q) (s : String) : P s ↔ Q s := by
  obtain ⟨n₁, h₁⟩ := hP
  obtain ⟨n₂, h₂⟩ := hQ
  obtain ⟨found, hf, hmem⟩ := h₁ (max n₁ n₂) (by omega)
  obtain ⟨found', hf', hmem'⟩ := h₂ (max n₁ n₂) (by omega)
  rw [hf, Option.some.injEq] at hf'
  rw [← hmem, hf', hmem']

theorem Converges.congr {value? : Nat → Option (List String)} {P Q : String → Prop}
    (h : Converges value? P) (hPQ : ∀ s, P s ↔ Q s) : Converges value? Q := by
  obtain ⟨n, hn⟩ := h
  refine ⟨n, fun m hm => ?_⟩
  obtain ⟨found, hf, hmem⟩ := hn m hm
  exact ⟨found, hf, fun s => (hmem s).trans (hPQ s)⟩

variable {x : TraceContext} {label c : String}

section walks

variable {q : Query} {catalog : Catalog} {defaults : Defaults} {limit root : Nat} {d : Draft}

theorem node_traceContext {id : Nat} {node : Node} (h : d.nodes[id]? = some node) :
    (q.traceContext defaults limit ⟨d.nodes, root⟩).node id = node := by
  simp [TraceContext.node, Query.traceContext, h]

/-- A column of a table stands for itself, unless the table has the name of a common table. -/
theorem terminal?_origin_table {r : TableReference} (hc : '.' ∉ c.toList) :
    x.terminal? ⟨dotted label c, .table r, []⟩ =
      if r.isCteIn x.cteNames then none else some ((FullName.resolve r x.defaults).column c) := by
  by_cases hr : r.isCteIn x.cteNames
  · simp only [TraceContext.terminal?, Node.kind, hr, if_true]
  · simp only [TraceContext.terminal?, Node.kind, hr, Bool.false_eq_true, if_false,
      behindLastDot_dotted label hc]

/-- A column of which only the name is known stands for that of the table with its alias. -/
theorem terminal?_origin_placeholder (hc : '.' ∉ c.toList) :
    x.terminal? ⟨dotted label c, .placeholder, []⟩ =
      (x.aliases.get? (Text.toLower label)).map (·.column c) := by
  simp only [TraceContext.terminal?, Node.kind, splitLastDot?_dotted label hc, Option.bind_some]

theorem terminal?_table {r : TableReference} (hr : r.isBare = false) (hc : PlainWord c) :
    (q.traceContext defaults limit ⟨d.nodes, root⟩).terminal? ⟨dotted label c, .table r, []⟩ =
      some ((FullName.resolve r defaults).column c) := by
  rw [terminal?_origin_table hc.dotless, if_neg (by simp [TableReference.isCteIn, hr])]
  rfl

theorem terminal?_label (hc : PlainWord c) :
    (q.traceContext defaults limit ⟨d.nodes, root⟩).terminal? ⟨dotted label c, .placeholder, []⟩ =
      ((q.aliases defaults).get? (Text.toLower label)).map (·.column c) :=
  terminal?_origin_placeholder hc.dotless

theorem terminal?_word (hc : PlainWord c) :
    (q.traceContext defaults limit ⟨d.nodes, root⟩).terminal? ⟨c, .placeholder, []⟩ = none := by
  simp [TraceContext.terminal?, Node.kind, splitLastDot?_eq_none hc.dotless]

theorem terminal?_computed {node : Node} (h : node.origin.isComputed) :
    x.terminal? node = none := by
  unfold TraceContext.terminal? Node.kind
  cases ho : node.origin with
  | table r =>
    rw [ho] at h
    cases h
  | placeholder =>
    rw [ho] at h
    cases h
  | projection sql => rfl
  | setOperation index => rfl

theorem emits_iff_of_leaf {id : Nat} (h : (x.node id).sources = []) (s : String) :
    s ∈ (x.terminal? (x.node id)).toList ↔ x.Emits id s := by
  cases ht : x.terminal? (x.node id) with
  | none =>
    rw [TraceContext.emits_iff ht, h]
    simp
  | some t => exact (TraceContext.traced_terminal ht).mem_iff s

/-- The recursion ends at once at a table, an alias or nothing. -/
theorem converges_of_leaf {id : Nat} {r : Reading} (hr : Stands q d id r)
    (hleaf : ∀ s target, r ≠ .column s target) :
    Converges (fun n => r.value? defaults (q.aliases defaults)
        (Spot.lineage catalog defaults (q.aliases defaults) n))
      ((q.traceContext defaults limit ⟨d.nodes, root⟩).Emits id) := by
  have hemits : ∀ {node : Node}, d.nodes[id]? = some node → node.sources = [] → ∀ s,
      s ∈ ((q.traceContext defaults limit ⟨d.nodes, root⟩).terminal? node).toList ↔
        (q.traceContext defaults limit ⟨d.nodes, root⟩).Emits id s := by
    intro node hn hs s
    rw [← node_traceContext hn]
    refine emits_iff_of_leaf ?_ s
    rwa [node_traceContext hn]
  match r, hr with
  | .base r c, ⟨hb, hc, label, hn⟩ =>
    refine converges_const fun s => ?_
    rw [← hemits hn rfl, terminal?_table hb hc]
    rfl
  | .label label c, ⟨hc, hn⟩ =>
    refine converges_const fun s => ?_
    rw [← hemits hn rfl, terminal?_label hc]
  | .nothing, ⟨c, hc, hn⟩ =>
    refine converges_const fun s => ?_
    rw [← hemits hn rfl, terminal?_word hc]
    rfl
  | .column s target, _ => exact absurd rfl (hleaf s target)

/-- A column gives what the sources of its node give, if these are finished. -/
theorem converges_of_done {id : Nat} {s : Spot} {target : Target}
    (hdone : Done q catalog d id s.opened target)
    (ih : ∀ id' ∈ ((q.traceContext defaults limit ⟨d.nodes, root⟩).node id).sources,
      ∀ {r : Reading}, Stands q d id' r →
        Converges (fun n => r.value? defaults (q.aliases defaults)
            (Spot.lineage catalog defaults (q.aliases defaults) n))
          ((q.traceContext defaults limit ⟨d.nodes, root⟩).Emits id')) :
    Converges (fun n => Spot.lineage catalog defaults (q.aliases defaults) n s target)
      ((q.traceContext defaults limit ⟨d.nodes, root⟩).Emits id) := by
  obtain ⟨node, readings, hn, ho, hreadings, hlinked⟩ := hdone
  rw [node_traceContext hn] at ih
  have hnone : (q.traceContext defaults limit ⟨d.nodes, root⟩).terminal?
      ((q.traceContext defaults limit ⟨d.nodes, root⟩).node id) = none := by
    rw [node_traceContext hn]
    exact terminal?_computed ho
  -- A reading gives what any source that stands for it emits; they all emit the same.
  let gives : Reading → String → Prop := fun r t => ∃ id' ∈ node.sources, Stands q d id' r ∧
    (q.traceContext defaults limit ⟨d.nodes, root⟩).Emits id' t
  refine (Spot.converges_lineage (P := gives) hreadings fun r hr => ?_).congr fun t => ?_
  · obtain ⟨id', hid, hstands⟩ := hlinked.right r hr
    refine (ih id' hid hstands).congr fun t => ⟨fun he => ⟨id', hid, hstands, he⟩, ?_⟩
    rintro ⟨id'', hid', hstands', he⟩
    exact ((ih id' hid hstands).unique (ih id'' hid' hstands') t).mpr he
  · rw [TraceContext.emits_iff hnone, node_traceContext hn]
    constructor
    · rintro ⟨r, -, id', hid, -, he⟩
      exact ⟨id', hid, he⟩
    · rintro ⟨id', hid, he⟩
      obtain ⟨r, hr, hstands⟩ := hlinked.left id' hid
      exact ⟨r, hr, id', hid, hstands, he⟩

/-- Plain recursion gives for a reading what a node that stands for it emits. -/
theorem converges_of_stands (hsound : Sound q catalog d) {id : Nat}
    (hf : (q.traceContext defaults limit ⟨d.nodes, root⟩).Founded id) {r : Reading}
    (hr : Stands q d id r) :
    Converges (fun n => r.value? defaults (q.aliases defaults)
        (Spot.lineage catalog defaults (q.aliases defaults) n))
      ((q.traceContext defaults limit ⟨d.nodes, root⟩).Emits id) := by
  induction hf generalizing r with
  | @terminal id t h =>
    refine converges_of_leaf hr ?_
    rintro s target rfl
    obtain ⟨hat, hw, key, hkey, hfound⟩ := hr
    obtain ⟨node, readings, hn, ho, -, -⟩ :=
      hsound.done hfound (Query.at?_opened hat) hw hkey
    rw [node_traceContext hn, terminal?_computed ho] at h
    cases h
  | @sources id h hs ih =>
    match r, hr with
    | .column s target, ⟨hat, hw, key, hkey, hfound⟩ =>
      exact converges_of_done (hsound.done hfound (Query.at?_opened hat) hw hkey)
        fun id' hid _ => ih id' hid
    | .base r c, hr => exact converges_of_leaf hr (by simp)
    | .label l c, hr => exact converges_of_leaf hr (by simp)
    | .nothing, hr => exact converges_of_leaf hr (by simp)

end walks

/-- A trace of a settled query gives what plain recursion gives. -/
theorem Query.Unambiguous.directLineage_of_trace {q : Query} (hq : q.Unambiguous) {catalog : Catalog}
    {d : Defaults} {limit : Nat} {column : String} (hc : PlainWord column) {found : List String}
    (h : q.trace catalog d limit column = .ok found) :
    ∃ n, ∀ m, n ≤ m → q.directLineage catalog d m column = some found := by
  obtain ⟨g, hg, htraced⟩ := Query.traced_of_trace h
  obtain ⟨⟨root, draft⟩, hrun, hpure⟩ := bind_eq_ok.mp hg
  obtain rfl := pure_eq_ok.mp hpure
  obtain ⟨hsound, hstands⟩ := sound_of_run hq (Follows.root q)
    (show (Target.name column).IsWord from hc) hrun
  obtain ⟨n, hn⟩ := converges_of_stands hsound htraced.founded hstands
  refine ⟨n, fun m hm => ?_⟩
  obtain ⟨direct, hdirect, hmem⟩ := hn m hm
  change (q.spot [] []).lineage catalog d (q.aliases d) m (.name column) = some direct at hdirect
  rw [Query.directLineage, hdirect, Option.map_some, Option.some.injEq]
  refine (Text.ascending_sorted direct).eq htraced.ascending fun s => ?_
  rw [Text.sorted, Text.mem_sortDistinct, hmem, htraced.mem_iff]

/-- Traces and plain recursion agree: in a query that was qualified with a default schema, whose
names are words and whose common tables have distinct names, a trace that ends gives what following
every reference by itself gives. -/
theorem Query.trace_eq_directLineage {x : Qualifier} {root q : Query} (h : x.qualify root = .ok q)
    (hschema : x.defaults.schema.isSome) (hnamed : ∀ t ∈ root.allTables, t.1.parts ≠ [])
    (hfolded : q.Folded) (hdistinct : q.cteNames.Nodup) {catalog : Catalog} {d : Defaults}
    {limit : Nat} {column : String} (hcolumn : PlainWord column) {found : List String}
    (htrace : q.trace catalog d limit column = .ok found) :
    ∃ n, ∀ m, n ≤ m → q.directLineage catalog d m column = some found :=
  (Query.settled_of_qualify h hschema hnamed hfolded hdistinct).directLineage_of_trace hcolumn htrace

/-- `WITH x AS (SELECT a FROM t), y AS (SELECT a FROM x UNION SELECT a FROM u)
SELECT x.a + y.a + (SELECT a FROM x) AS n FROM x, y` -/
def diamond : Query :=
  let read (table : String) : Select :=
    .plain [.expr (.column ⟨"a", none⟩) none] [.plain table]
  .plain
    [.mk ⟨⟨"x", none⟩, []⟩ none (.plain [] (.select (read "t"))) none,
      .mk ⟨⟨"y", none⟩, []⟩ none
        (.plain [] (.setOperation .union .unsaid (.select (read "x")) (.select (read "u")))) none]
    (.select (.plain
      [.expr (.binary (.operator "+")
          (.binary (.operator "+") (.path [⟨"x", none⟩, ⟨"a", none⟩]) (.path [⟨"y", none⟩, ⟨"a", none⟩]))
          (.scalar (.plain [] (.select (read "x")))))
        (some ⟨"n", none⟩)]
      [.plain "x", .plain "y"]))

/-- The query with its tables and columns qualified. -/
def diamondQualified : Query :=
  ((Qualifier.qualify ⟨⟨∅⟩, ⟨none, some "s"⟩⟩ diamond).toOption).getD diamond

/-- The column `n` reads the common table `x` on three ways. -/
theorem Query.trace_eq_directLineage_diamond :
    Qualifier.qualify ⟨⟨∅⟩, ⟨none, some "s"⟩⟩ diamond = .ok diamondQualified ∧
      (∀ t ∈ diamond.allTables, t.1.parts ≠ []) ∧ diamondQualified.Folded ∧
      diamondQualified.cteNames.Nodup ∧ PlainWord "n" ∧
      diamondQualified.trace ⟨∅⟩ ⟨none, some "s"⟩ 9 "n" = .ok ["s.t.a", "s.u.a"] ∧
      ∃ n, ∀ m, n ≤ m →
        diamondQualified.directLineage ⟨∅⟩ ⟨none, some "s"⟩ m "n" = some ["s.t.a", "s.u.a"] := by
  have h : Qualifier.qualify ⟨⟨∅⟩, ⟨none, some "s"⟩⟩ diamond = .ok diamondQualified :=
    eq_ok_getD (by decide +kernel)
  have hnamed : ∀ t ∈ diamond.allTables, t.1.parts ≠ [] := by decide +kernel
  have hfolded : diamondQualified.Folded := by decide +kernel
  have hdistinct : diamondQualified.cteNames.Nodup := by decide +kernel
  have hcolumn : PlainWord "n" := by decide +kernel
  have htrace : diamondQualified.trace ⟨∅⟩ ⟨none, some "s"⟩ 9 "n" = .ok ["s.t.a", "s.u.a"] := by
    decide +kernel
  exact ⟨h, hnamed, hfolded, hdistinct, hcolumn, htrace,
    Query.trace_eq_directLineage h rfl hnamed hfolded hdistinct hcolumn htrace⟩

end ColumnLineage
