import ColumnLineage.Proofs.ReachableColumns

/-!
# Well-formed graphs

A builder makes nodes in one way only, and asks for those of the bodies that it visits. So nothing
in its graph is out of place.

* `Query.lineageGraph_wellFormed`: so the graph of a column has no loose ends, no node that cannot
  be reached and none that is left unfinished.
-/

namespace ColumnLineage

/-! ## Paths to nodes -/

/-- The second of two nodes is a source of the first. -/
def Leads (nodes : Array Node) (id source : Nat) : Prop :=
  ∃ node, nodes[id]? = some node ∧ source ∈ node.sources

theorem Extends.leads {d d' : Draft} (h : Extends d d') {id source : Nat}
    (hl : Leads d.nodes id source) : Leads d'.nodes id source := by
  obtain ⟨node, hn, hs⟩ := hl
  exact ⟨node, h.nodes hn, hs⟩

variable {name : String} {origin : Origin}

/-- Giving sources to a node without any takes none from the others. -/
theorem leads_finish {d : Draft} {id : Nat} (hn : d.nodes[id]? = some ⟨name, origin, []⟩)
    (ids : List Nat) {id' source : Nat} (hl : Leads d.nodes id' source) :
    Leads (d.finish id ids).nodes id' source := by
  obtain ⟨node, hn', hs⟩ := hl
  refine ⟨node, ?_, hs⟩
  have hne : id ≠ id' := by
    rintro rfl
    rw [hn, Option.some.injEq] at hn'
    subst hn'
    cases hs
  rw [Draft.nodes_finish, if_neg hne, hn']

/-- Every node that a step makes can be reached from one that it finds. -/
theorem Assembles.leads {Asks : Key → String → Origin → Build (List Nat) → Prop} {α : Type}
    {found : α → List Nat} {m : Build α} (h : Assembles Asks found m) :
    ∀ {d d' : Draft} {a : α} {id : Nat}, m d = .ok (a, d') → d.nodes.size ≤ id →
      id < d'.nodes.size → ∃ first ∈ found a, Relation.ReflTransGen (Leads d'.nodes) first id := by
  induction h with
  | pure found a =>
    intro d d' a' id h hle hlt
    obtain ⟨-, rfl⟩ := pure_run_eq_ok.mp h
    omega
  | throw found e =>
    intro d d' a' id h
    exact absurd h throw_run_ne_ok
  | bind hm hf hkept ihm ihf =>
    intro d d' b id h hle hlt
    obtain ⟨a, d₁, h₁, h₂⟩ := bind_run_eq_ok.mp h
    by_cases hmade : id < d₁.nodes.size
    · obtain ⟨first, hfirst, hpath⟩ := ihm h₁ hle hmade
      have hext := (hf a).steady.grows h₂
      exact ⟨first, hkept h₂ hfirst, .mono (fun _ _ hl => hext.leads hl) _ _ hpath⟩
    · exact ihf a h₂ (Nat.le_of_not_lt hmade) hlt
  | @node key name origin sources _ hs ih =>
    intro d d' new id h hle hlt
    rcases Draft.node_cases h with ⟨-, rfl⟩ | ⟨hk, rfl, ids, d₁, hrun, rfl⟩
    · omega
    · refine ⟨d.nodes.size, List.mem_singleton_self _, ?_⟩
      rw [Draft.size_finish] at hlt
      rcases Nat.eq_or_lt_of_le hle with rfl | hlater
      · exact .refl
      · -- The node was made while the sources of the new one were looked for.
        have hnew := nodes_of_start (hs.steady.grows hrun)
        obtain ⟨first, hfirst, hpath⟩ := ih hrun
          (by rw [Draft.nodes_start, Array.size_push]; omega) hlt
        have hedge : Leads (d₁.finish d.nodes.size ids).nodes d.nodes.size first := by
          refine ⟨⟨name, origin, ids⟩, ?_, hfirst⟩
          rw [Draft.nodes_finish, if_pos rfl, hnew]
          rfl
        exact .head hedge (.mono (fun _ _ hl => leads_finish hnew ids hl) _ _ hpath)

/-! ## What the builder asks for -/

/-- What a builder that visits the bodies of a query asks for: with some levels left, the node of a
key that belongs to one of them. -/
inductive Asked (q : Query) (catalog : Catalog) (limit : Nat) :
    Key → String → Origin → Build (List Nat) → Prop
  /-- An item of a select, by its position; it is computed from what its references lead to. -/
  | item {b : PlacedBody} {s : Select} {i : Nat} {item : SelectItem} (n : Nat) (hv : q.Visits b)
    (hb : b.opened.body = .select s) (hi : s.items[i]? = some item) :
    Asked q catalog limit (.column b.opened.place (some i))
      ((item.outputName? i).getD (positionName i)) (.projection item.text)
      (referenceSources catalog (columnWithin catalog limit n) (b.view s) i 0 [] item.references)
  /-- A column that the first star of a select gives, by its name. -/
  | star {b : PlacedBody} {s : Select} {qualifier : Option String} {column : String} (n : Nat)
    (hv : q.Visits b) (hb : b.opened.body = .select s)
    (hstar : firstStar? s.items = some qualifier) :
    Asked q catalog limit (.leaf b.opened.place ("*" ++ Text.toLower column)) column
      (.projection "*")
      (return [← columnSource catalog (columnWithin catalog limit n) (b.view s) qualifier column])
  /-- A column that a select reads from a table or from nothing that is known, by its name. -/
  | leaf {b : PlacedBody} {s : Select} {name : String} {origin : Origin} (hv : q.Visits b)
    (hb : b.opened.body = .select s) (ho : origin.isComputed = false) :
    Asked q catalog limit (.leaf b.opened.place name) name origin (return [])
  /-- A column of a set operation, by its position; it is computed from both sides. -/
  | setOperation {b : PlacedBody} {op : SetOperator} {quantifier : SetQuantifier}
    {left right : Body} {i : Nat} (n : Nat) (hv : q.Visits b)
    (hb : b.opened.body = .setOperation op quantifier left right) :
    Asked q catalog limit (.column b.opened.place (some i))
      ((b.opened.body.positionalNames[i]?.join).getD (positionName i)) (.setOperation i) do
        let l ← columnWithin catalog limit n ⟨left, .left :: b.opened.place, b.opened.ctes⟩
          (.index i)
        return [l, ← columnWithin catalog limit n
          ⟨right, .right :: b.opened.place, b.opened.ctes⟩ (.index i)]
  /-- A column of a body that reads no columns, by its position or under any name. -/
  | plain {b : PlacedBody} {index : Option Nat} {name : String} (hv : q.Visits b)
    (hs : ∀ s, b.opened.body ≠ .select s)
    (ho : ∀ op quantifier left right, b.opened.body ≠ .setOperation op quantifier left right) :
    Asked q catalog limit (.column b.opened.place index) name (.projection b.opened.body.text)
      (return [])

variable {sources : Build (List Nat)}

section builder

variable {q : Query} {catalog : Catalog} {limit : Nat}

theorem Asked.steady {key : Key} (h : Asked q catalog limit key name origin sources) :
    Steady sources := by
  have hdeeper : ∀ n b t, Steady (columnWithin catalog limit n b t) :=
    steady_columnWithin catalog limit
  cases h with
  | item n hv hb hi =>
    rw [referenceSources_eq]
    exact Wanted.steady_runAll (hdeeper n) _ _
  | star n hv hb hstar =>
    rw [columnSource_eq]
    exact (Wanted.steady_run (hdeeper n) _).bind fun id => steady_pure [id]
  | leaf hv hb ho => exact steady_pure []
  | setOperation n hv hb =>
    exact (hdeeper n _ _).bind fun l => (hdeeper n _ _).bind fun r => steady_pure [l, r]
  | plain hv hs ho => exact steady_pure []

theorem SelectView.not_isComputed_of_wanted {v : SelectView} {qualifier : Option String}
    {column : String} (h : v.wanted catalog qualifier column = .leaf name origin) :
    origin.isComputed = false := by
  unfold SelectView.wanted at h
  split at h <;> cases h <;> rfl

theorem asked_of_planned {key : Key}
    (h : Planned catalog limit (fun b _ => q.Visits b) key name origin sources) :
    Asked q catalog limit key name origin sources := by
  cases h with
  | own n hv hp =>
    cases hp with
    | item hb hp hi =>
      have hasked : Asked q catalog limit _ _ _ _ := .item n hv hb hi
      rwa [referenceSources_eq] at hasked
    | @star s qualifier column hb hp ht hs =>
      have hasked : Asked q catalog limit (.leaf _ ("*" ++ Text.toLower column)) _ _ _ :=
        .star n hv hb hs
      rwa [columnSource_eq] at hasked
    | sides hb hi => exact .setOperation n hv hb
    | plain hs ho => exact .plain hv hs ho
  | leaf hv hp hw =>
    rw [hp.place_eq]
    cases hp.seeks hw with
    | read hb hr hw => exact .leaf hv hb (SelectView.not_isComputed_of_wanted hw)

/-- A builder asks for nodes of the bodies that it visits, and for nothing else. -/
theorem assembles_columnWithin (n : Nat) {b : PlacedBody} (hv : q.Visits b) (target : Target) :
    Assembles (Asked q catalog limit) (fun id => [id]) (columnWithin catalog limit n b target) :=
  (assembles_planned (hereditary_visits q) n hv).imp asked_of_planned

/-! ## The shape of nodes -/

/-- The body inside all parentheses is deeper by their number. -/
theorem Body.opened_place : (b : Body) → (place : Place) → (ctes : List PlacedCte) →
    ∃ k, (b.opened place ctes).place = List.replicate k .inner ++ place
  | .parens { ctes := own, body, .. }, place, ctes => by
      obtain ⟨k, hk⟩ := Body.opened_place body (.inner :: place)
        (placedCtes (.inner :: place) own ++ ctes)
      refine ⟨k + 1, ?_⟩
      rw [List.replicate_succ', List.append_assoc]
      exact hk
  | .select _, _, _ => ⟨0, rfl⟩
  | .setOperation _ _ _ _, _, _ => ⟨0, rfl⟩
  | .values _ _, _, _ => ⟨0, rfl⟩
  | .defaultValues, _, _ => ⟨0, rfl⟩
  | .table _, _, _ => ⟨0, rfl⟩
  | .insert _, _, _ => ⟨0, rfl⟩
  | .update _, _, _ => ⟨0, rfl⟩

theorem opened_place_ne (left right : Body) (place : Place) (ctes : List PlacedCte) :
    (PlacedBody.mk left (.left :: place) ctes).opened.place ≠
      (PlacedBody.mk right (.right :: place) ctes).opened.place := by
  intro he
  obtain ⟨k, hk⟩ := left.opened_place (.left :: place) ctes
  obtain ⟨k', hk'⟩ := right.opened_place (.right :: place) ctes
  have hsame : List.replicate k Step.inner ++ .left :: place =
      List.replicate k' Step.inner ++ .right :: place := hk.symm.trans (he.trans hk')
  have hlength : k = k' := by
    have := congrArg List.length hsame
    simpa using this
  subst hlength
  simp at hsame

/-- A node has as many sources as its origin says, and none of them twice. -/
structure Node.WellShaped (n : Node) : Prop where
  distinct : n.sources.Nodup
  /-- Columns of tables and placeholders have no sources. -/
  leaf : n.origin.isComputed = false → n.sources = []
  sides : ∀ index, n.origin = .setOperation index → n.sources.length = 2

theorem Node.wellShaped_projection {sql : String} {ids : List Nat} (h : ids.Nodup) :
    (Node.mk name (.projection sql) ids).WellShaped where
  distinct := h
  leaf ho := by cases ho
  sides _ ho := by cases ho

theorem Asked.wellShaped {key : Key} (h : Asked q catalog limit key name origin sources) {d : Draft}
    (hd : d.Keyed) {ids : List Nat} (hrun : sources d = .ok (ids, d)) :
    (Node.mk name origin ids).WellShaped := by
  cases h with
  | item n hv hb hi =>
    rw [referenceSources_eq] at hrun
    exact Node.wellShaped_projection ((Wanted.subset_runAll _ hrun).2 rfl List.nodup_nil)
  | star n hv hb hstar =>
    obtain ⟨id, d₁, -, hpure⟩ := bind_run_eq_ok.mp hrun
    obtain ⟨rfl, -⟩ := pure_run_eq_ok.mp hpure
    exact Node.wellShaped_projection (List.nodup_singleton id)
  | leaf hv hb ho =>
    obtain ⟨rfl, -⟩ := pure_run_eq_ok.mp hrun
    refine ⟨List.nodup_nil, fun _ => rfl, fun index hindex => ?_⟩
    rw [show origin = .setOperation index from hindex] at ho
    cases ho
  | @setOperation b op quantifier left right i n hv hb =>
    obtain ⟨l, d₁, hl, hrest⟩ := bind_run_eq_ok.mp hrun
    obtain ⟨r, d₂, hr, hpure⟩ := bind_run_eq_ok.mp hrest
    obtain ⟨rfl, rfl⟩ := pure_run_eq_ok.mp hpure
    obtain ⟨p₁, hp₁, hk₁⟩ := find?_of_columnWithin hl
    obtain ⟨p₂, hp₂, hk₂⟩ := find?_of_columnWithin hr
    have hne : l ≠ r := by
      rintro rfl
      have hlater := ((steady_columnWithin catalog limit n _ _).grows hr).keys hk₁
      have hplace := (PlacedBody.plans_of_plan hp₁).place_eq
      rw [hd.injective hlater hk₂, (PlacedBody.plans_of_plan hp₂).place_eq] at hplace
      exact opened_place_ne left right b.opened.place b.opened.ctes hplace.symm
    refine ⟨by simpa using hne, fun ho => ?_, fun _ _ => rfl⟩
    cases ho
  | plain hv hs ho =>
    obtain ⟨rfl, -⟩ := pure_run_eq_ok.mp hrun
    exact Node.wellShaped_projection List.nodup_nil

end builder

/-! ## Graphs -/

/-- A graph in which all numbers are numbers of nodes, all nodes can be reached from the root, and
all nodes have the sources that belong to their origins. -/
structure Graph.WellFormed (g : Graph) : Prop where
  root : g.root < g.nodes.size
  sources : ∀ {id : Nat} {node : Node}, g.nodes[id]? = some node →
    ∀ source ∈ node.sources, source < g.nodes.size
  /-- Every node can be reached from the root. -/
  reachable : ∀ {id : Nat}, id < g.nodes.size →
    Relation.ReflTransGen (Leads g.nodes) g.root id
  shapes : ∀ {id : Nat} {node : Node}, g.nodes[id]? = some node → node.WellShaped

/-- The graph of a column is well formed. It is what is left of a draft in which every node has
exactly one key, every key belongs to a body that was visited, and every node has the name, the
origin and the sources that its key asks for. -/
theorem Query.lineageGraph_wellFormed {q : Query} {catalog : Catalog} {column : String}
    {limit : Nat} {g : Graph} (h : q.lineageGraph catalog column limit = .ok g) :
    g.WellFormed ∧ ∃ d : Draft,
      columnWithin catalog limit (limit + 1) (q.placed [] []) (.name column) {} = .ok (g.root, d) ∧
      d.nodes = g.nodes ∧
      (∀ id, id < g.nodes.size → ∃! key, d.find? key = some id) ∧
      ∀ key id, d.find? key = some id →
        id < g.nodes.size ∧ d.Finished (Asked q catalog limit) key id := by
  obtain ⟨hroot, hsources⟩ := Query.lineageGraph_closed h
  obtain ⟨⟨root, d⟩, hrun, hg⟩ := bind_eq_ok.mp h
  obtain rfl := pure_eq_ok.mp hg
  have hbuild : Assembles (Asked q catalog limit) (fun id => [id])
      (columnWithin catalog limit (limit + 1) (q.placed [] []) (.name column)) :=
    assembles_columnWithin (limit + 1) .refl (.name column)
  have hkeyed : d.Keyed := hbuild.keyed Draft.keyed_empty hrun
  have hfinished : ∀ {key : Key} {id : Nat}, d.find? key = some id →
      d.Finished (Asked q catalog limit) key id := by
    intro key id hk
    have hempty : Draft.find? {} key = none := by cases key <;> rfl
    exact hbuild.finished Asked.steady Draft.keyed_empty hrun hempty hk
  refine ⟨⟨hroot, hsources, fun {id} hid => ?_, fun {id node} hn => ?_⟩, d, hrun, rfl,
    fun id hid => ?_, fun key id hk => ⟨hkeyed.bounded hk, hfinished hk⟩⟩
  · obtain ⟨first, hfirst, hpath⟩ := hbuild.leads hrun (Nat.zero_le id) hid
    rwa [List.mem_singleton.mp hfirst] at hpath
  · obtain ⟨key, hk⟩ := hkeyed.surjective (Array.getElem?_eq_some_iff.mp hn).1
    obtain ⟨name, origin, sources, ids, hasked, hnode, hrun'⟩ := hfinished hk
    have he := hn.symm.trans hnode
    rw [Option.some.injEq] at he
    rw [he]
    exact hasked.wellShaped hkeyed hrun'
  · obtain ⟨key, hk⟩ := hkeyed.surjective hid
    exact ⟨key, hk, fun key' hk' => hkeyed.injective hk' hk⟩

/-- A recursive common table is found again while its node has no sources yet. -/
theorem Query.lineageGraph_wellFormed_recursive :
    TraceContext.recursiveTable.lineageGraph ⟨∅⟩ "a" 9 = .ok TraceContext.recursiveGraph ∧
      TraceContext.recursiveGraph.WellFormed := by
  have hgraph : TraceContext.recursiveTable.lineageGraph ⟨∅⟩ "a" 9 =
      .ok TraceContext.recursiveGraph := by decide
  exact ⟨hgraph, (Query.lineageGraph_wellFormed hgraph).1⟩

end ColumnLineage
