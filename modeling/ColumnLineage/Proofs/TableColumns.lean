import ColumnLineage.Proofs.Correlation
import ColumnLineage.Proofs.ReachableColumns

/-!
# Columns of base tables

An item of a select may read nothing but columns of base tables, each behind the alias of its table.
A builder knows the node of such a column by the alias and the column with a dot between them, and a
walk takes what stands behind the last dot of that name for the column. A column whose own name has
dots is cut short, and columns of two tables may share a node, which is that of the first one.

* `Query.traceOf_tableColumns`: what a column of a select over tables with distinct aliases is traced
  to.
-/

namespace ColumnLineage

/-! ## Tables -/

/-- A table in a `FROM` clause. -/
structure FromTable where
  name : ObjectName
  numbered : Bool := false
  label : Option TableAlias := none
  hints : List Expr := []

namespace FromTable

def factor (t : FromTable) : TableFactor :=
  .table t.name t.numbered t.label t.hints

def reference (t : FromTable) : TableReference :=
  .ofObjectName t.name

/-- The name by which its columns are qualified. -/
def knownAs (t : FromTable) : String :=
  (t.label.map fun a => a.name.value).getD t.reference.name

def key (t : FromTable) : String :=
  Text.toLower t.knownAs

/-- Sources have the table under its key. -/
def BoundIn (t : FromTable) (sources : SourceMap) : Prop :=
  sources.get? t.key = some (t.knownAs, .table t.reference)

variable {place : Place} {ctes : List PlacedCte} {s : Select} {tables : List FromTable}

/-- What it puts into the sources of a select. -/
def entry (t : FromTable) : String × String × SelectSource :=
  (t.key, t.knownAs, .table t.reference)

theorem sourceMap_eq (h : s.factors = tables.map factor)
    (hbase : ∀ t ∈ tables, visibleCte? ctes t.reference = none) :
    sourceMap place ctes s = .ofList (tables.map entry) := by
  have hsource : ∀ p ∈ tables.zipIdx,
      (sourceOf? place ctes p.2 p.1.factor).map (fun e => (Text.toLower e.1, e.1, e.2)) =
        some p.1.entry := by
    intro p hp
    have hnone := hbase p.1 (List.fst_mem_of_mem_zipIdx hp)
    unfold reference at hnone
    simp only [factor, sourceOf?, hnone]
    rfl
  change OrderedMap.ofList (s.factors.zipIdx.filterMap fun p =>
    (sourceOf? place ctes p.2 p.1).map fun e => (Text.toLower e.1, e.1, e.2)) = _
  rw [h, List.zipIdx_map, List.filterMap_map]
  refine congrArg OrderedMap.ofList ?_
  calc _ = tables.zipIdx.filterMap (fun p => some p.1.entry) := List.filterMap_congr hsource
    _ = (tables.zipIdx.map Prod.fst).map entry := by
        rw [List.filterMap_eq_map', List.map_map]
        rfl
    _ = _ := by rw [List.zipIdx_map_fst]

theorem boundIn_of_last (h : s.factors = tables.map factor)
    (hbase : ∀ t ∈ tables, visibleCte? ctes t.reference = none) {t : FromTable}
    (hlast : tables.reverse.find? (fun u => u.key = t.key) = some t) :
    t.BoundIn (sourceMap place ctes s) := by
  have hentry : (tables.map entry).reverse.find? (fun e => e.1 = t.key) = some t.entry := by
    rw [← List.map_reverse, List.find?_map, Function.comp_def]
    exact congrArg (Option.map entry) hlast
  rw [BoundIn, sourceMap_eq h hbase, OrderedMap.ofList, OrderedMap.get?_insertAll, hentry]
  rfl

theorem boundIn_of_nodup (h : s.factors = tables.map factor)
    (hbase : ∀ t ∈ tables, visibleCte? ctes t.reference = none) (hdistinct : (tables.map key).Nodup)
    {t : FromTable} (ht : t ∈ tables) : t.BoundIn (sourceMap place ctes s) := by
  rw [BoundIn, sourceMap_eq h hbase]
  refine OrderedMap.get?_ofList_of_forall (List.mem_map_of_mem ht) ?_
  intro e he hkey
  obtain ⟨u, hu, rfl⟩ := List.mem_map.mp he
  rw [List.inj_on_of_nodup_map hdistinct hu ht hkey]
  rfl

/-- What is no common table of a query is none of those that are visible in its body. -/
theorem visibleCte?_of_base {q : Query} {r : TableReference} (h : r.isCteIn q.cteNames = false) :
    visibleCte? (placedCtes [] q.ctes ++ []) r = none := by
  unfold visibleCte?
  split
  · rename_i hbare
    rw [List.append_nil, List.find?_eq_none]
    intro c hc hname
    have hmem : Text.toLower r.name ∈ q.cteNames := by
      rw [← Text.toLower_eq_of_equalIgnoringCase hname, q.cteNames_eq, q.parts_eq_cons]
      exact List.mem_append_left _ (List.mem_map.mpr ⟨c.cte, cte_mem_of_placedCtes hc, rfl⟩)
    rw [TableReference.isCteIn, hbare, List.contains_iff_mem.mpr hmem] at h
    cases h
  · rfl

end FromTable

/-! ## Nodes -/

/-- A column of a table that an item of a select reads. -/
structure TableColumn where
  table : FromTable
  column : String

namespace TableColumn

/-- The name that its node is known by. -/
def name (c : TableColumn) : String :=
  dotted c.table.knownAs c.column

def node (c : TableColumn) : Node :=
  ⟨c.name, .table c.table.reference, []⟩

/-- Of columns that are read, the first one that a column shares its node with. -/
def firstIn (cs : List TableColumn) (c : TableColumn) : TableColumn :=
  (cs.find? fun b => b.name = c.name).getD c

/-- The column of the full name that a walk finds for its node. -/
def source (d : Defaults) (c : TableColumn) : String :=
  (FullName.resolve c.table.reference d).column (behindLastDot c.column)

/-- A reference to the column behind the alias of its table. -/
def WrittenAs (c : TableColumn) (r : Reference) : Prop :=
  ∃ label, Text.toLower label = c.table.key ∧ r = .column (some label) c.column

/-- A draft has nodes for the columns that were read at a place: each name has the node of the first
one of the name. -/
def Held (d : Draft) (place : Place) (cs : List TableColumn) : Prop :=
  ∀ name, Option.Rel (fun id c => d.nodes[id]? = some c.node) (d.find? (.leaf place name))
    (cs.find? fun c => c.name = name)

variable {d d' : Draft} {place : Place} {cs : List TableColumn}

theorem rel_node_mono {found : Option Nat} {first : Option TableColumn}
    (h : Option.Rel (fun id c => d.nodes[id]? = some c.node) found first)
    (hn : ∀ {id : Nat} {c : TableColumn}, d.nodes[id]? = some c.node → d'.nodes[id]? = some c.node) :
    Option.Rel (fun id c => d'.nodes[id]? = some c.node) found first := by
  cases h with
  | none => exact .none
  | some h => exact .some (hn h)

theorem Held.add (h : Held d place cs) (c : TableColumn) :
    ∃ id d', Draft.leaf (place, c.name) c.name (.table c.table.reference) (return []) d =
        .ok (id, d') ∧
      Extends d d' ∧ d'.find? (.leaf place c.name) = some id ∧ Held d' place (cs ++ [c]) := by
  have hlater : ∀ name, name ≠ c.name → (cs ++ [c]).find? (fun b => b.name = name) =
      cs.find? fun b => b.name = name := by
    intro name hne
    rw [List.find?_append, List.find?_cons_of_neg (by simpa using hne.symm)]
    exact Option.or_none
  change ∃ id d', Draft.node (.leaf place c.name) c.name _ (return []) d = .ok (id, d') ∧ _
  rw [Draft.node_run]
  have hc := h c.name
  cases hk : d.find? (.leaf place c.name) with
  | some id =>
    refine ⟨id, d, rfl, .refl d, hk, fun name => ?_⟩
    by_cases hname : name = c.name
    · subst hname
      rw [hk] at hc ⊢
      rw [List.find?_append]
      cases hfirst : cs.find? fun b => b.name = c.name with
      | none => 
        rw [hfirst] at hc
        cases hc
      | some first => rwa [hfirst] at hc
    · rw [hlater name hname]
      exact h name
  | none =>
    have hnode : (d.start (.leaf place c.name) c.name (.table c.table.reference)).nodes[d.nodes.size]? =
        some c.node := by
      rw [Draft.nodes_start, Array.getElem?_push_size]
      rfl
    have hext := extends_start hk c.name (.table c.table.reference)
    refine ⟨d.nodes.size, d.start (.leaf place c.name) c.name (.table c.table.reference), ?_, hext, ?_, ?_⟩
    · change Except.ok (d.nodes.size, (d.start (.leaf place c.name) c.name _).finish d.nodes.size []) = _
      rw [Draft.finish_nil hnode]
    · rw [Draft.find?_start, if_pos rfl]
    · intro name
      by_cases hname : name = c.name
      · subst hname
        rw [hk] at hc
        rw [Draft.find?_start, if_pos rfl, List.find?_append]
        cases hfirst : cs.find? fun b => b.name = c.name with
        | some first =>
          rw [hfirst] at hc
          cases hc
        | none =>
          rw [List.find?_cons_of_pos (by simp)]
          exact .some hnode
      · rw [Draft.find?_start, if_neg (by simpa using Ne.symm hname), hlater name hname]
        exact rel_node_mono (h name) hext.nodes

/-- A column that was read has the node of the first one of its name. -/
theorem Held.exists_node (h : Held d place cs) {c : TableColumn} (hc : c ∈ cs) :
    ∃ id, d.find? (.leaf place c.name) = some id ∧ d.nodes[id]? = some (c.firstIn cs).node := by
  have hrel := h c.name
  unfold firstIn
  cases hfirst : cs.find? fun b => b.name = c.name with
  | none =>
    have hne := List.find?_eq_none.mp hfirst c hc
    simp at hne
  | some first =>
    rw [hfirst] at hrel
    generalize d.find? (.leaf place c.name) = found at hrel ⊢
    cases hrel with
    | some hn => exact ⟨_, rfl, hn⟩

theorem firstIn_mem {c : TableColumn} (hc : c ∈ cs) : c.firstIn cs ∈ cs := by
  unfold firstIn
  cases hfirst : cs.find? fun b => b.name = c.name with
  | none => exact hc
  | some first => exact List.mem_of_find?_eq_some hfirst

theorem firstIn_name (c : TableColumn) : (c.firstIn cs).name = c.name := by
  unfold firstIn
  cases hfirst : cs.find? fun b => b.name = c.name with
  | none => rfl
  | some first => simpa using List.find?_some hfirst

theorem firstIn_singleton (c : TableColumn) : c.firstIn [c] = c := by
  rw [firstIn, List.find?_cons_of_pos (by simp), Option.getD_some]

section builder

variable (catalog : Catalog) (deeper : Deeper) {v : SelectView}

/-- What is looked for where a column is read. -/
def wanted (c : TableColumn) : Wanted :=
  .leaf c.name (.table c.table.reference)

theorem wantedReferences_eq {references : List Reference}
    (hreferences : List.Forall₂ WrittenAs cs references)
    (hbound : ∀ c ∈ cs, c.table.BoundIn v.sources) (item k : Nat) :
    v.wantedReferences catalog item k references = cs.map wanted := by
  induction hreferences generalizing k with
  | nil => rfl
  | @cons c r cs references hr _ ih =>
    obtain ⟨hc, hbound⟩ := List.forall_mem_cons.mp hbound
    refine congrArg₂ List.cons ?_ (ih hbound (k + 1))
    obtain ⟨label, hkey, rfl⟩ := hr
    unfold FromTable.BoundIn at hc
    simp only [SelectView.wantedReference, SelectView.wanted, SelectView.sourceOf?, hkey, hc]
    rfl

/-- Columns of tables that are looked for are found one after another. -/
theorem Held.runAll : (more : List TableColumn) → {d : Draft} → {cs : List TableColumn} →
    Held d place cs → (found : List Nat) →
      ∃ ids d', Wanted.runAll deeper place true found (more.map wanted) d = .ok (ids, d') ∧
        Extends d d' ∧ Held d' place (cs ++ more) ∧
        ∀ id, id ∈ ids ↔ id ∈ found ∨ ∃ c ∈ more, d'.find? (.leaf place c.name) = some id
  | [], d, cs, h, found => ⟨found, d, rfl, .refl d, by rwa [List.append_nil], by simp⟩
  | c :: more, d, cs, h, found => by
      obtain ⟨id, d₁, hrun, hext, hid, hheld⟩ := h.add c
      obtain ⟨ids, d₂, hruns, hext', hheld', hmem⟩ := runAll more hheld (insertFound true found id)
      rw [List.append_assoc] at hheld'
      refine ⟨ids, d₂, bind_run_eq_ok.mpr ⟨id, d₁, hrun, hruns⟩, hext.trans hext', hheld', ?_⟩
      intro id'
      rw [hmem, mem_insertFound, or_assoc, List.exists_mem_cons_iff, hext'.keys hid,
        Option.some.injEq, eq_comm]

/-- The node of an item has the nodes of the columns that it reads as its sources. -/
theorem exists_itemColumn {item : SelectItem} (hitem : List.Forall₂ WrittenAs cs item.references)
    (hbound : ∀ c ∈ cs, c.table.BoundIn v.sources) (i : Nat) :
    ∃ d' name sources, itemColumn catalog deeper v item i {} = .ok (0, d') ∧
      d'.nodes[0]? = some ⟨name, .projection item.text, sources⟩ ∧ Held d' v.place cs ∧
      ∀ id, id ∈ sources ↔ ∃ c ∈ cs, d'.find? (.leaf v.place c.name) = some id := by
  let name := (item.outputName? i).getD (positionName i)
  let start := ({} : Draft).start (.column v.place (some i)) name (.projection item.text)
  have hstart : Held start v.place [] := fun _ => .none
  obtain ⟨ids, d₁, hrun, hext, hheld, hmem⟩ := hstart.runAll deeper cs []
  rw [← wantedReferences_eq catalog hitem hbound i 0, ← referenceSources_eq] at hrun
  have hroot : d₁.nodes[0]? = some ⟨name, .projection item.text, []⟩ := hext.nodes rfl
  refine ⟨d₁.finish 0 ids, name, ids, ?_, ?_, ?_, ?_⟩
  · change Draft.node (.column v.place (some i)) name (.projection item.text) _ {} = _
    rw [Draft.node_run]
    change Except.map _ (referenceSources catalog deeper v i 0 [] item.references start) = _
    rw [hrun]
    rfl
  · rw [Draft.nodes_finish, if_pos rfl, hroot]
    rfl
  · intro leaf
    rw [Draft.find?_finish]
    refine rel_node_mono (hheld leaf) fun {id c} hn => ?_
    rw [Draft.nodes_finish, if_neg, hn]
    rintro rfl
    rw [hroot, Option.some.injEq] at hn
    cases congrArg Node.origin hn
  · intro id
    simp only [hmem, List.not_mem_nil, false_or, Draft.find?_finish]

end builder

end TableColumn

/-! ## Traces -/

theorem behindLastDot_eq (s : String) :
    behindLastDot s = String.ofList (s.toList.reverse.takeWhile (· ≠ '.')).reverse := by
  unfold behindLastDot splitLastDot?
  dsimp only
  cases hbefore : s.toList.reverse.drop (s.toList.reverse.takeWhile (· ≠ '.')).length with
  | cons dot before => rfl
  | nil =>
    have hall : s.toList.reverse.takeWhile (· ≠ '.') = s.toList.reverse :=
      ( List.takeWhile_prefix _).eq_of_length_le (List.drop_eq_nil_iff.mp hbefore)
    rw [hall, List.reverse_reverse, String.ofList_toList]

theorem behindLastDot_dotted_eq (label c : String) :
    behindLastDot (dotted label c) = behindLastDot c := by
  have hlist : (dotted label c).toList.reverse = c.toList.reverse ++ '.' :: label.toList.reverse := by
    simp [dotted]
  rw [behindLastDot_eq, behindLastDot_eq, hlist, List.takeWhile_append]
  split
  · rename_i hlength
    have hall : c.toList.reverse.takeWhile (· ≠ '.') = c.toList.reverse :=
      ( List.takeWhile_prefix _).eq_of_length_le hlength.ge
    rw [hall, List.takeWhile_cons_of_neg (by simp), List.append_nil]
  · rfl

/-- Nothing but a text without dots stands behind its last dot as a whole. -/
theorem behindLastDot_eq_self_iff {s : String} : behindLastDot s = s ↔ '.' ∉ s.toList := by
  constructor
  · intro h hdot
    rw [behindLastDot_eq] at h
    rw [← h, String.toList_ofList, List.mem_reverse] at hdot
    simpa using List.mem_takeWhile_imp hdot
  · intro h
    rw [behindLastDot, splitLastDot?_eq_none h]

/-- A computed column whose sources are all columns of base tables is traced to these. -/
theorem TraceContext.lineage_of_terminals {x : TraceContext} {id n : Nat} {columns : List String}
    (hid : x.terminal? (x.node id) = none)
    (hends : ∀ source ∈ (x.node id).sources, ∃ t ∈ columns,
      x.terminal? (x.node source) = some t)
    (hall : ∀ t ∈ columns, ∃ source ∈ (x.node id).sources,
      x.terminal? (x.node source) = some t) :
    (x.lineage (n + 2) id ∅).map Prod.fst = .ok (Text.sorted columns) := by
  have hwithin : x.Within (n + 2) id := by
    refine within_succ_iff.mpr fun source he => ?_
    obtain ⟨t, -, ht⟩ := hends source (edge_iff.mp he).2
    refine within_succ_iff.mpr fun source' he' => ?_
    cases ht.symm.trans (edge_iff.mp he').1
  obtain ⟨⟨found, memo⟩, hwalk⟩ := lineage_of_lengths (n + 2) hwithin ∅
  obtain ⟨htraced, -⟩ := lineage_traced _ remembers_empty hwalk
  have hfound : found = Text.sorted columns := by
    refine htraced.ascending.eq (Text.ascending_sorted _) fun t => ?_
    rw [htraced.mem_iff, emits_iff hid, Text.sorted, Text.mem_sortDistinct]
    constructor
    · rintro ⟨source, hs, he⟩
      obtain ⟨t', ht', hend⟩ := hends source hs
      have ht := ((traced_terminal hend).mem_iff t).mpr he
      exact List.mem_singleton.mp ht ▸ ht'
    · intro ht
      obtain ⟨source, hs, hend⟩ := hall t ht
      exact ⟨source, hs, .terminal hend⟩
  rw [hwalk, ← hfound]
  rfl

section traces

variable {q : Query} {s : Select} {i : Nat} {item : SelectItem} {cs : List TableColumn}

/-- The trace of an item that reads nothing but columns of base tables: what stands behind the last
dots of their names, each time of the table whose column was the first to be read under the name. -/
theorem Query.traceOf_reads (hbody : q.body = .select s) (hi : s.items[i]? = some item)
    (hitem : List.Forall₂ TableColumn.WrittenAs cs item.references)
    (hbound : ∀ c ∈ cs, c.table.BoundIn (sourceMap [] (placedCtes [] q.ctes ++ []) s))
    (hbase : ∀ c ∈ cs, c.table.reference.isCteIn q.cteNames = false) (catalog : Catalog)
    (d : Defaults) (limit : Nat) :
    q.traceOf catalog d (limit + 1) (.index i) =
      .ok (Text.sorted (cs.map fun c => (c.firstIn cs).source d)) := by
  let v : SelectView := ⟨[], placedCtes [] q.ctes ++ [], sourceMap [] (placedCtes [] q.ctes ++ []) s⟩
  obtain ⟨draft, name, sources, hrun, hroot, hheld, hmem⟩ :=
    TableColumn.exists_itemColumn catalog (columnWithin catalog (limit + 1) (limit + 1)) (v := v)
      hitem hbound i
  have hcolumn : columnWithin catalog (limit + 1) (limit + 2) (q.placed [] []) (.index i) {} =
      .ok (0, draft) := by
    change bodyColumn catalog _ ⟨q.body, [], _⟩ (.index i) {} = _
    rw [hbody]
    change selectColumn catalog _ [] (placedCtes [] q.ctes ++ []) s (.index i) {} = _
    rw [selectColumn, hi]
    exact hrun
  let x := q.traceContext d (limit + 1) ⟨draft.nodes, 0⟩
  have hnode : ∀ {id node}, draft.nodes[id]? = some node → x.node id = node := by
    intro id node hn
    change (draft.nodes[id]?).getD _ = _
    rw [hn, Option.getD_some]
  have hcomputed : x.terminal? (x.node 0) = none := by
    rw [hnode hroot]
    rfl
  have hleaf : ∀ {id c}, c ∈ cs → draft.find? (.leaf [] c.name) = some id →
      x.terminal? (x.node id) = some ((c.firstIn cs).source d) := by
    intro id c hc hid
    obtain ⟨id', hid', hn⟩ := hheld.exists_node hc
    cases hid.symm.trans hid'
    have hkind : (c.firstIn cs).node.kind x.cteNames = .base (c.firstIn cs).table.reference :=
      Node.kind_eq_base.mpr ⟨rfl, hbase _ (TableColumn.firstIn_mem hc)⟩
    rw [hnode hn, TraceContext.terminal?, hkind]
    change some ((FullName.resolve _ d).column (behindLastDot (dotted _ _))) = _
    rw [behindLastDot_dotted_eq]
    rfl
  have hsources : ∀ {id}, id ∈ (x.node 0).sources ↔
      ∃ c ∈ cs, draft.find? (.leaf [] c.name) = some id := by
    intro id
    rw [hnode hroot]
    exact hmem id
  unfold Query.traceOf
  rw [hcolumn]
  refine TraceContext.lineage_of_terminals hcomputed (fun id hid => ?_) fun t ht => ?_
  · obtain ⟨c, hc, hfind⟩ := hsources.mp hid
    exact ⟨_, List.mem_map_of_mem hc, hleaf hc hfind⟩
  · obtain ⟨c, hc, rfl⟩ := List.mem_map.mp ht
    obtain ⟨id, hid, -⟩ := hheld.exists_node hc
    exact ⟨id, hsources.mpr ⟨c, hc, hid⟩, hleaf hc hid⟩

/-- A column without dots shares its node only with columns of the same name of the same table. -/
theorem TableColumn.source_firstIn {tables : List FromTable}
    (hdistinct : (tables.map FromTable.key).Nodup) (htables : ∀ c ∈ cs, c.table ∈ tables)
    (hdotless : ∀ c ∈ cs, '.' ∉ c.column.toList) {c : TableColumn} (hc : c ∈ cs) (d : Defaults) :
    (c.firstIn cs).source d = (FullName.ofObjectName c.table.name d).column c.column := by
  have hfirst := TableColumn.firstIn_mem hc
  obtain ⟨hlabel, hcolumn⟩ :=
    dotted_inj (hdotless _ hfirst) (hdotless c hc) (TableColumn.firstIn_name c)
  have htable : (c.firstIn cs).table = c.table :=
    List.inj_on_of_nodup_map hdistinct (htables _ hfirst) (htables c hc)
      (congrArg Text.toLower hlabel)
  rw [TableColumn.source, htable, hcolumn, behindLastDot_eq_self_iff.mpr (hdotless c hc)]
  rfl

section distinct

variable {tables : List FromTable} (hbody : q.body = .select s)
  (hfrom : s.factors = tables.map FromTable.factor)
  (hbase : ∀ t ∈ tables, t.reference.isCteIn q.cteNames = false)
  (hdistinct : (tables.map FromTable.key).Nodup) (hi : s.items[i]? = some item)
  (hitem : List.Forall₂ TableColumn.WrittenAs cs item.references)
  (htables : ∀ c ∈ cs, c.table ∈ tables) (catalog : Catalog) (d : Defaults) (limit : Nat)

include hbody hfrom hbase hdistinct hi hitem htables

theorem Query.traceOf_distinct : q.traceOf catalog d (limit + 1) (.index i) =
    .ok (Text.sorted (cs.map fun c => (c.firstIn cs).source d)) := by
  refine Query.traceOf_reads hbody hi hitem ?_ (fun c hc => hbase _ (htables c hc)) catalog d limit
  intro c hc
  exact FromTable.boundIn_of_nodup hfrom
    (fun t ht => FromTable.visibleCte?_of_base (hbase t ht)) hdistinct (htables c hc)

theorem Query.traceOf_dotless (hdotless : ∀ c ∈ cs, '.' ∉ c.column.toList) :
    q.traceOf catalog d (limit + 1) (.index i) = .ok (Text.sorted
      (cs.map fun c => (FullName.ofObjectName c.table.name d).column c.column)) := by
  rw [Query.traceOf_distinct hbody hfrom hbase hdistinct hi hitem htables,
    List.map_congr_left fun c hc => TableColumn.source_firstIn hdistinct htables hdotless hc d]

end distinct

/-- Let a select read base tables whose aliases differ, also in small letters, and let an item read
nothing but columns behind these aliases. It is traced to what stands behind the last dots of the
columns, each time of the first table whose alias and column make the same text. If the columns have
no dots, these are the columns as they are written, of the tables with the aliases. For an item that
reads one column this holds only if the column has no dot. -/
theorem Query.traceOf_tableColumns (hbody : q.body = .select s) {tables : List FromTable}
    (hfrom : s.factors = tables.map FromTable.factor)
    (hbase : ∀ t ∈ tables, t.reference.isCteIn q.cteNames = false)
    (hdistinct : (tables.map FromTable.key).Nodup) (hi : s.items[i]? = some item)
    (hitem : List.Forall₂ TableColumn.WrittenAs cs item.references)
    (htables : ∀ c ∈ cs, c.table ∈ tables) (catalog : Catalog) (d : Defaults) (limit : Nat) :
    q.traceOf catalog d (limit + 1) (.index i) =
        .ok (Text.sorted (cs.map fun c => (c.firstIn cs).source d)) ∧
      (∀ output, FirstNamesake q.body.positionalNames output i →
        q.trace catalog d (limit + 1) output = q.traceOf catalog d (limit + 1) (.index i)) ∧
      ((∀ c ∈ cs, '.' ∉ c.column.toList) →
        q.traceOf catalog d (limit + 1) (.index i) = .ok (Text.sorted
          (cs.map fun c => (FullName.ofObjectName c.table.name d).column c.column))) ∧
      ∀ c, cs = [c] →
        (q.traceOf catalog d (limit + 1) (.index i) =
            .ok [(FullName.ofObjectName c.table.name d).column c.column] ↔
          '.' ∉ c.column.toList) := by
  have htrace := Query.traceOf_distinct hbody hfrom hbase hdistinct hi hitem htables catalog d limit
  refine ⟨htrace, fun output hfirst => Query.trace_eq_of_firstNamesake hfirst _ _ _, ?_, ?_⟩
  · exact Query.traceOf_dotless hbody hfrom hbase hdistinct hi hitem htables catalog d limit
  · rintro c rfl
    have hsource : Text.sorted [c.source d] =
        [(FullName.ofObjectName c.table.name d).column (behindLastDot c.column)] := rfl
    rw [htrace, List.map_singleton, TableColumn.firstIn_singleton, hsource, Except.ok.injEq,
      List.cons_eq_cons, and_iff_left rfl, FullName.column, FullName.column,
      String.append_right_inj, behindLastDot_eq_self_iff]

end traces

/-- The tables of `FROM t AS "x.y", u AS x`. -/
def dottedAlias : List FromTable :=
  [⟨⟨[⟨"t", none⟩]⟩, false, some ⟨⟨"x.y", some .double⟩, []⟩, []⟩,
    ⟨⟨[⟨"u", none⟩]⟩, false, some ⟨⟨"x", none⟩, []⟩, []⟩]

/-- The item `("x.y".c, x."y.c") AS z`. -/
def sharedItem : SelectItem :=
  .expr (.tuple [.path [⟨"x.y", some .double⟩, ⟨"c", none⟩],
    .path [⟨"x", none⟩, ⟨"y.c", some .double⟩]]) (some ⟨"z", none⟩)

/-- `SELECT ("x.y".c, x."y.c") AS z FROM t AS "x.y", u AS x` -/
def sharedNode : Query :=
  .plain [] (.select (.plain [sharedItem] (dottedAlias.map fun t => .mk t.factor [])))

/-- The columns `"x.y".c` and `x."y.c"` are known by one text, and so both are traced to the first
table. -/
theorem Query.traceOf_tableColumns_sharedNode :
    sharedNode.trace ⟨∅⟩ {} 1 "z" = .ok ["t.c"] := by
  let first : TableColumn := ⟨⟨⟨[⟨"t", none⟩]⟩, false, some ⟨⟨"x.y", some .double⟩, []⟩, []⟩, "c"⟩
  let second : TableColumn := ⟨⟨⟨[⟨"u", none⟩]⟩, false, some ⟨⟨"x", none⟩, []⟩, []⟩, "y.c"⟩
  have hitem : List.Forall₂ TableColumn.WrittenAs [first, second] sharedItem.references :=
    .cons ⟨"x.y", rfl, rfl⟩ (.cons ⟨"x", rfl, rfl⟩ .nil)
  have htables : ∀ c ∈ [first, second], c.table ∈ dottedAlias := by
    intro c hc
    rcases List.mem_cons.mp hc with rfl | hc
    · exact List.mem_cons_self
    · obtain rfl := List.mem_singleton.mp hc
      exact List.mem_cons_of_mem _ List.mem_cons_self
  have hfrom : (Select.plain [sharedItem] (dottedAlias.map fun t => .mk t.factor [])).factors =
      dottedAlias.map FromTable.factor := rfl
  obtain ⟨htrace, hname, -⟩ := Query.traceOf_tableColumns (q := sharedNode) (i := 0) rfl hfrom
    (fun t _ => Bool.and_false _) (by decide) rfl hitem htables ⟨∅⟩ {} 0
  rw [hname "z" (position?_eq_some_iff.mp rfl), htrace]
  decide

end ColumnLineage
