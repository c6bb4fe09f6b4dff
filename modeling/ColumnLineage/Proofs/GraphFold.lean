import ColumnLineage.Lineage.Trace
import ColumnLineage.Proofs.Steps
import Mathlib.Data.List.Sort
import Mathlib.Data.String.Basic

/-!
# What a walk over a graph collects

A node that stands for a column of a base table emits that column; any other node emits what its
sources emit. A walk that ends has collected exactly what its node emits, each column once and in
order, whatever it has remembered from before. It ends only at nodes below which there is no
cycle.
-/

namespace ColumnLineage

/-! ## Sorted texts -/

namespace Text

def Ascending (texts : List String) : Prop :=
  texts.Pairwise (· < ·)

theorem ascending_insertSorted {texts : List String} (h : Ascending texts) (s : String) :
    Ascending (insertSorted less s texts) := by
  induction texts with
  | nil => simp [insertSorted, Ascending]
  | cons t rest ih =>
    obtain ⟨ht, hrest⟩ := List.pairwise_cons.mp h
    unfold insertSorted
    split
    · exact h
    · rename_i hne
      split
      · rename_i hlt
        have hst : s < t := of_decide_eq_true hlt
        refine List.pairwise_cons.mpr ⟨?_, h⟩
        intro u hu
        rcases List.mem_cons.mp hu with rfl | hu
        · exact hst
        · exact lt_trans hst (ht u hu)
      · rename_i hlt
        have hst : ¬ s < t := fun hst => hlt (decide_eq_true hst)
        have hts : t < s := lt_of_le_of_ne (not_lt.mp hst) fun e => hne e.symm
        refine List.pairwise_cons.mpr ⟨?_, ih hrest⟩
        intro u hu
        rcases mem_insertSorted.mp hu with rfl | hu
        · exact hts
        · exact ht u hu

theorem ascending_sorted (texts : List String) : Ascending (sorted texts) := by
  induction texts with
  | nil => exact List.Pairwise.nil
  | cons s rest ih => exact ascending_insertSorted ih s

/-- Texts in strict order are determined by which texts they are. -/
theorem Ascending.eq {a b : List String} (ha : Ascending a) (hb : Ascending b)
    (h : ∀ s, s ∈ a ↔ s ∈ b) : a = b := by
  have hp : a.Perm b :=
    (List.perm_ext_iff_of_nodup ha.nodup hb.nodup).mpr h
  exact hp.eq_of_pairwise' ha hb

end Text

variable {found : List String}

namespace TraceContext

theorem mem_union {a b : List String} {s : String} : s ∈ union a b ↔ s ∈ a ∨ s ∈ b := by
  unfold union
  induction b generalizing a with
  | nil => simp
  | cons t rest ih =>
    rw [List.foldl_cons, ih, Text.mem_insertSorted, List.mem_cons]
    tauto

theorem ascending_union {a : List String} (ha : Text.Ascending a) (b : List String) :
    Text.Ascending (union a b) := by
  unfold union
  induction b generalizing a with
  | nil => exact ha
  | cons t rest ih => exact ih (Text.ascending_insertSorted ha t)

theorem union_nil (h : Text.Ascending found) : union [] found = found :=
  (ascending_union List.Pairwise.nil found).eq h fun s => by
    simp [mem_union]

/-! ## What nodes emit -/

def node (x : TraceContext) (id : Nat) : Node :=
  x.nodes[id]?.getD ⟨"", .placeholder, []⟩

/-- A node emits the column of a base table. -/
inductive Emits (x : TraceContext) : Nat → String → Prop
  | terminal {id : Nat} {s : String} (h : x.terminal? (x.node id) = some s) : Emits x id s
  | source {id id' : Nat} {s : String} (h : x.terminal? (x.node id) = none)
    (hm : id' ∈ (x.node id).sources) (he : Emits x id' s) : Emits x id s

/-- There is no cycle below a node. -/
inductive Founded (x : TraceContext) : Nat → Prop
  | terminal {id : Nat} {s : String} (h : x.terminal? (x.node id) = some s) : Founded x id
  | sources {id : Nat} (h : x.terminal? (x.node id) = none)
    (hs : ∀ id' ∈ (x.node id).sources, Founded x id') : Founded x id

/-- What a node emits comes from a node that stands for a column itself. -/
theorem Emits.exists_terminal {x : TraceContext} {id : Nat} {s : String} (h : x.Emits id s) :
    ∃ id', x.terminal? (x.node id') = some s := by
  induction h with
  | terminal h => exact ⟨_, h⟩
  | source _ _ _ ih => exact ih

theorem emits_iff {x : TraceContext} {id : Nat} {s : String}
    (h : x.terminal? (x.node id) = none) :
    x.Emits id s ↔ ∃ id' ∈ (x.node id).sources, x.Emits id' s := by
  constructor
  · intro he
    cases he with
    | terminal h' =>
      rw [h] at h'
      cases h'
    | source _ hm he => exact ⟨_, hm, he⟩
  · rintro ⟨id', hm, he⟩
    exact .source h hm he

/-- A list holds what a node emits, in order, and there is no cycle below the node. -/
structure Traced (x : TraceContext) (id : Nat) (found : List String) : Prop where
  founded : x.Founded id
  mem_iff : ∀ s, s ∈ found ↔ x.Emits id s
  ascending : Text.Ascending found

theorem traced_terminal {x : TraceContext} {id : Nat} {s : String}
    (h : x.terminal? (x.node id) = some s) : x.Traced id [s] where
  founded := .terminal h
  mem_iff t := by
    rw [List.mem_singleton]
    constructor
    · rintro rfl
      exact .terminal h
    · intro he
      cases he with
      | terminal h' =>
        rw [h] at h'
        exact (Option.some.inj h').symm
      | source h' _ _ =>
        rw [h] at h'
        cases h'
  ascending := List.pairwise_singleton _ _

/-! ## The walk -/

/-- All that a walk remembers is right. -/
def Remembers (x : TraceContext) (memo : TraceMemo) : Prop :=
  ∀ id found, memo.get? id = some found → x.Traced id found

variable {x : TraceContext}

theorem remembers_empty : x.Remembers ∅ := by
  intro id found h
  cases h

theorem Remembers.insert {memo : TraceMemo} (hm : x.Remembers memo) {id : Nat}
    (h : x.Traced id found) : x.Remembers (memo.insert id found) := by
  intro id' found' hg
  rw [OrderedMap.get?_insert] at hg
  split at hg
  · rename_i hid
    cases hg
    exact hid ▸ h
  · exact hm id' found' hg

/-- Given that the walk over single nodes is right, so is the union over several. -/
theorem unionOf_traced {walk : Nat → Walk (List String)}
    (hw : ∀ {id : Nat} {memo memo' : TraceMemo} {found : List String}, x.Remembers memo →
      walk id memo = .ok (found, memo') → x.Traced id found ∧ x.Remembers memo') :
    (ids : List Nat) → {memo memo' : TraceMemo} → {start found : List String} →
      x.Remembers memo → Text.Ascending start →
      unionOf walk start ids memo = .ok (found, memo') →
      x.Remembers memo' ∧ Text.Ascending found ∧ (∀ id ∈ ids, x.Founded id) ∧
        ∀ s, s ∈ found ↔ s ∈ start ∨ ∃ id ∈ ids, x.Emits id s
  | [], _, _, _, _, hm, hs, h => by
      obtain ⟨rfl, rfl⟩ := pure_run_eq_ok.mp h
      exact ⟨hm, hs, by simp, by simp⟩
  | id :: rest, _, _, start, found, hm, hs, h => by
      obtain ⟨more, memo₁, h₁, h₂⟩ := bind_run_eq_ok.mp h
      obtain ⟨ht, hm₁⟩ := hw hm h₁
      obtain ⟨hm₂, hasc, hf, hmem⟩ := unionOf_traced hw rest hm₁ (ascending_union hs more) h₂
      refine ⟨hm₂, hasc, ?_, ?_⟩
      · intro id' hid
        rcases List.mem_cons.mp hid with rfl | hid
        · exact ht.founded
        · exact hf id' hid
      · intro s
        rw [hmem, mem_union, ht.mem_iff, List.exists_mem_cons_iff, or_assoc]

/-- The lineage of a node that is not remembered. -/
def ownLineage (x : TraceContext) (walk : Nat → Walk (List String)) (id : Nat) :
    Walk (List String) :=
  match x.terminal? (x.node id) with
  | some column => pure [column]
  | none => unionOf walk [] (x.node id).sources

theorem lineage_succ (n id : Nat) (memo : TraceMemo) :
    x.lineage (n + 1) id memo =
      match memo.get? id with
      | some known => .ok (known, memo)
      | none => (x.ownLineage (x.lineage n) id >>= fun found => do
          modify fun memo => memo.insert id found
          return found) memo := by
  change (match memo.get? id with | some known => pure known | none => _ : Walk _) memo = _
  unfold ownLineage
  cases memo.get? id with
  | some known => rfl
  | none =>
    simp only
    unfold node
    cases x.terminal? (x.nodes[id]?.getD ⟨"", .placeholder, []⟩) <;> rfl

theorem ownLineage_traced {walk : Nat → Walk (List String)}
    (hw : ∀ {id : Nat} {memo memo' : TraceMemo} {found : List String}, x.Remembers memo →
      walk id memo = .ok (found, memo') → x.Traced id found ∧ x.Remembers memo') {id : Nat}
    {memo memo' : TraceMemo} (hm : x.Remembers memo)
    (h : x.ownLineage walk id memo = .ok (found, memo')) :
    x.Traced id found ∧ x.Remembers memo' := by
  unfold ownLineage at h
  cases hc : x.terminal? (x.node id) with
  | some column =>
    simp only [hc] at h
    obtain ⟨rfl, rfl⟩ := pure_run_eq_ok.mp h
    exact ⟨traced_terminal hc, hm⟩
  | none =>
    simp only [hc] at h
    obtain ⟨hm', hasc, hf, hmem⟩ := unionOf_traced hw _ hm List.Pairwise.nil h
    refine ⟨⟨.sources hc hf, ?_, hasc⟩, hm'⟩
    intro s
    rw [hmem, emits_iff hc]
    simp

theorem lineage_traced : (n : Nat) → {id : Nat} → {memo memo' : TraceMemo} →
    {found : List String} → x.Remembers memo → x.lineage n id memo = .ok (found, memo') →
      x.Traced id found ∧ x.Remembers memo'
  | 0, _, _, _, _, _, h => absurd h throw_run_ne_ok
  | n + 1, id, memo, memo', found, hm, h => by
      rw [lineage_succ] at h
      cases hk : memo.get? id with
      | some known =>
        simp only [hk] at h
        cases h
        exact ⟨hm id _ hk, hm⟩
      | none =>
        simp only [hk] at h
        obtain ⟨found', memo₁, ho, h⟩ := bind_run_eq_ok.mp h
        obtain ⟨_, memo₂, hi, h⟩ := bind_run_eq_ok.mp h
        obtain rfl := modify_run_eq_ok.mp hi
        obtain ⟨rfl, rfl⟩ := pure_run_eq_ok.mp h
        obtain ⟨ht, hm₁⟩ := ownLineage_traced (lineage_traced n) hm ho
        exact ⟨ht, hm₁.insert ht⟩

end TraceContext

/-! ## Traces of queries -/

theorem Node.kind_eq_base {n : Node} {cteNames : List String} {r : TableReference} :
    n.kind cteNames = .base r ↔ n.origin = .table r ∧ r.isCteIn cteNames = false := by
  unfold Node.kind
  cases n.origin with
  | table r' =>
    by_cases hr : r'.isCteIn cteNames
    · simp only [hr, if_true, Origin.table.injEq]
      constructor
      · intro h
        cases h
      · rintro ⟨rfl, h⟩
        rw [hr] at h
        cases h
    · simp only [hr, Bool.false_eq_true, if_false, NodeKind.base.injEq, Origin.table.injEq]
      constructor
      · rintro rfl
        exact ⟨rfl, by simpa using hr⟩
      · exact fun h => h.1
  | placeholder => simp
  | projection sql => simp
  | setOperation index => simp

/-- What the walk over the graph of a query needs. -/
def Query.traceContext (q : Query) (d : Defaults) (limit : Nat) (g : Graph) : TraceContext :=
  ⟨g.nodes, q.cteNames, q.aliases d, d, limit⟩

/-- A trace that ends has collected what the root of the graph emits. -/
theorem Query.traced_of_trace {q : Query} {catalog : Catalog} {d : Defaults} {limit : Nat}
    {column : String} (h : q.trace catalog d limit column = .ok found) :
    ∃ g, q.lineageGraph catalog column limit = .ok g ∧
      (q.traceContext d limit g).Traced g.root found := by
  unfold Query.trace at h
  cases hg : q.lineageGraph catalog column limit with
  | error e =>
    rw [hg] at h
    cases h
  | ok g =>
    rw [hg] at h
    dsimp only at h
    cases hl : (q.traceContext d limit g).lineage (limit + 1) g.root ∅ with
    | error e =>
      unfold Query.traceContext at hl
      rw [hl] at h
      cases h
    | ok r =>
      obtain ⟨found', memo⟩ := r
      have ht := (TraceContext.lineage_traced (limit + 1) TraceContext.remembers_empty hl).1
      unfold Query.traceContext at hl
      rw [hl] at h
      cases h
      exact ⟨g, rfl, ht⟩

end ColumnLineage
