import ColumnLineage.Proofs.Maps
import ColumnLineage.Proofs.Steps

/-!
# Drafts and what becomes of them

A builder makes nodes in one way only. A node is asked for by its key; if there is none it is made
without sources, known by the key from then on, and given its sources once they have been looked
for. On the way it may be found again before it is finished. `Assembles` says that a step is put
together like this and that no node which it finds is lost, and everything else follows from it.
-/

namespace ColumnLineage

/-! ## Keys -/

/-- What a node of a draft is known by. -/
inductive Key
  | column (place : Place) (index : Option Nat)
  | leaf (place : Place) (name : String)
deriving DecidableEq

def Key.place : Key → Place
  | .column place _ => place
  | .leaf place _ => place

namespace Draft

def find? (d : Draft) : Key → Option Nat
  | .column place index => d.columns.get? (place, index)
  | .leaf place name => d.leaves.get? (place, name)

theorem find?_empty (key : Key) : find? {} key = none := by
  cases key <;> rfl

def insert (d : Draft) (id : Nat) : Key → Draft
  | .column place index => { d with columns := d.columns.insert (place, index) id }
  | .leaf place name => { d with leaves := d.leaves.insert (place, name) id }

/-- Makes a node without sources, known by a key. -/
def start (d : Draft) (key : Key) (name : String) (origin : Origin) : Draft :=
  insert { d with nodes := d.nodes.push ⟨name, origin, []⟩ } d.nodes.size key

def finish (d : Draft) (id : Nat) (sources : List Nat) : Draft :=
  { d with nodes := d.nodes.modify id ({ · with sources }) }

/-- The node of a key, made if there is none. -/
def node (key : Key) (name : String) (origin : Origin) (sources : Build (List Nat)) : Build Nat :=
  match key with
  | .column place index => Draft.column (place, index) name origin sources
  | .leaf place label => Draft.leaf (place, label) name origin sources

section steps

variable (d : Draft) (key : Key) (name : String) (origin : Origin)

theorem node_run (sources : Build (List Nat)) : node key name origin sources d =
    match d.find? key with
    | some id => .ok (id, d)
    | none => (sources (d.start key name origin)).map fun r =>
        (d.nodes.size, r.2.finish d.nodes.size r.1) := by
  cases key with
  | column place index =>
    change (match d.columns.get? (place, index) with | some id => pure id | none => _ : Build _) d = _
    simp only [find?]
    cases d.columns.get? (place, index) with
    | some id => rfl
    | none =>
      change (sources (d.start (.column place index) name origin) >>= _) = _
      cases sources (d.start (.column place index) name origin) <;> rfl
  | leaf place label =>
    change (match d.leaves.get? (place, label) with | some id => pure id | none => _ : Build _) d = _
    simp only [find?]
    cases d.leaves.get? (place, label) with
    | some id => rfl
    | none =>
      change (sources (d.start (.leaf place label) name origin) >>= _) = _
      cases sources (d.start (.leaf place label) name origin) <;> rfl

theorem find?_start (key' : Key) : (d.start key name origin).find? key' =
    if key = key' then some d.nodes.size else d.find? key' := by
  cases key <;> cases key' <;> simp [start, insert, find?, OrderedMap.get?_insert]

theorem nodes_start : (d.start key name origin).nodes = d.nodes.push ⟨name, origin, []⟩ := by
  cases key <;> rfl

theorem find?_finish (id : Nat) (sources : List Nat) :
    (d.finish id sources).find? key = d.find? key := by
  cases key <;> rfl

theorem nodes_finish (id : Nat) (sources : List Nat) (i : Nat) :
    (d.finish id sources).nodes[i]? =
      if id = i then d.nodes[i]?.map ({ · with sources }) else d.nodes[i]? := by
  rw [finish, Array.getElem?_modify]

theorem size_finish (id : Nat) (sources : List Nat) :
    (d.finish id sources).nodes.size = d.nodes.size := by
  rw [finish, Array.size_modify]

variable {d key name origin} {d' : Draft} {id : Nat}

/-- A node is known already, or it is made, its sources are looked for and it is given them. -/
theorem node_cases {sources : Build (List Nat)} (h : node key name origin sources d = .ok (id, d')) :
    (d.find? key = some id ∧ d' = d) ∨
      (d.find? key = none ∧ id = d.nodes.size ∧ ∃ ids d₁,
        sources (d.start key name origin) = .ok (ids, d₁) ∧ d' = d₁.finish id ids) := by
  rw [node_run] at h
  cases hk : d.find? key with
  | some id' =>
    rw [hk] at h
    cases h
    exact Or.inl ⟨rfl, rfl⟩
  | none =>
    rw [hk] at h
    obtain ⟨⟨ids, d₁⟩, hs, he⟩ := map_eq_ok.mp h
    cases he
    exact Or.inr ⟨rfl, rfl, ids, d₁, hs, rfl⟩

theorem finish_nil (h : d.nodes[id]? = some ⟨name, origin, []⟩) : d.finish id [] = d := by
  have hnodes : d.nodes.modify id ({ · with sources := [] }) = d.nodes := by
    apply Array.ext_getElem?
    intro i
    rw [Array.getElem?_modify]
    split
    · rename_i he
      subst he
      rw [h]
      rfl
    · rfl
  rw [Draft.finish, hnodes]

end steps

end Draft

/-! ## Steps that only add -/

/-- Whether a later draft has all nodes and keys of an earlier one. -/
structure Extends (d d' : Draft) : Prop where
  keys : ∀ {key : Key} {id : Nat}, d.find? key = some id → d'.find? key = some id
  nodes : ∀ {id : Nat} {node : Node}, d.nodes[id]? = some node → d'.nodes[id]? = some node

/-- All keys of a draft have the same nodes in another one. -/
def Draft.KnownIn (d later : Draft) : Prop :=
  ∀ ⦃key : Key⦄ ⦃id : Nat⦄, d.find? key = some id → later.find? key = some id

/-- A step of a builder only adds to a draft. Where its keys are known it finds the same again and
adds nothing. -/
structure Steady {α : Type} (m : Build α) : Prop where
  grows : ∀ {d d' : Draft} {a : α}, m d = .ok (a, d') → Extends d d'
  /-- It finds the same again wherever its keys are known. -/
  settles : ∀ {d d' later : Draft} {a : α}, m d = .ok (a, d') → d'.KnownIn later →
    m later = .ok (a, later)

section steady

variable {d d' : Draft} {key : Key} {name : String} {origin : Origin} {sources : Build (List Nat)}
  {id : Nat}

theorem Extends.refl (d : Draft) : Extends d d :=
  ⟨fun h => h, fun h => h⟩

theorem Extends.trans {later : Draft} (h : Extends d d') (h' : Extends d' later) :
    Extends d later :=
  ⟨fun hk => h'.keys (h.keys hk), fun hn => h'.nodes (h.nodes hn)⟩

theorem Extends.knownIn (h : Extends d d') : d.KnownIn d' :=
  fun _ _ hk => h.keys hk

theorem extends_start (hk : d.find? key = none) (name : String) (origin : Origin) :
    Extends d (d.start key name origin) where
  keys {key'} id h := by
    rw [Draft.find?_start]
    split
    · rename_i he
      rw [← he, hk] at h
      cases h
    · exact h
  nodes {id} node h := by
    rw [Draft.nodes_start]
    have hlt : id < d.nodes.size := (Array.getElem?_eq_some_iff.mp h).1
    rw [Array.getElem?_push_lt hlt]
    exact (Array.getElem?_eq_some_iff.mp h).2 ▸ rfl

theorem extends_finish (h : Extends d d') (hid : d.nodes.size ≤ id) (ids : List Nat) :
    Extends d (d'.finish id ids) where
  keys hk := by
    rw [Draft.find?_finish]
    exact h.keys hk
  nodes {i} node hn := by
    have hlt : i < d.nodes.size := (Array.getElem?_eq_some_iff.mp hn).1
    rw [Draft.nodes_finish, if_neg (by omega), h.nodes hn]

/-- Once its sources have been looked for, a new node is still without any. -/
theorem nodes_of_start (h : Extends (d.start key name origin) d') :
    d'.nodes[d.nodes.size]? = some ⟨name, origin, []⟩ := by
  apply h.nodes
  rw [Draft.nodes_start, Array.getElem?_push_size]

theorem find?_of_start (h : Extends (d.start key name origin) d') :
    d'.find? key = some d.nodes.size := by
  apply h.keys
  rw [Draft.find?_start, if_pos rfl]

theorem find?_of_node (hs : Steady sources)
    (h : Draft.node key name origin sources d = .ok (id, d')) : d'.find? key = some id := by
  rcases Draft.node_cases h with ⟨hk, rfl⟩ | ⟨-, rfl, ids, d₁, hrun, rfl⟩
  · exact hk
  · rw [Draft.find?_finish]
    exact find?_of_start (hs.grows hrun)

theorem steady_node (key : Key) (name : String) (origin : Origin) (hs : Steady sources) :
    Steady (Draft.node key name origin sources) where
  grows h := by
    rcases Draft.node_cases h with ⟨-, rfl⟩ | ⟨hk, rfl, ids, d₁, hrun, rfl⟩
    · exact .refl _
    · have hext := (extends_start hk name origin).trans (hs.grows hrun)
      exact extends_finish hext (Nat.le_refl _) ids
  settles h hlater := by
    rw [Draft.node_run, hlater (find?_of_node hs h)]

variable {α β : Type}

theorem steady_pure (a : α) : Steady (pure a) where
  grows h := by
    obtain ⟨-, rfl⟩ := pure_run_eq_ok.mp h
    exact .refl _
  settles h _ := by
    obtain ⟨rfl, -⟩ := pure_run_eq_ok.mp h
    rfl

theorem steady_throw (e : GraphError) : Steady (throw e : Build α) where
  grows h := absurd h throw_run_ne_ok
  settles h _ := absurd h throw_run_ne_ok

theorem Steady.bind {m : Build α} {f : α → Build β} (hm : Steady m) (hf : ∀ a, Steady (f a)) :
    Steady (m >>= f) where
  grows h := by
    obtain ⟨a, d₁, h₁, h₂⟩ := bind_run_eq_ok.mp h
    exact (hm.grows h₁).trans ((hf a).grows h₂)
  settles h hlater := by
    obtain ⟨a, d₁, h₁, h₂⟩ := bind_run_eq_ok.mp h
    have hknown := ((hf a).grows h₂).knownIn
    exact bind_run_eq_ok.mpr
      ⟨a, _, hm.settles h₁ fun _ _ hk => hlater (hknown hk), (hf a).settles h₂ hlater⟩

end steady

/-! ## How steps are put together -/

/-- A step is put together from steps that look for the node of a key, of a name, an origin and a
step for its sources as `Asks` allows. The nodes that its result names are `found`, and among them
are those that the steps inside it find. -/
inductive Assembles (Asks : Key → String → Origin → Build (List Nat) → Prop) :
    {α : Type} → (α → List Nat) → Build α → Prop
  | pure {α : Type} (found : α → List Nat) (a : α) : Assembles Asks found (pure a)
  | throw {α : Type} (found : α → List Nat) (e : GraphError) :
    Assembles Asks found (throw e : Build α)
  | bind {α β : Type} {found : α → List Nat} {found' : β → List Nat} {m : Build α}
    {f : α → Build β} (hm : Assembles Asks found m) (hf : ∀ a, Assembles Asks found' (f a))
    (hkept : ∀ {a : α} {b : β} {d d' : Draft}, f a d = .ok (b, d') → found a ⊆ found' b) :
    Assembles Asks found' (m >>= f)
  | node {key : Key} {name : String} {origin : Origin} {sources : Build (List Nat)}
    (hasks : Asks key name origin sources) (hs : Assembles Asks id sources) :
    Assembles Asks (fun id => [id]) (Draft.node key name origin sources)

/-- Nodes and keys of a draft stand for each other. -/
structure Draft.Keyed (d : Draft) : Prop where
  bounded : ∀ {key : Key} {id : Nat}, d.find? key = some id → id < d.nodes.size
  injective : ∀ {key key' : Key} {id : Nat}, d.find? key = some id → d.find? key' = some id →
    key = key'
  surjective : ∀ {id : Nat}, id < d.nodes.size → ∃ key, d.find? key = some id

theorem Draft.keyed_empty : Draft.Keyed {} where
  bounded h := by simp [find?_empty] at h
  injective h := by simp [find?_empty] at h
  surjective h := by simp at h

theorem Draft.Keyed.start {d : Draft} (h : d.Keyed) {key : Key} (hk : d.find? key = none)
    (name : String) (origin : Origin) : (d.start key name origin).Keyed where
  bounded {key' id} hid := by
    rw [Draft.nodes_start, Array.size_push]
    rw [Draft.find?_start] at hid
    split at hid
    · cases hid
      exact Nat.lt_succ_self _
    · exact Nat.lt_succ_of_lt (h.bounded hid)
  injective {key₁ key₂ id} h₁ h₂ := by
    rw [Draft.find?_start] at h₁ h₂
    -- The number of the new node is larger than those of all keys from before.
    split at h₁ <;> split at h₂
    · rename_i he₁ he₂
      exact he₁.symm.trans he₂
    · cases h₁
      exact absurd (h.bounded h₂) (Nat.lt_irrefl _)
    · cases h₂
      exact absurd (h.bounded h₁) (Nat.lt_irrefl _)
    · exact h.injective h₁ h₂
  surjective {id} hid := by
    rw [Draft.nodes_start, Array.size_push] at hid
    rcases Nat.lt_succ_iff_lt_or_eq.mp hid with hlt | rfl
    · obtain ⟨key', hk'⟩ := h.surjective hlt
      exact ⟨key', (extends_start hk name origin).keys hk'⟩
    · exact ⟨key, find?_of_start (.refl _)⟩

theorem Draft.Keyed.finish {d : Draft} (h : d.Keyed) (id : Nat) (ids : List Nat) :
    (d.finish id ids).Keyed where
  bounded hk := by
    rw [Draft.size_finish]
    rw [Draft.find?_finish] at hk
    exact h.bounded hk
  injective h₁ h₂ := by
    rw [Draft.find?_finish] at h₁ h₂
    exact h.injective h₁ h₂
  surjective hid := by
    rw [Draft.size_finish] at hid
    obtain ⟨key, hk⟩ := h.surjective hid
    exact ⟨key, by rwa [Draft.find?_finish]⟩

/-- A node was asked for by a key, and it has the sources that are found for it in the draft as it
is. -/
def Draft.Finished (Asks : Key → String → Origin → Build (List Nat) → Prop) (d : Draft)
    (key : Key) (id : Nat) : Prop :=
  ∃ name origin sources ids, Asks key name origin sources ∧
    d.nodes[id]? = some ⟨name, origin, ids⟩ ∧ sources d = .ok (ids, d)

section assembles

variable {Asks : Key → String → Origin → Build (List Nat) → Prop} {α : Type} {found : α → List Nat}
  {m : Build α}

theorem Assembles.imp {Asks' : Key → String → Origin → Build (List Nat) → Prop}
    (hasks : ∀ {key : Key} {name : String} {origin : Origin} {sources : Build (List Nat)},
      Asks key name origin sources → Asks' key name origin sources)
    (h : Assembles Asks found m) : Assembles Asks' found m := by
  induction h with
  | pure found a => exact .pure found a
  | throw found e => exact .throw found e
  | bind _ _ hkept ihm ihf => exact .bind ihm ihf hkept
  | node h _ ih => exact .node (hasks h) ih

theorem Assembles.steady (h : Assembles Asks found m) : Steady m := by
  induction h with
  | pure found a => exact steady_pure a
  | throw found e => exact steady_throw e
  | bind _ _ _ ihm ihf => exact ihm.bind ihf
  | node _ _ ih => exact steady_node _ _ _ ih

theorem Assembles.keyed (h : Assembles Asks found m) :
    ∀ {d d' : Draft} {a : α}, d.Keyed → m d = .ok (a, d') → d'.Keyed := by
  induction h with
  | pure found a =>
    intro d d' a' hd h
    obtain ⟨-, rfl⟩ := pure_run_eq_ok.mp h
    exact hd
  | throw found e =>
    intro d d' a' hd h
    exact absurd h throw_run_ne_ok
  | bind _ _ _ ihm ihf =>
    intro d d' b hd h
    obtain ⟨a, d₁, h₁, h₂⟩ := bind_run_eq_ok.mp h
    exact ihf a (ihm hd h₁) h₂
  | node _ _ ih =>
    intro d d' id hd h
    rcases Draft.node_cases h with ⟨-, rfl⟩ | ⟨hk, rfl, ids, d₁, hrun, rfl⟩
    · exact hd
    · exact (ih (hd.start hk _ _) hrun).finish _ _

variable (hsteady : ∀ {key : Key} {name : String} {origin : Origin} {sources : Build (List Nat)},
  Asks key name origin sources → Steady sources)

include hsteady

/-- Sources that are found again in every later draft stay what a node asks for. -/
theorem Draft.Finished.mono {d d' : Draft} {key : Key} {id : Nat} (h : d.Finished Asks key id)
    (hk : d.KnownIn d')
    (hn : ∀ {node : Node}, d.nodes[id]? = some node → d'.nodes[id]? = some node) :
    d'.Finished Asks key id := by
  obtain ⟨name, origin, sources, ids, hasks, hnode, hrun⟩ := h
  exact ⟨name, origin, sources, ids, hasks, hn hnode, (hsteady hasks).settles hrun hk⟩

/-- Every key that a step brings in has a node that is finished. -/
theorem Assembles.finished (h : Assembles Asks found m) :
    ∀ {d d' : Draft} {a : α} {key : Key} {id : Nat}, d.Keyed → m d = .ok (a, d') →
      d.find? key = none → d'.find? key = some id → d'.Finished Asks key id := by
  induction h with
  | pure found a =>
    intro d d' a' key id _ h hnone hsome
    obtain ⟨-, rfl⟩ := pure_run_eq_ok.mp h
    rw [hnone] at hsome
    cases hsome
  | throw found e =>
    intro d d' a' key id _ h
    exact absurd h throw_run_ne_ok
  | bind hm hf _ ihm ihf =>
    intro d d' b key id hd h hnone hsome
    obtain ⟨a, d₁, h₁, h₂⟩ := bind_run_eq_ok.mp h
    have hext := (hf a).steady.grows h₂
    cases hmid : d₁.find? key with
    | none => exact ihf a (hm.keyed hd h₁) h₂ hmid hsome
    | some id' =>
      rw [hext.keys hmid, Option.some.injEq] at hsome
      subst hsome
      exact (ihm hd h₁ hnone hmid).mono hsteady hext.knownIn hext.nodes
  | @node asked name origin sources hasks hs ih =>
    intro d d' new key id hd h hnone hsome
    rcases Draft.node_cases h with ⟨-, rfl⟩ | ⟨hk, rfl, ids, d₁, hrun, rfl⟩
    · rw [hnone] at hsome
      cases hsome
    have hext := hs.steady.grows hrun
    have hstart := find?_of_start hext
    have hknown : d₁.KnownIn (d₁.finish d.nodes.size ids) := by
      intro key' id' hk'
      rwa [Draft.find?_finish]
    rw [Draft.find?_finish] at hsome
    by_cases he : asked = key
    · subst he
      rw [hstart, Option.some.injEq] at hsome
      subst hsome
      refine ⟨name, origin, sources, ids, hasks, ?_, hs.steady.settles hrun hknown⟩
      rw [Draft.nodes_finish, if_pos rfl, nodes_of_start hext]
      rfl
    · have hkeyed := hd.start hk name origin
      have hnone' : (d.start asked name origin).find? key = none := by
        rw [Draft.find?_start, if_neg he, hnone]
      refine (ih hkeyed hrun hnone' hsome).mono hsteady hknown fun {node} hn => ?_
      have hne : d.nodes.size ≠ id := by
        rintro rfl
        exact he ((hs.keyed hkeyed hrun).injective hstart hsome)
      rw [Draft.nodes_finish, if_neg hne, hn]

end assembles

end ColumnLineage
