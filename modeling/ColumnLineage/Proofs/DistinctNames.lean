import ColumnLineage.Lineage.Tables
import ColumnLineage.Proofs.BuilderWalk
import Mathlib.Data.List.Nodup
import Mathlib.Data.List.Pairwise

/-!
# Common tables with distinct names

If all common tables of a query have distinct names, the name of a declaration tells where it
stands. The parts of a query lie side by side, so two ways down that lead to one name never part.
-/

namespace ColumnLineage

/-- The name of a common table in small letters. -/
def Cte.lowerName (c : Cte) : String :=
  Text.toLower c.name.value

/-- The names of the common tables that parts declare. -/
def declaredNames (parts : List Part) : List String :=
  parts.flatMap fun
    | .query q => q.ctes.map Cte.lowerName
    | .table _ _ => []

theorem Query.cteNames_eq (q : Query) : q.cteNames = declaredNames q.parts := by
  unfold Query.cteNames Query.allCtes declaredNames
  rw [List.map_flatMap]
  congr 1
  funext part
  cases part <;> rfl

theorem declaredNames_append (as bs : List Part) :
    declaredNames (as ++ bs) = declaredNames as ++ declaredNames bs :=
  List.flatMap_append

theorem declaredNames_sublist {as bs : List Part} (h : as.Sublist bs) :
    (declaredNames as).Sublist (declaredNames bs) :=
  h.flatMap _

/-! ## Ways down -/

/-- The common tables of a query and its body. -/
structure Core where
  own : List Cte
  body : Body

def Query.core (q : Query) : Core :=
  ⟨q.ctes, q.body⟩

variable {k t : Core}

namespace Core

/-- The names declared in it, its own first. -/
def names (k : Core) : List String :=
  k.own.map Cte.lowerName ++ declaredNames (Cte.partsList k.own ++ k.body.parts)

/-- The queries that elements of a list hold, each with the step that leads there. -/
def slotsOf {α : Type} (step : Nat → Step) (inner : α → Option Query) :
    Nat → List α → List (Step × Core)
  | _, [] => []
  | i, a :: rest =>
    ((inner a).toList.map fun q => (step i, q.core)) ++ slotsOf step inner (i + 1) rest

/-- The query that a table of a `FROM` clause is. -/
def queryOf? : TableFactor → Option Query
  | .derived _ q _ => some q
  | _ => none

def scalarOf? : Reference → Option Query
  | .scalar q => some q
  | .column _ _ => none

/-- The scalar queries that items read, each with the step that leads there. -/
def itemSlots : Nat → List SelectItem → List (Step × Core)
  | _, [] => []
  | i, item :: rest =>
    slotsOf (.scalar i) scalarOf? 0 item.references ++ itemSlots (i + 1) rest

/-- What stands one step inside a body. -/
def bodySlots : Body → List (Step × Core)
  | .parens q => [(.inner, q.core)]
  | .setOperation _ _ left right => [(.left, ⟨[], left⟩), (.right, ⟨[], right⟩)]
  | .select s => itemSlots 0 s.items ++ slotsOf .source queryOf? 0 s.factors
  | _ => []

def slots (k : Core) : List (Step × Core) :=
  slotsOf .cte (fun c => some c.query) 0 k.own ++ bodySlots k.body

/-- The names declared in what stands one step down. -/
def slotNames (slots : List (Step × Core)) : List String :=
  slots.flatMap fun s => s.2.names

theorem slotNames_append (as bs : List (Step × Core)) :
    slotNames (as ++ bs) = slotNames as ++ slotNames bs :=
  List.flatMap_append

theorem core_names (q : Query) : q.core.names.Sublist (declaredNames q.parts) := by
  have hq : declaredNames q.parts = q.ctes.map Cte.lowerName ++ declaredNames q.parts.tail := by
    conv_lhs => rw [q.parts_eq_cons]
    rfl
  rw [hq]
  exact List.Sublist.append_left (declaredNames_sublist q.parts_sublist) _

theorem slotsOf_names {α : Type} {step : Nat → Step} {inner : α → Option Query}
    (parts : α → List Part) (h : ∀ a q, inner a = some q → q.parts.Sublist (parts a)) :
    (i : Nat) → (as : List α) →
      (slotNames (slotsOf step inner i as)).Sublist (declaredNames (as.flatMap parts))
  | _, [] => List.Sublist.refl _
  | i, a :: rest => by
      rw [slotsOf, slotNames_append, List.flatMap_cons, declaredNames_append]
      refine List.Sublist.append ?_ (slotsOf_names parts h (i + 1) rest)
      cases hq : inner a with
      | none => exact List.nil_sublist _
      | some q =>
        simp only [Option.toList_some, List.map_cons, List.map_nil, slotNames, List.flatMap_cons,
          List.flatMap_nil, List.append_nil]
        exact (core_names q).trans (declaredNames_sublist (h a q hq))

theorem itemSlots_names : (i : Nat) → (items : List SelectItem) →
    (slotNames (itemSlots i items)).Sublist (declaredNames (SelectItem.partsList items))
  | _, [] => List.Sublist.refl _
  | i, item :: rest => by
      rw [itemSlots, slotNames_append, SelectItem.partsList, declaredNames_append]
      refine List.Sublist.append ?_ (itemSlots_names (i + 1) rest)
      refine (slotsOf_names Reference.parts ?_ 0 item.references).trans
        (declaredNames_sublist item.references_parts)
      intro r q hr
      cases r with
      | scalar q' =>
        cases hr
        exact List.Sublist.refl _
      | column qualifier name => cases hr

theorem bodySlots_names (b : Body) :
    (slotNames (bodySlots b)).Sublist (declaredNames b.parts) := by
  have hside : ∀ b : Body, (Core.names ⟨[], b⟩) = declaredNames b.parts := fun b => rfl
  cases b with
  | parens q =>
    simp only [bodySlots, slotNames, List.flatMap_cons, List.flatMap_nil, List.append_nil]
    exact core_names q
  | setOperation op quantifier left right =>
    simp only [bodySlots, slotNames, List.flatMap_cons, List.flatMap_nil, List.append_nil, hside]
    rw [Body.parts, declaredNames_append]
  | select s =>
    rw [bodySlots, slotNames_append, Body.parts]
    refine List.Sublist.trans ?_ (declaredNames_sublist s.parts_sublist)
    rw [declaredNames_append]
    refine (itemSlots_names 0 s.items).append ?_
    refine (slotsOf_names TableFactor.parts ?_ 0 s.factors).trans
      (declaredNames_sublist s.factors_parts)
    intro f q hf
    cases f with
    | derived lateral q' label =>
      cases hf
      exact List.Sublist.refl _
    | _ => cases hf
  | _ => exact List.nil_sublist _

theorem slots_names (k : Core) :
    (slotNames k.slots).Sublist (declaredNames (Cte.partsList k.own ++ k.body.parts)) := by
  rw [slots, slotNames_append, declaredNames_append, Cte.partsList_eq]
  refine List.Sublist.append ?_ (bodySlots_names k.body)
  refine slotsOf_names (fun c : Cte => c.query.parts) ?_ 0 k.own
  intro c q hc
  cases hc
  exact List.Sublist.refl _

/-! ### Steps to slots -/

theorem mem_slotsOf {α : Type} (step : Nat → Step) (inner : α → Option Query) {a : α} {q : Query}
    (hq : inner a = some q) : (as : List α) → (k i : Nat) → as[i]? = some a →
      (step (k + i), q.core) ∈ slotsOf step inner k as
  | [], _, _, h => by simp at h
  | b :: rest, k, 0, h => by
      obtain rfl : b = a := by simpa using h
      refine List.mem_append_left _ ?_
      simp [hq]
  | b :: rest, k, i + 1, h => by
      have hr := mem_slotsOf step inner hq rest (k + 1) i (by simpa using h)
      rw [show k + 1 + i = k + (i + 1) by omega] at hr
      exact List.mem_append_right _ hr

theorem mem_itemSlots {item : SelectItem} {j : Nat} {q : Query}
    (hj : item.references[j]? = some (.scalar q)) : (items : List SelectItem) → (k i : Nat) →
      items[i]? = some item → (.scalar (k + i) j, q.core) ∈ itemSlots k items
  | [], _, _, h => by simp at h
  | b :: rest, k, 0, h => by
      obtain rfl : b = item := by simpa using h
      have hr := mem_slotsOf (.scalar k) scalarOf? rfl b.references 0 j hj
      rw [Nat.zero_add] at hr
      exact List.mem_append_left _ hr
  | b :: rest, k, i + 1, h => by
      have hr := mem_itemSlots hj rest (k + 1) i (by simpa using h)
      rw [show k + 1 + i = k + (i + 1) by omega] at hr
      exact List.mem_append_right _ hr

theorem mem_slots_cte {i : Nat} {c : Cte} (h : k.own[i]? = some c) :
    (.cte i, c.query.core) ∈ k.slots := by
  have hs := mem_slotsOf .cte (fun c : Cte => some c.query) rfl k.own 0 i h
  rw [Nat.zero_add] at hs
  exact List.mem_append_left _ hs

/-! ### The way down to a name is unique -/

/-- A way down from one core to another. -/
def Reaches (k : Core) : List Step → Core → Prop
  | [], t => t = k
  | step :: path, t => ∃ u, (step, u) ∈ k.slots ∧ u.Reaches path t

theorem Reaches.concat {u : Core} {step : Step} (hs : (step, u) ∈ t.slots) :
    {path : List Step} → {k : Core} → k.Reaches path t → k.Reaches (path ++ [step]) u
  | [], _, h => by
      cases h
      exact ⟨u, hs, rfl⟩
  | _ :: _, _, ⟨w, hw, h⟩ => ⟨w, hw, h.concat hs⟩

theorem names_of_slot {step : Step} (h : (step, t) ∈ k.slots) : t.names ⊆ k.names := by
  intro n hn
  refine List.mem_append_right _ (k.slots_names.subset ?_)
  exact List.mem_flatMap.mpr ⟨(step, t), h, hn⟩

theorem Reaches.names_subset : {path : List Step} → {k : Core} → k.Reaches path t →
    t.names ⊆ k.names
  | [], _, h => by
      cases h
      exact List.Subset.refl _
  | _ :: _, _, ⟨_, hw, h⟩ => List.Subset.trans h.names_subset (names_of_slot hw)

theorem nodup_of_slot (hk : k.names.Nodup) {step : Step} (h : (step, t) ∈ k.slots) :
    t.names.Nodup := by
  have hs : (slotNames k.slots).Nodup := (List.nodup_append.mp hk).2.1.sublist k.slots_names
  exact (List.nodup_flatMap.mp hs).1 _ h

theorem slot_unique {u : Core} (hk : k.names.Nodup) {a b : Step} (ha : (a, t) ∈ k.slots)
    (hb : (b, u) ∈ k.slots) {n : String} (ht : n ∈ t.names) (hu : n ∈ u.names) :
    (a, t) = (b, u) := by
  have hs : (slotNames k.slots).Nodup := (List.nodup_append.mp hk).2.1.sublist k.slots_names
  have hsymm : Std.Symm (Function.onFun List.Disjoint fun s : Step × Core => s.2.names) :=
    ⟨fun _ _ h _ hn hn' => h hn' hn⟩
  by_contra hne
  exact (List.nodup_flatMap.mp hs).2.forall ha hb hne ht hu

theorem own_not_mem_slot (hk : k.names.Nodup) {step : Step} (h : (step, t) ∈ k.slots) {c : Cte}
    (hc : c ∈ k.own) : c.lowerName ∉ t.names := by
  intro hn
  have hd := (List.nodup_append.mp hk).2.2
  refine hd c.lowerName (List.mem_map_of_mem hc) c.lowerName (k.slots_names.subset ?_) rfl
  exact List.mem_flatMap.mpr ⟨(step, t), h, hn⟩

theorem own_mem_names {c : Cte} (hc : c ∈ k.own) : c.lowerName ∈ k.names :=
  List.mem_append_left _ (List.mem_map_of_mem hc)

/-- The way down to a name is unique, and so is its position there. -/
theorem reaches_unique {t t' : Core} {i j : Nat} {c c' : Cte} (hc : t.own[i]? = some c)
    (hc' : t'.own[j]? = some c') (hname : c.lowerName = c'.lowerName) :
    (path path' : List Step) → {k : Core} → k.names.Nodup → k.Reaches path t →
      k.Reaches path' t' → path = path' ∧ i = j ∧ t = t'
  | [], [], _, hk, h, h' => by
      cases h
      cases h'
      have hn := (List.nodup_append.mp hk).1
      refine ⟨rfl, ?_, rfl⟩
      have hi : (t.own.map Cte.lowerName)[i]? = some c.lowerName := by simp [hc]
      have hj : (t.own.map Cte.lowerName)[j]? = some c.lowerName := by simp [hc', hname]
      exact (List.getElem?_inj (List.getElem?_eq_some_iff.mp hi).1 hn).mp (hi.trans hj.symm)
  | [], _ :: _, k, hk, h, ⟨u, hu, h'⟩ => by
      cases h
      refine absurd ?_ (own_not_mem_slot hk hu (List.mem_of_getElem? hc))
      rw [hname]
      exact h'.names_subset (own_mem_names (List.mem_of_getElem? hc'))
  | _ :: _, [], k, hk, ⟨u, hu, h⟩, h' => by
      cases h'
      refine absurd ?_ (own_not_mem_slot hk hu (List.mem_of_getElem? hc'))
      rw [← hname]
      exact h.names_subset (own_mem_names (List.mem_of_getElem? hc))
  | a :: path, b :: path', k, hk, ⟨u, hu, h⟩, ⟨w, hw, h'⟩ => by
      have hn : c.lowerName ∈ u.names := h.names_subset (own_mem_names (List.mem_of_getElem? hc))
      have hn' : c.lowerName ∈ w.names := by
        rw [hname]
        exact h'.names_subset (own_mem_names (List.mem_of_getElem? hc'))
      obtain ⟨rfl, rfl⟩ := Prod.mk.inj (slot_unique hk hu hw hn hn')
      obtain ⟨rfl, hrest⟩ := reaches_unique hc hc' hname path path' (nodup_of_slot hk hu) h h'
      exact ⟨rfl, hrest⟩

end Core

/-! ## Declarations of one name -/

/-- A common table is declared at a place of a query. -/
def Query.Declares (q : Query) (c : PlacedCte) : Prop :=
  ∃ (i : Nat) (place : Place) (k : Core), c.place = .cte i :: place ∧
    q.core.Reaches place.reverse k ∧ k.own[i]? = some c.cte

/-- What stands at a place is reached by the steps to it, and what is visible there is declared. -/
structure Spot.Reached (q : Query) (s : Spot) : Prop where
  /-- The body is reached, with its own common tables. -/
  body : ∃ own, q.core.Reaches s.place.reverse ⟨own, s.body⟩
  env : ∀ d ∈ s.env, q.Declares d.placed

theorem Query.spot_reached {q inner : Query} {place : Place} {env : Env}
    (hi : q.core.Reaches place.reverse inner.core) (he : ∀ d ∈ env, q.Declares d.placed) :
    (inner.spot place env).Reached q where
  body := ⟨inner.ctes, hi⟩
  env := by
    intro d hd
    rcases List.mem_append.mp hd with hd | hd
    · obtain ⟨⟨c, i⟩, hc, rfl⟩ := List.mem_map.mp (List.mem_reverse.mp hd)
      exact ⟨i, place, inner.core, rfl, hi, List.mem_zipIdx_iff_getElem?.mp hc⟩
    · exact he d hd

theorem Spot.Reached.step {q : Query} {s t : Spot} (h : s.Reached q) {step : Step}
    (hs : s.step step = some t) : t.Reached q := by
  obtain ⟨⟨own, hb⟩, he⟩ := h
  cases Spot.inside_of_step hs with
  | @cte i d seen _ hd =>
    obtain ⟨j, place, k, hp, hk, hc⟩ := he d (Env.mem_of_find? hd)
    refine Query.spot_reached ?_ fun e hse => he e ((Env.sublist_of_find? hd).subset hse)
    change d.place = _ at hp
    rw [hp, List.reverse_cons]
    exact hk.concat (Core.mem_slots_cte hc)
  | inner hbody =>
    refine Query.spot_reached ?_ he
    rw [List.reverse_cons]
    refine hb.concat (List.mem_append_right _ ?_)
    simp [hbody, Core.bodySlots]
  | left hbody =>
    refine ⟨⟨[], ?_⟩, he⟩
    rw [List.reverse_cons]
    refine hb.concat (List.mem_append_right _ ?_)
    simp [hbody, Core.bodySlots]
  | right hbody =>
    refine ⟨⟨[], ?_⟩, he⟩
    rw [List.reverse_cons]
    refine hb.concat (List.mem_append_right _ ?_)
    simp [hbody, Core.bodySlots]
  | @source select i lateral q label hbody hf =>
    refine Query.spot_reached ?_ he
    rw [List.reverse_cons]
    refine hb.concat (List.mem_append_right _ ?_)
    have hm := Core.mem_slotsOf .source Core.queryOf? rfl select.factors 0 i hf
    rw [Nat.zero_add] at hm
    simp only [hbody, Core.bodySlots]
    exact List.mem_append_right _ hm
  | @scalar select i k item q hbody hi hk =>
    refine Query.spot_reached ?_ he
    rw [List.reverse_cons]
    refine hb.concat (List.mem_append_right _ ?_)
    have hm := Core.mem_itemSlots hk select.items 0 i hi
    rw [Nat.zero_add] at hm
    simp only [hbody, Core.bodySlots]
    exact List.mem_append_left _ hm

theorem Query.reached_of_at? {q : Query} : {place : Place} → {s : Spot} → q.at? place = some s →
    s.Reached q
  | [], s, h => by
      cases h
      exact Query.spot_reached rfl (by simp)
  | step :: place, s, h => by
      obtain ⟨t, ht, hs⟩ := Option.bind_eq_some_iff.mp h
      exact (Query.reached_of_at? ht).step hs

/-- With distinct names, declarations of one name are one declaration. -/
theorem Query.placed_eq_of_name {q : Query} (hq : q.cteNames.Nodup) {c c' : PlacedCte}
    (h : q.Declares c) (h' : q.Declares c') (hname : c.cte.lowerName = c'.cte.lowerName) :
    c = c' := by
  obtain ⟨i, place, k, hp, hk, hc⟩ := h
  obtain ⟨j, place', k', hp', hk', hc'⟩ := h'
  have hn : q.core.names.Nodup := by
    rw [q.cteNames_eq] at hq
    exact hq.sublist (Core.core_names q)
  obtain ⟨hpath, rfl, rfl⟩ := Core.reaches_unique hc hc' hname _ _ hn hk hk'
  obtain rfl : place = place' := List.reverse_injective hpath
  obtain ⟨cte, p⟩ := c
  obtain ⟨cte', p'⟩ := c'
  rw [PlacedCte.mk.injEq]
  exact ⟨Option.some.inj (hc.symm.trans hc'), hp.trans hp'.symm⟩

end ColumnLineage
