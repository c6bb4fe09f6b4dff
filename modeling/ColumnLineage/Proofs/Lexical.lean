import ColumnLineage.Proofs.Parts

/-!
# Lexical visibility

Which common tables a place in a query sees is a matter of where it stands. A common table sees
those declared before it in its own list, itself if the list is recursive, and what the query
that declares it sees from outside. The declarations that a place sees form a list with the
innermost first, in which each entry sees only entries behind it.
-/

namespace ColumnLineage

/-! ## Declarations -/

/-- A common table that is declared at a place, and whether it sees itself. -/
structure Declaration where
  cte : Cte
  place : Place
  isRecursive : Bool

/-- The common table with the place of its query. -/
def Declaration.placed (d : Declaration) : PlacedCte :=
  ⟨d.cte, d.place⟩

/-- The declarations visible at a place, the innermost first. -/
abbrev Env := List Declaration

variable {fits : Declaration → Bool} {env : Env} {d : Declaration}

namespace Env

/-- The common tables of the declarations with their places. -/
def placed (env : Env) : List PlacedCte :=
  env.map Declaration.placed

/-- What a declaration sees, given what stands behind it. -/
def seenBy (d : Declaration) (rest : Env) : Env :=
  if d.isRecursive then d :: rest else rest

/-- The first declaration that fits, with what it sees. -/
def find? (fits : Declaration → Bool) : Env → Option (Declaration × Env)
  | [] => none
  | d :: rest => if fits d then some (d, seenBy d rest) else find? fits rest

/-- The innermost declaration of a name. -/
def named? (env : Env) (name : String) : Option (Declaration × Env) :=
  env.find? fun d => Text.equalIgnoringCase d.cte.name.value name

/-- What a declaration sees is part of the list that starts with it. -/
theorem seenBy_sublist (d : Declaration) (rest : Env) : (seenBy d rest).Sublist (d :: rest) := by
  unfold seenBy
  split
  · exact List.Sublist.refl _
  · exact List.sublist_cons_self d rest

theorem find?_eq_some {fits : Declaration → Bool} :
    {env : Env} → {d : Declaration} → {seen : Env} → env.find? fits = some (d, seen) →
      ∃ front rest, env = front ++ d :: rest ∧ seen = seenBy d rest ∧ fits d ∧
        ∀ e ∈ front, ¬ fits e
  | [], _, _, h => by simp [find?] at h
  | e :: env, d, seen, h => by
      by_cases he : fits e
      · simp only [find?, he, if_true, Option.some.injEq, Prod.mk.injEq] at h
        obtain ⟨rfl, rfl⟩ := h
        exact ⟨[], env, rfl, rfl, he, by simp⟩
      · simp only [find?, he, Bool.false_eq_true, if_false] at h
        obtain ⟨front, rest, rfl, rfl, hd, hf⟩ := find?_eq_some h
        refine ⟨e :: front, rest, rfl, rfl, hd, ?_⟩
        rintro e' (_ | ⟨_, he'⟩)
        · exact he
        · exact hf e' he'

theorem find?_eq_none : env.find? fits = none ↔ ∀ d ∈ env, ¬ fits d := by
  induction env with
  | nil => simp [find?]
  | cons d rest ih =>
    by_cases hd : fits d
    · simp [find?, hd]
    · simp [find?, hd, ih]

theorem mem_of_find? {seen : Env} (h : env.find? fits = some (d, seen)) : d ∈ env := by
  obtain ⟨front, rest, rfl, -, -, -⟩ := find?_eq_some h
  simp

theorem fits_of_find? {seen : Env} (h : env.find? fits = some (d, seen)) : fits d := by
  obtain ⟨front, rest, -, -, hd, -⟩ := find?_eq_some h
  exact hd

theorem sublist_of_find? {seen : Env} (h : env.find? fits = some (d, seen)) : seen.Sublist env := by
  obtain ⟨front, rest, rfl, rfl, -, -⟩ := find?_eq_some h
  exact (seenBy_sublist d rest).trans (List.sublist_append_right _ _)

end Env

/-- The declarations that the common tables of a query at a place add to those outside. -/
def Query.declared (q : Query) (place : Place) (env : Env) : Env :=
  (q.ctes.zipIdx.map fun (c, i) => ⟨c, .cte i :: place, q.isRecursive⟩).reverse ++ env

/-- Declares common tables one after another, the first at the given position. -/
def declareFrom (isRecursive : Bool) (place : Place) : Nat → List Cte → Env → Env
  | _, [], env => env
  | k, c :: cs, env =>
    declareFrom isRecursive place (k + 1) cs (⟨c, .cte k :: place, isRecursive⟩ :: env)

theorem declareFrom_eq (isRecursive : Bool) (place : Place) (k : Nat) (cs : List Cte) (env : Env) :
    declareFrom isRecursive place k cs env =
      ((cs.zipIdx k).map fun (c, i) => ⟨c, .cte i :: place, isRecursive⟩).reverse ++ env := by
  induction cs generalizing k env with
  | nil => rfl
  | cons c cs ih => simp [declareFrom, ih]

/-- The declarations of a query come into view one after another. -/
theorem Query.declared_eq (q : Query) (place : Place) (env : Env) :
    q.declared place env = declareFrom q.isRecursive place 0 q.ctes env := by
  rw [declareFrom_eq]
  rfl

theorem Query.placed_declared (q : Query) (place : Place) (env : Env) :
    (q.declared place env).placed = placedCtes place q.ctes ++ env.placed := by
  simp [Query.declared, Env.placed, placedCtes, Declaration.placed, Function.comp_def]

theorem declareFrom_eq_append (isRecursive : Bool) (place : Place) : (cs : List Cte) → (k : Nat) →
    (env : Env) → ∃ front : Env, declareFrom isRecursive place k cs env = front ++ env ∧
      ∀ d ∈ front, ∃ i, k ≤ i ∧ d.place = .cte i :: place
  | [], _, _ => ⟨[], rfl, by simp⟩
  | c :: cs, k, env => by
      obtain ⟨front, he, hf⟩ := declareFrom_eq_append isRecursive place cs (k + 1)
        (⟨c, .cte k :: place, isRecursive⟩ :: env)
      refine ⟨front ++ [⟨c, .cte k :: place, isRecursive⟩], ?_, ?_⟩
      · rw [declareFrom, he, List.append_assoc]
        rfl
      · intro d hd
        rcases List.mem_append.mp hd with hd | hd
        · obtain ⟨i, hi, hp⟩ := hf d hd
          exact ⟨i, by omega, hp⟩
        · obtain rfl := List.mem_singleton.mp hd
          exact ⟨k, Nat.le_refl k, rfl⟩

theorem Env.find?_append {front rest : Env} (h : ∀ d ∈ front, ¬ fits d) :
    (front ++ rest).find? fits = rest.find? fits := by
  induction front with
  | nil => rfl
  | cons d front ih =>
    have hd : fits d = false := by simpa using h d List.mem_cons_self
    simp only [List.cons_append, Env.find?, hd, Bool.false_eq_true, if_false]
    exact ih fun e he => h e (List.mem_cons_of_mem _ he)

/-- What is declared first, and whatever comes behind it, is found by its place. -/
theorem find?_declareFrom (isRecursive : Bool) (place : Place) (k : Nat) (c : Cte) (cs : List Cte)
    (env : Env) : (declareFrom isRecursive place k (c :: cs) env).find? (·.place = .cte k :: place) =
      some (⟨c, .cte k :: place, isRecursive⟩, Env.seenBy ⟨c, .cte k :: place, isRecursive⟩ env) := by
  obtain ⟨front, he, hf⟩ := declareFrom_eq_append isRecursive place cs (k + 1)
    (⟨c, .cte k :: place, isRecursive⟩ :: env)
  rw [declareFrom, he, Env.find?_append]
  · simp [Env.find?]
  · intro d hd
    obtain ⟨i, hi, hp⟩ := hf d hd
    have hik : i ≠ k := by omega
    simp [hp, hik]

theorem exists_find?_declareFrom (isRecursive : Bool) (place : Place) {c : Cte} :
    (cs : List Cte) → (i : Nat) → (k : Nat) → (env : Env) → cs[i]? = some c →
      ∃ seen, (declareFrom isRecursive place k cs env).find? (·.place = .cte (k + i) :: place) =
        some (⟨c, .cte (k + i) :: place, isRecursive⟩, seen)
  | c' :: cs, 0, k, env, h => by
      obtain rfl : c' = c := Option.some.inj h
      exact ⟨_, find?_declareFrom isRecursive place k c' cs env⟩
  | c' :: cs, i + 1, k, env, h => by
      have hnext := exists_find?_declareFrom isRecursive place cs i (k + 1)
        (⟨c', .cte k :: place, isRecursive⟩ :: env) h
      rwa [Nat.add_right_comm] at hnext

variable {q : Query}

/-- The common table at a position of a query is found by its place. -/
theorem Query.find?_declared {i : Nat} {c : Cte} (hc : q.ctes[i]? = some c) (place : Place)
    (env : Env) :
    ∃ seen, (q.declared place env).find? (·.place = .cte i :: place) =
      some (⟨c, .cte i :: place, q.isRecursive⟩, seen) := by
  have hfind := exists_find?_declareFrom q.isRecursive place q.ctes i 0 env hc
  rw [Nat.zero_add] at hfind
  rw [q.declared_eq]
  exact hfind

/-! ## Places -/

/-- A body at a place, with the declarations visible there. -/
structure Spot where
  place : Place
  body : Body
  env : Env

/-- The body of a query at a place, given the declarations visible around the query. -/
def Query.spot (q : Query) (place : Place) (env : Env) : Spot :=
  ⟨place, q.body, q.declared place env⟩

def Body.openedSpot (place : Place) (env : Env) : Body → Spot
  | .parens { isRecursive, ctes, body, orderBy, limit, offset, offsetWord, fetch, locks } =>
    body.openedSpot (.inner :: place)
      (({ isRecursive, ctes, body, orderBy, limit, offset, offsetWord, fetch, locks } :
        Query).declared (.inner :: place) env)
  | b => ⟨place, b, env⟩
termination_by structural b => b

namespace Spot

def opened (s : Spot) : Spot :=
  s.body.openedSpot s.place s.env

/-- What stands one step inside a body. -/
def step (s : Spot) : Step → Option Spot
  | .cte i =>
    (s.env.find? (·.place = .cte i :: s.place)).map fun (d, seen) => d.cte.query.spot d.place seen
  | .inner =>
    match s.body with
    | .parens q => some (q.spot (.inner :: s.place) s.env)
    | _ => none
  | .left =>
    match s.body with
    | .setOperation _ _ left _ => some ⟨.left :: s.place, left, s.env⟩
    | _ => none
  | .right =>
    match s.body with
    | .setOperation _ _ _ right => some ⟨.right :: s.place, right, s.env⟩
    | _ => none
  | .source i =>
    match s.body with
    | .select select =>
      match select.factors[i]? with
      | some (.derived _ q _) => some (q.spot (.source i :: s.place) s.env)
      | _ => none
    | _ => none
  | .scalar i k =>
    match s.body with
    | .select select =>
      match (select.items[i]?).bind fun item => item.references[k]? with
      | some (.scalar q) => some (q.spot (.scalar i k :: s.place) s.env)
      | _ => none
    | _ => none

end Spot

/-- What stands at a place of a query. -/
def Query.at? (q : Query) : Place → Option Spot
  | [] => some (q.spot [] [])
  | step :: place => (q.at? place).bind (·.step step)

/-- The ways in which one spot stands one step inside another. -/
inductive Spot.Inside (s : Spot) : Step → Spot → Prop
  | cte {i : Nat} {d : Declaration} {seen : Env} (hp : d.place = .cte i :: s.place)
    (hd : s.env.find? (·.place = .cte i :: s.place) = some (d, seen)) :
    Inside s (.cte i) (d.cte.query.spot d.place seen)
  | inner {q : Query} (hb : s.body = .parens q) :
    Inside s .inner (q.spot (.inner :: s.place) s.env)
  | left {op : SetOperator} {quantifier : SetQuantifier} {l r : Body}
    (hb : s.body = .setOperation op quantifier l r) :
    Inside s .left ⟨.left :: s.place, l, s.env⟩
  | right {op : SetOperator} {quantifier : SetQuantifier} {l r : Body}
    (hb : s.body = .setOperation op quantifier l r) :
    Inside s .right ⟨.right :: s.place, r, s.env⟩
  /-- A query that is a source of a select. -/
  | source {select : Select} {i : Nat} {lateral : Bool} {q : Query} {label : Option TableAlias}
    (hb : s.body = .select select)
    (hf : select.factors[i]? = some (.derived lateral q label)) :
    Inside s (.source i) (q.spot (.source i :: s.place) s.env)
  /-- A scalar query that an item of a select reads. -/
  | scalar {select : Select} {i k : Nat} {item : SelectItem} {q : Query}
    (hb : s.body = .select select) (hi : select.items[i]? = some item)
    (hk : item.references[k]? = some (.scalar q)) :
    Inside s (.scalar i k) (q.spot (.scalar i k :: s.place) s.env)

theorem Spot.inside_of_step {s t : Spot} {step : Step} (h : s.step step = some t) :
    s.Inside step t := by
  cases step with
  | cte i =>
    simp only [Spot.step, Option.map_eq_some_iff] at h
    obtain ⟨⟨d, seen⟩, hd, rfl⟩ := h
    exact .cte (by simpa using Env.fits_of_find? hd) hd
  | inner =>
    simp only [Spot.step] at h
    split at h <;> cases h
    exact .inner ‹_›
  | left =>
    simp only [Spot.step] at h
    split at h <;> cases h
    exact .left ‹_›
  | right =>
    simp only [Spot.step] at h
    split at h <;> cases h
    exact .right ‹_›
  | source i =>
    simp only [Spot.step] at h
    split at h
    · rename_i select hb
      split at h <;> cases h
      exact .source hb ‹_›
    · cases h
  | scalar i k =>
    simp only [Spot.step] at h
    split at h
    · rename_i select hb
      split at h <;> cases h
      rename_i q hr
      obtain ⟨item, hi, hk⟩ := Option.bind_eq_some_iff.mp hr
      exact .scalar hb hi hk
    · cases h

theorem Spot.place_of_step {s t : Spot} {step : Step} (h : s.step step = some t) :
    t.place = step :: s.place := by
  cases Spot.inside_of_step h with
  | cte hp _ => exact hp
  | _ => rfl

theorem Query.place_of_at? {q : Query} {place : Place} {s : Spot} (h : q.at? place = some s) :
    s.place = place := by
  cases place with
  | nil =>
    cases h
    rfl
  | cons step place =>
    obtain ⟨t, ht, hs⟩ := Option.bind_eq_some_iff.mp h
    rw [Spot.place_of_step hs, Query.place_of_at? ht]

theorem Query.at?_openedSpot {q : Query} : (b : Body) → {place : Place} → {env : Env} →
    q.at? place = some ⟨place, b, env⟩ →
      q.at? (b.openedSpot place env).place = some (b.openedSpot place env)
  | .parens { isRecursive, ctes, body, orderBy, limit, offset, offsetWord, fetch, locks },
      place, env, h => by
      have hi : q.at? (.inner :: place) = some ⟨.inner :: place, body,
          ({ isRecursive, ctes, body, orderBy, limit, offset, offsetWord, fetch, locks } :
            Query).declared (.inner :: place) env⟩ := by
        rw [Query.at?, h]
        rfl
      exact Query.at?_openedSpot body hi
  | .select _, _, _, h => h
  | .setOperation _ _ _ _, _, _, h => h
  | .values _ _, _, _, h => h
  | .defaultValues, _, _, h => h
  | .table _, _, _, h => h
  | .insert _, _, _, h => h
  | .update _, _, _, h => h

theorem Query.at?_opened {s : Spot} (h : q.at? s.place = some s) :
    q.at? s.opened.place = some s.opened :=
  Query.at?_openedSpot s.body h

/-! ## Declarations stand at their places -/

/-- The query of each declaration stands at its place, with what the declaration sees. -/
inductive Env.Coherent (q : Query) : Env → Prop
  | nil : Coherent q []
  | cons {d : Declaration} {rest : Env}
    (h : q.at? d.place = some (d.cte.query.spot d.place (Env.seenBy d rest)))
    (hrest : Coherent q rest) : Coherent q (d :: rest)

theorem Env.Coherent.append_right {rest : Env} :
    {front : Env} → Env.Coherent q (front ++ rest) → Env.Coherent q rest
  | [], h => h
  | _ :: _, .cons _ hrest => hrest.append_right

theorem Env.Coherent.find? (h : env.Coherent q) {seen : Env}
    (hf : env.find? fits = some (d, seen)) :
    q.at? d.place = some (d.cte.query.spot d.place seen) ∧ seen.Coherent q := by
  obtain ⟨front, rest, rfl, rfl, -, -⟩ := Env.find?_eq_some hf
  cases h.append_right with
  | cons hd hrest =>
    refine ⟨hd, ?_⟩
    unfold Env.seenBy
    split
    · exact .cons hd hrest
    · exact hrest

/-- The declarations of a query stand at their places, if the query stands at its own. -/
theorem Query.declareFrom_coherent {isRecursive : Bool} {place : Place} {b : Body} {whole : Env}
    (hat : q.at? place = some ⟨place, b, whole⟩) : (cs : List Cte) → (k : Nat) →
      (env : Env) → declareFrom isRecursive place k cs env = whole → env.Coherent q →
      whole.Coherent q
  | [], _, _, hw, henv => hw ▸ henv
  | c :: cs, k, env, hw, henv => by
      refine Query.declareFrom_coherent hat cs (k + 1) _ hw (.cons ?_ henv)
      have hfind := find?_declareFrom isRecursive place k c cs env
      rw [hw] at hfind
      change q.at? (.cte k :: place) = _
      rw [Query.at?, hat]
      simp only [Option.bind_some, Spot.step, hfind, Option.map_some]

theorem Query.spot_coherent {inner : Query} {place : Place}
    (hat : q.at? place = some (inner.spot place env)) (henv : env.Coherent q) :
    (inner.spot place env).env.Coherent q :=
  Query.declareFrom_coherent hat inner.ctes 0 env (inner.declared_eq place env).symm henv

/-- At every place of a query, the visible declarations stand at their places. -/
theorem Query.coherent_of_at? {q : Query} : {place : Place} → {s : Spot} →
    q.at? place = some s → s.env.Coherent q
  | [], s, h => by
      cases h
      exact Query.spot_coherent rfl .nil
  | step :: place, s, h => by
      obtain ⟨t, ht, hs⟩ := Option.bind_eq_some_iff.mp h
      have henv := Query.coherent_of_at? ht
      have hp := Query.place_of_at? ht
      cases Spot.inside_of_step hs with
      | cte _ hd =>
        obtain ⟨hat, hseen⟩ := henv.find? hd
        exact Query.spot_coherent hat hseen
      | inner _ => exact Query.spot_coherent (hp ▸ h) henv
      | left _ => exact henv
      | right _ => exact henv
      | source _ _ => exact Query.spot_coherent (hp ▸ h) henv
      | scalar _ _ _ => exact Query.spot_coherent (hp ▸ h) henv

/-! ## Places lie inside the query -/

/-- The selects of a body outside parentheses. -/
def Body.selects : Body → List Select
  | .select s => [s]
  | .setOperation _ _ left right => left.selects ++ right.selects
  | _ => []
termination_by structural b => b

theorem Query.mem_parts_self (q : Query) : .query q ∈ q.parts := by
  rw [q.parts_eq_cons]
  exact List.mem_cons_self

/-- A common table is declared by a query inside another. -/
def Cte.Within (q : Query) (c : Cte) : Prop :=
  ∃ inner : Query, inner.parts ⊆ q.parts ∧ c ∈ inner.ctes

theorem Cte.Within.parts {c : Cte} (h : c.Within q) : c.query.parts ⊆ q.parts := by
  obtain ⟨inner, hi, hc⟩ := h
  intro part hp
  have hl : part ∈ Cte.partsList inner.ctes := by
    rw [Cte.partsList_eq]
    exact List.mem_flatMap.mpr ⟨c, hc, hp⟩
  exact hi (List.mem_of_mem_tail (inner.parts_sublist.subset (List.mem_append_left _ hl)))

/-- What stands at a spot lies inside a query. -/
structure Spot.Within (q : Query) (s : Spot) : Prop where
  /-- The parts of the body are parts of the query. -/
  parts : s.body.parts ⊆ q.parts
  /-- The selects of the body are those of a query inside. -/
  selects : ∃ inner, .query inner ∈ q.parts ∧ s.body.selects ⊆ inner.body.selects
  /-- The common tables in view are declared inside. -/
  ctes : ∀ d ∈ s.env, d.cte.Within q

theorem Query.spot_within {inner : Query} {place : Place} (hi : inner.parts ⊆ q.parts)
    (he : ∀ d ∈ env, d.cte.Within q) : (inner.spot place env).Within q where
  parts := List.Subset.trans inner.body_parts.subset hi
  selects := ⟨inner, hi inner.mem_parts_self, fun _ h => h⟩
  ctes := by
    intro d hd
    rcases List.mem_append.mp hd with hd | hd
    · obtain ⟨⟨c, i⟩, hc, rfl⟩ := List.mem_map.mp (List.mem_reverse.mp hd)
      exact ⟨inner, hi, List.mem_of_getElem? (List.mem_zipIdx_iff_getElem?.mp hc)⟩
    · exact he d hd

theorem Select.factor_parts {s : Select} {i : Nat} {factor : TableFactor}
    (h : s.factors[i]? = some factor) : factor.parts ⊆ s.parts := by
  intro part hp
  have hf : part ∈ s.factors.flatMap TableFactor.parts :=
    List.mem_flatMap.mpr ⟨factor, List.mem_of_getElem? h, hp⟩
  exact s.parts_sublist.subset (List.mem_append_right _ (s.factors_parts.subset hf))

theorem Select.scalar_parts {s : Select} {i k : Nat} {item : SelectItem}
    (hi : s.items[i]? = some item) (hk : item.references[k]? = some (.scalar q)) :
    q.parts ⊆ s.parts := by
  intro part hp
  have hr : part ∈ item.references.flatMap Reference.parts :=
    List.mem_flatMap.mpr ⟨_, List.mem_of_getElem? hk, hp⟩
  have hm : part ∈ SelectItem.partsList s.items := by
    rw [SelectItem.partsList_eq]
    exact List.mem_flatMap.mpr
      ⟨item, List.mem_of_getElem? hi, item.references_parts.subset hr⟩
  exact s.parts_sublist.subset (List.mem_append_left _ hm)

theorem Spot.Within.step {s t : Spot} (h : s.Within q) {step : Step} (hs : s.step step = some t) :
    t.Within q := by
  cases Spot.inside_of_step hs with
  | cte _ hd =>
    exact Query.spot_within (h.ctes _ (Env.mem_of_find? hd)).parts fun e he =>
      h.ctes e ((Env.sublist_of_find? hd).subset he)
  | inner hb =>
    refine Query.spot_within (fun part hp => h.parts ?_) h.ctes
    rwa [hb]
  | left hb =>
    obtain ⟨inner, hi, hsel⟩ := h.selects
    rw [hb] at hsel
    refine ⟨fun part hp => h.parts ?_, ⟨inner, hi, fun x hx => hsel ?_⟩, h.ctes⟩
    · rw [hb]
      exact List.mem_append_left _ hp
    · exact List.mem_append_left _ hx
  | right hb =>
    obtain ⟨inner, hi, hsel⟩ := h.selects
    rw [hb] at hsel
    refine ⟨fun part hp => h.parts ?_, ⟨inner, hi, fun x hx => hsel ?_⟩, h.ctes⟩
    · rw [hb]
      exact List.mem_append_right _ hp
    · exact List.mem_append_right _ hx
  | source hb hf =>
    refine Query.spot_within (fun part hp => h.parts ?_) h.ctes
    rw [hb]
    exact Select.factor_parts hf hp
  | scalar hb hi hk =>
    refine Query.spot_within (fun part hp => h.parts ?_) h.ctes
    rw [hb]
    exact Select.scalar_parts hi hk hp

theorem Query.within_of_at? {q : Query} : {place : Place} → {s : Spot} → q.at? place = some s →
    s.Within q
  | [], s, h => by
      cases h
      exact Query.spot_within (List.Subset.refl _) (by simp)
  | step :: place, s, h => by
      obtain ⟨t, ht, hs⟩ := Option.bind_eq_some_iff.mp h
      exact (Query.within_of_at? ht).step hs

end ColumnLineage
