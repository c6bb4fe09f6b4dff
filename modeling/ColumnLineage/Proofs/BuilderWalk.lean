import ColumnLineage.Proofs.Lexical
import ColumnLineage.Proofs.Maps
import ColumnLineage.Proofs.Steps
import Mathlib.Logic.Relation

/-!
# The bodies that a builder visits

While a column of a body is looked for, columns of other bodies are: those of the sides of a set
operation, of the queries that are sources of a select, and of the scalar queries that its items
read. The builder hands the common tables that it has met from body to body, so a body is visited
with the list of its visitor. That list may hold more than what is lexically visible, but never
less.
-/

namespace ColumnLineage

/-! ## Sources of a select -/

variable {place : Place} {ctes : List PlacedCte}

theorem mem_sourceMap {s : Select} {key label : String} {source : SelectSource}
    (h : (key, label, source) ∈ (sourceMap place ctes s).entries) :
    ∃ i factor, s.factors[i]? = some factor ∧
      sourceOf? place ctes i factor = some (label, source) ∧ key = Text.toLower label := by
  have hm := OrderedMap.mem_of_mem_ofList h
  obtain ⟨⟨factor, i⟩, hf, he⟩ := List.mem_filterMap.mp hm
  obtain ⟨⟨label', source'⟩, hs, he⟩ := Option.map_eq_some_iff.mp he
  cases he
  exact ⟨i, factor, List.mem_zipIdx_iff_getElem?.mp hf, hs, rfl⟩

theorem cte_mem_of_placedCtes {ctes : List Cte} {c : PlacedCte} (h : c ∈ placedCtes place ctes) :
    c.cte ∈ ctes := by
  obtain ⟨⟨cte, i⟩, hi, rfl⟩ := List.mem_map.mp (List.mem_reverse.mp h)
  exact List.mem_of_getElem? (List.mem_zipIdx_iff_getElem?.mp hi)

theorem mem_of_soleOwner? {catalog : Catalog} {sources : SourceMap} {column : String}
    {owner : String × SelectSource} (h : soleOwner? catalog sources column = some owner) :
    owner ∈ sources.values := by
  unfold soleOwner? at h
  split at h
  · rename_i only heq
    cases h
    simp [heq]
  · split at h
    · rename_i only heq
      cases h
      have hm : owner ∈ sources.values.filter fun x => ownsColumn catalog column x.2 := by
        rw [heq]
        exact List.mem_singleton_self _
      exact List.mem_of_mem_filter hm
    · cases h

/-! ## Visits -/

def PlacedBody.opened (b : PlacedBody) : PlacedBody :=
  b.body.opened b.place b.ctes

/-- While columns of one body are looked for, columns of another are. -/
inductive PlacedBody.Enters (b : PlacedBody) : PlacedBody → Prop
  | left {op : SetOperator} {quantifier : SetQuantifier} {left right : Body}
    (h : b.opened.body = .setOperation op quantifier left right) :
    Enters b ⟨left, .left :: b.opened.place, b.opened.ctes⟩
  | right {op : SetOperator} {quantifier : SetQuantifier} {left right : Body}
    (h : b.opened.body = .setOperation op quantifier left right) :
    Enters b ⟨right, .right :: b.opened.place, b.opened.ctes⟩
  | source {s : Select} {key label : String} {body : PlacedBody} {declared : List String}
    (h : b.opened.body = .select s)
    (hs : (key, label, .query body declared) ∈
      (sourceMap b.opened.place b.opened.ctes s).entries) :
    Enters b body
  /-- A scalar query that an item of a select reads. -/
  | scalar {s : Select} {i k : Nat} {item : SelectItem} {q : Query}
    (h : b.opened.body = .select s) (hi : s.items[i]? = some item)
    (hk : item.references[k]? = some (.scalar q)) :
    Enters b (q.placed (.scalar i k :: b.opened.place) b.opened.ctes)

/-- The bodies that are visited while columns of a query are looked for. -/
def Query.Visits (q : Query) (b : PlacedBody) : Prop :=
  Relation.ReflTransGen PlacedBody.Enters (q.placed [] []) b

/-! ## What is visible is handed on -/

/-- Each common table of a list is declared in the query, and what it sees is in the list. -/
structure Stacked (q : Query) (ctes : List PlacedCte) : Prop where
  /-- The queries of the common tables stand at their places, and what they see is in the list. -/
  seen : ∀ c ∈ ctes, ∃ seen : Env,
    q.at? c.place = some (c.cte.query.spot c.place seen) ∧ seen.placed.Sublist ctes
  /-- The common tables are visible at some place. -/
  declared : ∀ c ∈ ctes, ∃ place s, q.at? place = some s ∧ c ∈ s.env.placed

variable {inner : Query}

theorem Stacked.declare {q : Query} {env : Env} (h : Stacked q ctes)
    (hat : q.at? place = some (inner.spot place env)) (hs : env.placed.Sublist ctes) :
    Stacked q (placedCtes place inner.ctes ++ ctes) := by
  refine ⟨fun c hc => ?_, fun c hc => ?_⟩ <;> rcases List.mem_append.mp hc with hc | hc
  · obtain ⟨⟨cte, i⟩, hi, rfl⟩ := List.mem_map.mp (List.mem_reverse.mp hc)
    obtain ⟨seen, hf⟩ :=
      Query.find?_declared (List.mem_zipIdx_iff_getElem?.mp hi) place env
    refine ⟨seen, ?_, ?_⟩
    · rw [Query.at?, hat]
      simp only [Option.bind_some, Spot.step, Query.spot, hf, Option.map_some]
    · have hseen : seen.placed.Sublist (inner.declared place env).placed :=
        (Env.sublist_of_find? hf).map _
      rw [Query.placed_declared] at hseen
      exact hseen.trans (hs.append_left _)
  · obtain ⟨seen, hat', hs'⟩ := h.seen c hc
    exact ⟨seen, hat', hs'.trans (List.sublist_append_right _ _)⟩
  · refine ⟨place, _, hat, ?_⟩
    change c ∈ (inner.declared place env).placed
    rw [Query.placed_declared]
    exact List.mem_append_left _ hc
  · exact h.declared c hc

/-- A body that is visited stands at a place of the query, and the common tables handed to it hold
all that are visible there. -/
structure Follows (q : Query) (b : PlacedBody) (s : Spot) : Prop where
  at_place : q.at? b.place = some s
  body_eq : s.body = b.body
  visible : s.env.placed.Sublist b.ctes
  stacked : Stacked q b.ctes

namespace Follows

variable {q : Query} {b : PlacedBody} {s : Spot}

theorem place_eq (h : Follows q b s) : s.place = b.place :=
  Query.place_of_at? h.at_place

theorem at_spot (h : Follows q b s) : q.at? s.place = some s := by
  rw [h.place_eq]
  exact h.at_place

/-- A query at a place is visited with its own common tables in front. -/
theorem placed {env : Env} (hat : q.at? place = some (inner.spot place env))
    (hs : env.placed.Sublist ctes) (hK : Stacked q ctes) :
    Follows q (inner.placed place ctes) (inner.spot place env) where
  at_place := hat
  body_eq := rfl
  visible := by
    change (inner.declared place env).placed.Sublist _
    rw [Query.placed_declared]
    exact hs.append_left _
  stacked := hK.declare hat hs

theorem root (q : Query) : Follows q (q.placed [] []) (q.spot [] []) :=
  placed rfl (List.Sublist.refl _) ⟨by simp, by simp⟩

theorem openedBody {q : Query} : (b : Body) → {place : Place} → {env : Env} →
    {ctes : List PlacedCte} → q.at? place = some ⟨place, b, env⟩ → env.placed.Sublist ctes →
      Stacked q ctes → Follows q (b.opened place ctes) (b.openedSpot place env)
  | .parens { isRecursive, ctes := own, body, orderBy, limit, offset, offsetWord, fetch, locks },
      place, env, ctes, hat, hs, hK => by
      have hi : q.at? (.inner :: place) = some (Query.spot
          { isRecursive, ctes := own, body, orderBy, limit, offset, offsetWord, fetch, locks }
          (.inner :: place) env) := by
        rw [Query.at?, hat]
        rfl
      have hf := Follows.placed hi hs hK
      exact openedBody body hi hf.visible hf.stacked
  | .select _, _, _, _, hat, hs, hK => ⟨hat, rfl, hs, hK⟩
  | .setOperation _ _ _ _, _, _, _, hat, hs, hK => ⟨hat, rfl, hs, hK⟩
  | .values _ _, _, _, _, hat, hs, hK => ⟨hat, rfl, hs, hK⟩
  | .defaultValues, _, _, _, hat, hs, hK => ⟨hat, rfl, hs, hK⟩
  | .table _, _, _, _, hat, hs, hK => ⟨hat, rfl, hs, hK⟩
  | .insert _, _, _, _, hat, hs, hK => ⟨hat, rfl, hs, hK⟩
  | .update _, _, _, _, hat, hs, hK => ⟨hat, rfl, hs, hK⟩

theorem opened (h : Follows q b s) : Follows q b.opened s.opened := by
  obtain ⟨place, body, env⟩ := s
  obtain rfl : place = b.place := h.place_eq
  obtain rfl : body = b.body := h.body_eq
  exact openedBody b.body h.at_place h.visible h.stacked

theorem left (h : Follows q b s) {op : SetOperator} {quantifier : SetQuantifier} {l r : Body}
    (hb : b.body = .setOperation op quantifier l r) :
    Follows q ⟨l, .left :: b.place, b.ctes⟩ ⟨.left :: s.place, l, s.env⟩ where
  at_place := by
    rw [Query.at?, h.at_place]
    simp [Spot.step, h.body_eq, hb]
  body_eq := rfl
  visible := h.visible
  stacked := h.stacked

theorem right (h : Follows q b s) {op : SetOperator} {quantifier : SetQuantifier} {l r : Body}
    (hb : b.body = .setOperation op quantifier l r) :
    Follows q ⟨r, .right :: b.place, b.ctes⟩ ⟨.right :: s.place, r, s.env⟩ where
  at_place := by
    rw [Query.at?, h.at_place]
    simp [Spot.step, h.body_eq, hb]
  body_eq := rfl
  visible := h.visible
  stacked := h.stacked

theorem derived (h : Follows q b s) {select : Select} {i : Nat} {lateral : Bool}
    {label : Option TableAlias} (hb : b.body = .select select)
    (hf : select.factors[i]? = some (.derived lateral inner label)) :
    Follows q (inner.placed (.source i :: b.place) b.ctes)
      (inner.spot (.source i :: s.place) s.env) := by
  rw [h.place_eq]
  refine placed ?_ h.visible h.stacked
  rw [Query.at?, h.at_place]
  simp [Spot.step, h.body_eq, hb, hf, h.place_eq]

theorem scalar (h : Follows q b s) {select : Select} {i k : Nat} {item : SelectItem}
    (hb : b.body = .select select) (hi : select.items[i]? = some item)
    (hk : item.references[k]? = some (.scalar inner)) :
    Follows q (inner.placed (.scalar i k :: b.place) b.ctes)
      (inner.spot (.scalar i k :: s.place) s.env) := by
  rw [h.place_eq]
  refine placed ?_ h.visible h.stacked
  rw [Query.at?, h.at_place]
  simp [Spot.step, h.body_eq, hb, hi, hk, h.place_eq]

theorem cte (h : Follows q b s) {c : PlacedCte} (hc : c ∈ b.ctes) :
    ∃ seen, Follows q (c.cte.query.placed c.place b.ctes) (c.cte.query.spot c.place seen) := by
  obtain ⟨seen, hat, hs⟩ := h.stacked.seen c hc
  exact ⟨seen, placed hat hs h.stacked⟩

/-- What is entered from a body that stands at a place stands at a place. -/
theorem enters (h : Follows q b s) {b' : PlacedBody} (he : b.Enters b') : ∃ s', Follows q b' s' := by
  cases he with
  | left hb => exact ⟨_, h.opened.left hb⟩
  | right hb => exact ⟨_, h.opened.right hb⟩
  | scalar hb hi hk => exact ⟨_, h.opened.scalar hb hi hk⟩
  | source hb hm =>
    obtain ⟨i, factor, hf, hs, -⟩ := mem_sourceMap hm
    cases factor with
    | table name numbered label hints =>
      simp only [sourceOf?] at hs
      split at hs
      · rename_i c hv
        cases hs
        unfold visibleCte? at hv
        split at hv
        · obtain ⟨seen, hc⟩ := h.opened.cte (List.mem_of_find?_eq_some hv)
          exact ⟨_, hc⟩
        · cases hv
      · cases hs
    | derived lateral inner label =>
      obtain ⟨a, -, ha⟩ := Option.map_eq_some_iff.mp hs
      cases ha
      exact ⟨_, h.opened.derived hb hf⟩
    | _ => simp [sourceOf?] at hs

end Follows

/-- Every body that is visited stands at a place of the query, where all that is lexically visible
is at hand. -/
theorem Query.Visits.follows {q : Query} {b : PlacedBody} (h : q.Visits b) :
    ∃ s, Follows q b s := by
  induction h with
  | refl => exact ⟨_, Follows.root q⟩
  | tail _ he ih =>
    obtain ⟨s, hs⟩ := ih
    exact hs.enters he

end ColumnLineage
