import ColumnLineage.Proofs.FromClause
import ColumnLineage.Proofs.Lexical

/-!
# A run of the qualifier, place by place

While a query is qualified, so are the queries and bodies inside it, each with some common tables
and scopes in view. The qualifier brings common tables into view one by one, so what it has in
view at a place is what is lexically visible there.
-/

namespace ColumnLineage

/-- The names of the common tables in view. -/
def Visible.cteNames (v : Visible) : List String :=
  v.ctes.map Prod.fst

/-- The names of declarations, in small letters. -/
def Env.names (env : Env) : List String :=
  env.map fun d => Text.toLower d.cte.name.value

mutual

/-- While `root` is qualified, a query at a place is, with some things in view, and becomes another
one. -/
inductive QueryRan (x : Qualifier) (root : Query) : Place → Visible → Query → Query → Prop
  | root {q : Query} {columns : Columns} (h : root.qualify x {} = .ok (q, columns)) :
    QueryRan x root [] {} root q
  /-- A common table is, with those before it in view, and itself if the list is recursive. -/
  | cte {place : Place} {v w : Visible} {q₀ q : Query} {i : Nat} {c₀ c : Cte} {before : List Cte}
    {columns : Columns} (hq : QueryRan x root place v q₀ q)
    (hb : Cte.qualifyList x q₀.isRecursive v (q₀.ctes.take i) = .ok (before, w))
    (hc₀ : q₀.ctes[i]? = some c₀) (hc : q.ctes[i]? = some c)
    (h : c₀.query.qualify x (c₀.seen q₀.isRecursive w) = .ok (c.query, columns)) :
    QueryRan x root (.cte i :: place) (c₀.seen q₀.isRecursive w) c₀.query c.query
  /-- A query in parentheses is, with the same in view. -/
  | inner {place : Place} {v : Visible} {q₀ q : Query} {columns : Columns}
    (hb : BodyRan x root place v (.parens q₀) (.parens q))
    (h : q₀.qualify x v = .ok (q, columns)) :
    QueryRan x root (.inner :: place) v q₀ q
  /-- A source of a select is, with the scope of the sources before it in view if it is lateral. -/
  | source {place : Place} {v : Visible} {s₀ s : Select} {i : Nat} {lateral : Bool} {q₀ q : Query}
    {label : Option TableAlias} {columns : Columns} (scope : Scope)
    (hb : BodyRan x root place v (.select s₀) (.select s))
    (hf₀ : s₀.factors[i]? = some (.derived lateral q₀ label))
    (hf : s.factors[i]? = some (.derived lateral q label))
    (h : q₀.qualify x (if lateral then v.withScope scope else v) = .ok (q, columns)) :
    QueryRan x root (.source i :: place) (if lateral then v.withScope scope else v) q₀ q
  /-- A scalar query in an item of a select is, with the scope of the select in view. -/
  | scalar {place : Place} {v : Visible} {s₀ s : Select} {i k : Nat} {item : SelectItem} {e₀ : Expr}
    {label : Option Ident} {q₀ q : Query} {columns : Columns} (scope : Scope)
    (hb : BodyRan x root place v (.select s₀) (.select s))
    (hi : s.items[i]? = some item) (hk : item.references[k]? = some (.scalar q))
    (he : .expr e₀ label ∈ s₀.items) (ha : .query q₀ ∈ e₀.atoms)
    (h : q₀.qualify x (v.withScope scope) = .ok (q, columns)) :
    QueryRan x root (.scalar i k :: place) (v.withScope scope) q₀ q

/-- While `root` is qualified, a body at a place is, likewise. -/
inductive BodyRan (x : Qualifier) (root : Query) : Place → Visible → Body → Body → Prop
  /-- The body of a query is, behind the common tables of the query. -/
  | body {place : Place} {v inner : Visible} {q₀ q : Query} {columns : Columns}
    {scope : Option Scope} (hq : QueryRan x root place v q₀ q)
    (hc : Cte.qualifyList x q₀.isRecursive v q₀.ctes = .ok (q.ctes, inner))
    (h : q₀.body.qualify x inner = .ok (q.body, columns, scope)) :
    BodyRan x root place inner q₀.body q.body
  | left {place : Place} {v : Visible} {op : SetOperator} {quantifier : SetQuantifier}
    {l₀ r₀ l r : Body} {columns : Columns × Option Scope}
    (hb : BodyRan x root place v (.setOperation op quantifier l₀ r₀)
      (.setOperation op quantifier l r))
    (h : l₀.qualify x v = .ok (l, columns)) : BodyRan x root (.left :: place) v l₀ l
  /-- The right side of a set operation is. -/
  | right {place : Place} {v : Visible} {op : SetOperator} {quantifier : SetQuantifier}
    {l₀ r₀ l r : Body} {columns : Columns × Option Scope}
    (hb : BodyRan x root place v (.setOperation op quantifier l₀ r₀)
      (.setOperation op quantifier l r))
    (h : r₀.qualify x v = .ok (r, columns)) : BodyRan x root (.right :: place) v r₀ r

end

/-- The parts of a query in an item of a select are parts of the select. -/
theorem Select.query_parts {s : Select} {e : Expr} {label : Option Ident} {q : Query}
    (he : .expr e label ∈ s.items) (ha : .query q ∈ e.atoms) : q.parts ⊆ s.parts := by
  intro part hp
  have hm : part ∈ SelectItem.partsList s.items := by
    rw [SelectItem.partsList_eq]
    refine List.mem_flatMap.mpr ⟨_, he, ?_⟩
    rw [SelectItem.parts_eq]
    exact List.mem_flatMap.mpr ⟨_, ha, hp⟩
  exact s.parts_sublist.subset (List.mem_append_left _ hm)

variable {place : Place}

section runs

variable {x : Qualifier} {root : Query}

theorem QueryRan.qualify {v : Visible} {q₀ q : Query} (h : QueryRan x root place v q₀ q) :
    ∃ columns, q₀.qualify x v = .ok (q, columns) := by
  cases h with
  | root h => exact ⟨_, h⟩
  | cte _ _ _ _ h => exact ⟨_, h⟩
  | inner _ h => exact ⟨_, h⟩
  | source _ _ _ _ h => exact ⟨_, h⟩
  | scalar _ _ _ _ _ _ h => exact ⟨_, h⟩

theorem BodyRan.qualify {v : Visible} {b₀ b : Body} (h : BodyRan x root place v b₀ b) :
    ∃ columns scope, b₀.qualify x v = .ok (b, columns, scope) := by
  cases h with
  | body _ _ h => exact ⟨_, _, h⟩
  | left _ h => exact ⟨_, _, h⟩
  | right _ h => exact ⟨_, _, h⟩

mutual

theorem QueryRan.parts : {place : Place} → {v : Visible} → {q₀ q : Query} →
    QueryRan x root place v q₀ q → q₀.parts ⊆ root.parts
  | _, _, _, _, .root _ => List.Subset.refl _
  | _, _, _, _, .cte hq _ hc₀ _ _ => Cte.Within.parts ⟨_, hq.parts, List.mem_of_getElem? hc₀⟩
  | _, _, _, _, .inner hb _ => hb.parts
  | _, _, _, _, .source _ hb hf₀ _ _ => List.Subset.trans (Select.factor_parts hf₀) hb.parts
  | _, _, _, _, .scalar _ hb _ _ he ha _ => List.Subset.trans (Select.query_parts he ha) hb.parts

theorem BodyRan.parts : {place : Place} → {v : Visible} → {b₀ b : Body} →
    BodyRan x root place v b₀ b → b₀.parts ⊆ root.parts
  | _, _, _, _, .body hq _ _ => List.Subset.trans (Query.body_parts _).subset hq.parts
  | _, _, _, _, .left hb _ => fun _ hp => hb.parts (List.mem_append_left _ hp)
  | _, _, _, _, .right hb _ => fun _ hp => hb.parts (List.mem_append_right _ hp)

end

/-! ## What is in view is what is visible -/

/-- Each declaration of a list was qualified with what it sees in view. -/
inductive Env.Ran (x : Qualifier) (root : Query) : Env → Prop
  | nil : Ran x root []
  | cons {d : Declaration} {rest : Env} {v : Visible} {q₀ : Query}
    (h : QueryRan x root d.place v q₀ d.cte.query)
    (hv : v.cteNames = (Env.seenBy d rest).names) (hrest : Ran x root rest) : Ran x root (d :: rest)

theorem Env.Ran.append_right {front : Env} : {rest : Env} → Env.Ran x root (front ++ rest) →
    Env.Ran x root rest := by
  induction front with
  | nil => exact fun h => h
  | cons d front ih =>
    intro rest h
    cases h with
    | cons _ _ hrest => exact ih hrest

theorem Env.Ran.find? {env : Env} (h : Env.Ran x root env) {fits : Declaration → Bool}
    {d : Declaration} {seen : Env} (hf : env.find? fits = some (d, seen)) :
    (∃ v q₀, QueryRan x root d.place v q₀ d.cte.query ∧ v.cteNames = seen.names) ∧
      Env.Ran x root seen := by
  obtain ⟨front, rest, rfl, rfl, -, -⟩ := Env.find?_eq_some hf
  have hd := h.append_right
  cases hd with
  | cons hq hv hrest =>
    refine ⟨⟨_, _, hq, hv⟩, ?_⟩
    unfold Env.seenBy
    split
    · exact .cons hq hv hrest
    · exact hrest

/-- A spot of a qualified query was reached by the run with what is visible there in view. -/
structure Spot.Ran (x : Qualifier) (root : Query) (s : Spot) : Prop where
  /-- The body was qualified with the names of the visible declarations in view. -/
  body : ∃ v b₀, BodyRan x root s.place v b₀ s.body ∧ v.cteNames = s.env.names
  env : s.env.Ran x root

/-- The common tables of a query come into view one after another. -/
theorem QueryRan.declarations {v inner : Visible} {q₀ q : Query}
    (hq : QueryRan x root place v q₀ q) : (cs₀ pre₀ pre : List Cte) → (env : Env) →
      {cs : List Cte} → {w : Visible} → q₀.ctes = pre₀ ++ cs₀ → q.ctes = pre ++ cs →
      pre.length = pre₀.length → Cte.qualifyList x q₀.isRecursive v pre₀ = .ok (pre, w) →
      Cte.qualifyList x q₀.isRecursive w cs₀ = .ok (cs, inner) → w.cteNames = env.names →
      env.Ran x root →
      (declareFrom q₀.isRecursive place pre₀.length cs env).Ran x root ∧
        inner.cteNames = (declareFrom q₀.isRecursive place pre₀.length cs env).names
  | [], _, _, _, _, _, _, _, _, _, h, hw, henv => by
      cases h
      exact ⟨henv, hw⟩
  | c₀ :: cs₀, pre₀, pre, env, _, w, hc₀, hc, hlen, hpre, h, hw, henv => by
      obtain ⟨c, cs, columns, rfl, h₁, hs⟩ := Cte.qualifyList_cons h
      obtain ⟨columns', hquery, hname⟩ := Cte.qualify_eq_ok h₁
      let d : Declaration := ⟨c, .cte pre₀.length :: place, q₀.isRecursive⟩
      have hran : QueryRan x root d.place (c₀.seen q₀.isRecursive w) c₀.query d.cte.query := by
        refine .cte hq (by rw [hc₀, List.take_left']; exacts [hpre, rfl]) ?_ ?_ hquery
        · simp [hc₀]
        · rw [hc, ← hlen]
          simp [d]
      have hseen : (c₀.seen q₀.isRecursive w).cteNames = (Env.seenBy d env).names := by
        obtain ⟨label, materialized, query, source⟩ := c₀
        have hn : c.name.value = label.name.value := congrArg Ident.value hname
        cases hr : q₀.isRecursive with
        | true =>
          simp only [Cte.seen, Env.seenBy, d, hr, if_true, Visible.withCte, Visible.cteNames,
            Env.names, List.map_cons, hn]
          exact congrArg _ hw
        | false =>
          simp only [Cte.seen, Env.seenBy, d, hr, Bool.false_eq_true, if_false]
          exact hw
      have hnext := hq.declarations cs₀ (pre₀ ++ [c₀]) (pre ++ [c]) (d :: env)
        (by rw [hc₀, List.append_assoc]; rfl) (by rw [hc, List.append_assoc]; rfl) (by simp [hlen])
        (Cte.qualifyList_concat hpre h₁) hs
        (congrArg (Text.toLower c.name.value :: ·) hw) (.cons hran hseen henv)
      rwa [List.length_append, List.length_singleton] at hnext

/-- The body of a query was reached by the run, if the query was. -/
theorem QueryRan.spot {v : Visible} {q₀ q : Query} {env : Env} (hq : QueryRan x root place v q₀ q)
    (hv : v.cteNames = env.names) (henv : env.Ran x root) : (q.spot place env).Ran x root := by
  obtain ⟨columns, hqualify⟩ := hq.qualify
  obtain ⟨inner, scope, hc, hb, -, hsame⟩ := Query.qualify_eq_ok hqualify
  have hrec : q.isRecursive = q₀.isRecursive := (congrArg Query.isRecursive hsame).trans rfl
  obtain ⟨hran, hnames⟩ := hq.declarations q₀.ctes [] [] env rfl rfl rfl rfl hc hv henv
  have hdeclared : q.declared place env = declareFrom q₀.isRecursive place 0 q.ctes env := by
    rw [q.declared_eq, hrec]
  refine ⟨⟨inner, q₀.body, .body hq hc hb, ?_⟩, ?_⟩
  · rw [hnames, Query.spot, hdeclared]
    rfl
  · rw [Query.spot, hdeclared]
    exact hran

theorem Spot.Ran.step {s t : Spot} (h : s.Ran x root) {step : Step} (hs : s.step step = some t) :
    t.Ran x root := by
  obtain ⟨⟨v, b₀, hb, hv⟩, henv⟩ := h
  obtain ⟨columns, scope, hqualify⟩ := hb.qualify
  cases Spot.inside_of_step hs with
  | cte _ hd =>
    obtain ⟨⟨w, q₀, hq, hw⟩, hseen⟩ := henv.find? hd
    exact hq.spot hw hseen
  | inner hbody =>
    rw [hbody] at hb hqualify
    obtain ⟨q₀, rfl, hq⟩ := Body.parens_of_qualify hqualify
    exact (QueryRan.inner hb hq).spot hv henv
  | left hbody =>
    rw [hbody] at hb hqualify
    obtain ⟨l₀, r₀, left, right, rfl, hl, -⟩ := Body.setOperation_of_qualify hqualify
    exact ⟨⟨v, l₀, .left hb hl, hv⟩, henv⟩
  | right hbody =>
    rw [hbody] at hb hqualify
    obtain ⟨l₀, r₀, left, right, rfl, -, hr⟩ := Body.setOperation_of_qualify hqualify
    exact ⟨⟨v, r₀, .right hb hr, hv⟩, henv⟩
  | source hbody hf =>
    rw [hbody] at hb hqualify
    obtain ⟨s₀, own, rfl, hsel⟩ := Body.select_of_qualify hqualify
    obtain ⟨registered, outputs, hsel⟩ := Select.qualify_eq_ok hsel
    obtain ⟨f₀, hf₀, start, next, hreg⟩ := forall₂_exists_left hsel.factors hf
    cases hreg with
    | derived _ hq =>
      refine (QueryRan.source start hb hf₀ hf hq).spot ?_ henv
      split <;> exact hv
    | other _ hd _ _ => exact absurd rfl (hd _ _ _)
  | scalar hbody hi hk =>
    rw [hbody] at hb hqualify
    obtain ⟨s₀, own, rfl, hsel⟩ := Body.select_of_qualify hqualify
    obtain ⟨registered, outputs, hsel⟩ := Select.qualify_eq_ok hsel
    obtain ⟨e₀, label, q₀, columns', he, ha, hq⟩ := hsel.query_of_item (List.mem_of_getElem? hi)
      ((SelectItem.readFrom _).query_mem (List.mem_of_getElem? hk))
    exact (QueryRan.scalar own hb hi hk he ha hq).spot hv henv

/-- Every place of a qualified query is reached by the run, with what is lexically visible there in
view. -/
theorem Query.ran_of_at? {q : Query} (h : x.qualify root = .ok q) : {place : Place} → {s : Spot} →
    q.at? place = some s → s.Ran x root
  | [], s, hs => by
      obtain ⟨⟨q', columns⟩, hq, he⟩ := bind_eq_ok.mp h
      obtain rfl := pure_eq_ok.mp he
      cases hs
      exact (QueryRan.root hq).spot rfl .nil
  | step :: place, s, hs => by
      obtain ⟨t, ht, hs⟩ := Option.bind_eq_some_iff.mp hs
      exact (Query.ran_of_at? h ht).step hs

end runs

end ColumnLineage
