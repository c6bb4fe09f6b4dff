import ColumnLineage.Proofs.Bindings
import Mathlib.Data.List.Find

/-!
# Common tables at hand and common tables in view

A builder reads the body of a common table with what is at hand where the table is read. The
qualifier looked at that body with what is in view where the table is declared. The two differ if
the body reads a name that it does not declare itself, and that name means something else where the
table is read.

* `Query.reads_as_qualified_iff`: when builder and qualifier agree.
-/

namespace ColumnLineage

/-! ## Declarations of a query -/

/-- The declarations of the common tables of a query, the last one first. -/
def Query.own (q : Query) (place : Place) : Env :=
  q.declared place []

theorem Query.declared_eq_own (q : Query) (place : Place) (env : Env) :
    q.declared place env = q.own place ++ env := by
  simp [Query.own, Query.declared]

theorem Query.placed_own (q : Query) (place : Place) :
    (q.own place).placed = placedCtes place q.ctes := by
  rw [Query.own, Query.placed_declared]
  exact List.append_nil _

theorem Env.placed_append (a b : Env) : Env.placed (a ++ b) = a.placed ++ b.placed :=
  List.map_append

/-- Opening parentheses adds the same declarations to what is at hand and to what is in view. -/
theorem Body.opened_own : (b : Body) → (place : Place) → ∃ own : Env, ∀ ctes env,
    (b.opened place ctes).ctes = own.placed ++ ctes ∧ (b.openedSpot place env).env = own ++ env
  | .parens { isRecursive, ctes := own, body, orderBy, limit, offset, offsetWord, fetch, locks },
      place => by
      let inner : Query :=
        { isRecursive, ctes := own, body, orderBy, limit, offset, offsetWord, fetch, locks }
      obtain ⟨more, hmore⟩ := body.opened_own (.inner :: place)
      refine ⟨more ++ inner.own (.inner :: place), fun ctes env => ⟨?_, ?_⟩⟩
      · rw [Body.opened, (hmore _ env).1, Env.placed_append, Query.placed_own, List.append_assoc]
      · change (body.openedSpot (.inner :: place) (inner.declared (.inner :: place) env)).env = _
        rw [(hmore [] _).2, Query.declared_eq_own, List.append_assoc]
  | .select _, _ => ⟨[], fun _ _ => ⟨rfl, rfl⟩⟩
  | .setOperation _ _ _ _, _ => ⟨[], fun _ _ => ⟨rfl, rfl⟩⟩
  | .values _ _, _ => ⟨[], fun _ _ => ⟨rfl, rfl⟩⟩
  | .defaultValues, _ => ⟨[], fun _ _ => ⟨rfl, rfl⟩⟩
  | .table _, _ => ⟨[], fun _ _ => ⟨rfl, rfl⟩⟩
  | .insert _, _ => ⟨[], fun _ _ => ⟨rfl, rfl⟩⟩
  | .update _, _ => ⟨[], fun _ _ => ⟨rfl, rfl⟩⟩

/-! ## Arrivals -/

/-- What is at hand where a common table is read, and what is in view where it is declared. The
whole query is read with nothing at hand and nothing in view. -/
inductive Query.Reads (q : Query) : List PlacedCte → Env → Prop
  | root : Reads q [] []
  /-- A common table is read by a table of a select that is visited. -/
  | cte {b : PlacedBody} {select : Select} {i : Nat} {name : ObjectName} {numbered : Bool}
    {label : Option TableAlias} {hints : List Expr} {c : PlacedCte} {seen : Env}
    (hv : q.Visits b) (hb : b.opened.body = .select select)
    (hf : select.factors[i]? = some (.table name numbered label hints))
    (hc : visibleCte? b.opened.ctes (.ofObjectName name) = some c)
    (hat : q.at? c.place = some (c.cte.query.spot c.place seen)) : Reads q b.opened.ctes seen

/-- A body is visited with what was declared since the common table around it was read, and then
what was at hand there. In view are the same declarations, and then what that common table sees. -/
structure Arrives (q : Query) (b : PlacedBody) (s : Spot) (own : Env) (handed : List PlacedCte)
    (seen : Env) : Prop where
  follows : Follows q b s
  env_eq : s.env = own ++ seen
  ctes_eq : b.ctes = own.placed ++ handed
  /-- Where the common table around the body was read. -/
  reads : q.Reads handed seen

namespace Arrives

variable {q : Query} {b : PlacedBody} {s : Spot} {own : Env} {handed : List PlacedCte} {seen : Env}

theorem opened (h : Arrives q b s own handed seen) :
    ∃ own, Arrives q b.opened s.opened own handed seen := by
  obtain ⟨more, hmore⟩ := b.body.opened_own b.place
  refine ⟨more ++ own, h.follows.opened, ?_, ?_, h.reads⟩
  · have henv := (hmore [] s.env).2
    rw [← h.follows.body_eq, ← h.follows.place_eq] at henv
    rw [Spot.opened, henv, h.env_eq, List.append_assoc]
  · rw [PlacedBody.opened, (hmore b.ctes []).1, h.ctes_eq, Env.placed_append, List.append_assoc]

theorem placed (h : Arrives q b s own handed seen) {inner : Query} {place : Place}
    (hf : Follows q (inner.placed place b.ctes) (inner.spot place s.env)) :
    Arrives q (inner.placed place b.ctes) (inner.spot place s.env) (inner.own place ++ own) handed
      seen where
  follows := hf
  env_eq := by
    change inner.declared place s.env = _
    rw [Query.declared_eq_own, h.env_eq, List.append_assoc]
  ctes_eq := by
    change placedCtes place inner.ctes ++ b.ctes = _
    rw [h.ctes_eq, Env.placed_append, Query.placed_own, List.append_assoc]
  reads := h.reads

theorem root (q : Query) : Arrives q (q.placed [] []) (q.spot [] []) (q.own []) [] [] where
  follows := Follows.root q
  env_eq := q.declared_eq_own [] []
  ctes_eq := by
    change placedCtes [] q.ctes ++ [] = _
    rw [Query.placed_own]
  reads := .root

theorem enters (hv : q.Visits b) (h : Arrives q b s own handed seen) {b' : PlacedBody}
    (he : b.Enters b') : ∃ s' own' handed' seen', Arrives q b' s' own' handed' seen' := by
  obtain ⟨own₁, ho⟩ := h.opened
  cases he with
  | left hb => exact ⟨_, own₁, handed, seen, ho.follows.left hb, ho.env_eq, ho.ctes_eq, ho.reads⟩
  | right hb => exact ⟨_, own₁, handed, seen, ho.follows.right hb, ho.env_eq, ho.ctes_eq, ho.reads⟩
  | scalar hb hi hk =>
    have hf := ho.follows.scalar hb hi hk
    rw [ho.follows.place_eq] at hf
    exact ⟨_, _, _, _, ho.placed hf⟩
  | source hb hm =>
    obtain ⟨i, factor, hf, hs, -⟩ := mem_sourceMap hm
    cases factor with
    | table name numbered label hints =>
      simp only [sourceOf?] at hs
      split at hs
      · rename_i c hc
        cases hs
        have hmem : c ∈ b.opened.ctes := by
          unfold visibleCte? at hc
          split at hc
          · exact List.mem_of_find?_eq_some hc
          · cases hc
        obtain ⟨seen', hfollows⟩ := ho.follows.cte hmem
        refine ⟨_, c.cte.query.own c.place, b.opened.ctes, seen', hfollows, ?_, ?_,
          .cte hv hb hf hc hfollows.at_place⟩
        · exact Query.declared_eq_own _ _ _
        · change placedCtes c.place c.cte.query.ctes ++ b.opened.ctes = _
          rw [Query.placed_own]
      · cases hs
    | derived lateral inner label =>
      obtain ⟨a, -, ha⟩ := Option.map_eq_some_iff.mp hs
      cases ha
      have hfollows := ho.follows.derived hb hf
      rw [ho.follows.place_eq] at hfollows
      exact ⟨_, _, _, _, ho.placed hfollows⟩
    | _ => simp [sourceOf?] at hs

end Arrives

theorem Query.Visits.arrives {q : Query} {b : PlacedBody} (h : q.Visits b) :
    ∃ s own handed seen, Arrives q b s own handed seen := by
  induction h with
  | refl => exact ⟨_, _, _, _, Arrives.root q⟩
  | tail hv he ih =>
    obtain ⟨s, own, handed, seen, h⟩ := ih
    exact h.enters hv he

/-! ## What a bare name means to the qualifier -/

/-- The innermost declaration in view that a name is taken for; its own name counts in small
letters. -/
def Env.taken? (env : Env) (name : String) : Option Declaration :=
  List.find? (fun d => Text.equalIgnoringCase (Text.toLower d.cte.name.value) name) env

/-- Lists that have the same texts one by one have the first text that fits at the same
position. -/
theorem find?_of_map_eq {α β : Type} (f : α → String) (g : β → String) (fits : String → Bool) :
    {as : List α} → {bs : List β} → as.map f = bs.map g →
      (as.find? (fun a => fits (f a)) = none ∧ bs.find? (fun b => fits (g b)) = none) ∨
        ∃ (k : Nat) (a : α) (b : β), as[k]? = some a ∧ bs[k]? = some b ∧ f a = g b ∧
          as.find? (fun a => fits (f a)) = some a ∧ bs.find? (fun b => fits (g b)) = some b
  | [], [], _ => Or.inl ⟨rfl, rfl⟩
  | a :: as, b :: bs, h => by
      obtain ⟨hab, hrest⟩ := List.cons.inj h
      by_cases hfit : fits (f a)
      · refine Or.inr ⟨0, a, b, rfl, rfl, hab, ?_, ?_⟩
        · simp [hfit]
        · simp [← hab, hfit]
      · rcases find?_of_map_eq f g fits hrest with ⟨hn, hn'⟩ | ⟨k, a', b', hk, hk', hab', hf, hf'⟩
        · refine Or.inl ⟨?_, ?_⟩
          · simpa [hfit] using hn
          · simpa [← hab, hfit] using hn'
        · refine Or.inr ⟨k + 1, a', b', hk, hk', hab', ?_, ?_⟩
          · simpa [hfit] using hf
          · simpa [← hab, hfit] using hf'

/-- Among common tables in view that stand for declarations one by one, a name is taken for that of
one declaration, or for none. -/
inductive Visible.Takes (v : Visible) (env : Env) (name : ObjectName) : Option Declaration → Prop
  | none (h : v.cteOf? name = none) : Takes v env name none
  | some {d : Declaration} {k : Nat} {columns : Columns} (hd : env[k]? = some d)
    (hk : v.ctes[k]? = some (Text.toLower d.cte.name.value, columns))
    (h : v.cteOf? name = some columns) : Takes v env name (some d)

variable {name : ObjectName}

theorem Visible.takes_of_cteNames {v : Visible} {env : Env} (h : v.cteNames = env.names)
    {only : Ident} (hbare : name.parts = [only]) : v.Takes env name (env.taken? only.value) := by
  have hcte : v.cteOf? name =
      (v.ctes.find? fun c => Text.equalIgnoringCase c.1 only.value).map Prod.snd := by
    simp [Visible.cteOf?, hbare, Visible.cteColumns?]
  rcases find?_of_map_eq Prod.fst (fun d : Declaration => Text.toLower d.cte.name.value)
    (Text.equalIgnoringCase · only.value) h with ⟨hn, hn'⟩ | ⟨k, c, d, hk, hk', hcd, hf, hf'⟩
  · rw [Env.taken?, hn']
    exact .none (by rw [hcte, hn, Option.map_none])
  · rw [Env.taken?, hf']
    obtain ⟨lower, columns⟩ := c
    obtain rfl : lower = Text.toLower d.cte.name.value := hcd
    exact .some hk' hk (by rw [hcte, hf, Option.map_some])

/-- The qualifier takes a bare name for the innermost declaration in view. -/
theorem Query.written_bare {x : Qualifier} {root q : Query} (h : x.qualify root = .ok q)
    (hnamed : ∀ t ∈ root.allTables, t.1.parts ≠ []) {place : Place} {s : Spot} {select : Select}
    {i : Nat} {numbered : Bool} {label : Option TableAlias} {hints : List Expr}
    (hat : q.at? place = some s) (hb : s.body = .select select)
    (hf : select.factors[i]? = some (.table name numbered label hints)) {only : Ident}
    (hbare : name.parts = [only]) :
    ∃ v s₀, BodyRan x root place v (.select s₀) (.select select) ∧
      s₀.factors[i]? = some (.table name numbered label hints) ∧
      v.Takes s.env name (s.env.taken? only.value) := by
  obtain ⟨v, s₀, written, hran, hv, hf₀, hname⟩ := Query.written_of_at? h hat hb hf
  have hwritten : (written, label) ∈ root.allTables := by
    refine List.mem_filterMap.mpr ⟨.table written label, hran.parts ?_, rfl⟩
    exact Select.factor_parts hf₀ (by simp [TableFactor.parts])
  have hsame : name = written := by
    split at hname
    · exact hname
    · rw [hname] at hbare ⊢
      exact ObjectName.eq_of_complete (hnamed _ hwritten) hbare
  subst hsame
  exact ⟨v, s₀, hran, hf₀, Visible.takes_of_cteNames hv hbare⟩

/-! ## Agreement -/

/-- Whether a common table has a name. -/
def PlacedCte.isNamed (name : String) (c : PlacedCte) : Bool :=
  Text.equalIgnoringCase c.cte.name.value name

theorem visibleCte?_bare {only : Ident} (h : name.parts = [only]) (ctes : List PlacedCte) :
    visibleCte? ctes (.ofObjectName name) = ctes.find? (PlacedCte.isNamed only.value) := by
  rw [TableReference.ofObjectName_single h]
  rfl

/-- Where small letters beyond ASCII play no part, the name of a declaration may count as it is. -/
theorem Env.taken?_placed {env : Env} {name : String}
    (h : ∀ c ∈ env.placed, Text.equalIgnoringCase (Text.toLower c.cte.name.value) name =
      c.isNamed name) :
    (env.taken? name).map Declaration.placed = env.placed.find? (PlacedCte.isNamed name) := by
  rw [Env.taken?, Env.placed, List.find?_map]
  refine congrArg (Option.map Declaration.placed) (List.find?_congr fun d hd => ?_)
  exact h d.placed (List.mem_map.mpr ⟨d, hd, rfl⟩)

/-- What is found at hand is what is found in view exactly if it was declared since the common table
around was read, or the same is found at hand where that was read as in view where it is
declared. -/
theorem Arrives.find?_eq_iff {q : Query} {b : PlacedBody} {s : Spot} {own : Env}
    {handed : List PlacedCte} {seen : Env} (h : Arrives q b s own handed seen)
    (fits : PlacedCte → Bool) :
    b.ctes.find? fits = s.env.placed.find? fits ↔
      (∃ d ∈ own, fits d.placed) ∨ handed.find? fits = seen.placed.find? fits := by
  rw [h.ctes_eq, h.env_eq, Env.placed_append, List.find?_append, List.find?_append]
  cases hown : own.placed.find? fits with
  | some c =>
    obtain ⟨d, hd, rfl⟩ := List.mem_map.mp (List.mem_of_find?_eq_some hown)
    have hfits : fits d.placed := List.find?_some hown
    simp only [Option.some_or, true_iff]
    exact Or.inl ⟨d, hd, hfits⟩
  | none =>
    have hnone : ¬ ∃ d ∈ own, fits d.placed := by
      rintro ⟨d, hd, hfits⟩
      exact List.find?_eq_none.mp hown d.placed (List.mem_map.mpr ⟨d, hd, rfl⟩) hfits
    simp only [Option.none_or, hnone, false_or]

/-- A builder takes a bare name for the declaration that the qualifier took it for, exactly if that
name was declared since the common table around it was read, or the name means the same where that
common table was read as where it is declared. -/
theorem Query.reads_as_qualified_iff {x : Qualifier} {root q : Query} (h : x.qualify root = .ok q)
    (hnamed : ∀ t ∈ root.allTables, t.1.parts ≠ []) {b : PlacedBody} (hv : q.Visits b)
    {select : Select} {i : Nat} {name : ObjectName} {numbered : Bool} {label : Option TableAlias}
    {hints : List Expr} (hb : b.opened.body = .select select)
    (hf : select.factors[i]? = some (.table name numbered label hints)) {only : Ident}
    (hbare : name.parts = [only])
    (hletters : ∀ c ∈ b.opened.ctes,
      Text.equalIgnoringCase (Text.toLower c.cte.name.value) only.value = c.isNamed only.value) :
    ∃ s own handed seen v s₀, Arrives q b.opened s own handed seen ∧
      BodyRan x root b.opened.place v (.select s₀) (.select select) ∧
      s₀.factors[i]? = some (.table name numbered label hints) ∧
      v.Takes s.env name (s.env.taken? only.value) ∧
      (visibleCte? b.opened.ctes (.ofObjectName name) =
          (s.env.taken? only.value).map Declaration.placed ↔
        (∃ d ∈ own, d.placed.isNamed only.value) ∨
          handed.find? (PlacedCte.isNamed only.value) =
            seen.placed.find? (PlacedCte.isNamed only.value)) := by
  obtain ⟨s, own₀, handed, seen, harrives⟩ := hv.arrives
  obtain ⟨own, hopened⟩ := harrives.opened
  obtain ⟨v, s₀, hran, hf₀, htakes⟩ := Query.written_bare h hnamed hopened.follows.at_place
    (hopened.follows.body_eq.trans hb) hf hbare
  refine ⟨s.opened, own, handed, seen, v, s₀, hopened, hran, hf₀, htakes, ?_⟩
  rw [visibleCte?_bare hbare, Env.taken?_placed fun c hc => hletters c (hopened.follows.visible.subset hc)]
  exact hopened.find?_eq_iff _

/-- A common table that reads column `a` of a table. -/
def Cte.plain (label : String) (table : ObjectName) : Cte :=
  .mk ⟨⟨label, none⟩, []⟩ none
    (.plain [] (.select (.plain
      [.plain (TableReference.ofObjectName table).name "a"] [.mk (.table table false none []) []])))
    none

/-- `WITH x AS (SELECT t.a FROM t) SELECT d.a FROM
(WITH y AS (SELECT x.a FROM x), x AS (SELECT u.a FROM u) SELECT y.a FROM y) AS d`, with parts before
the names of `t` and `u`. -/
def shadowing (schema : List Ident) : Query :=
  .plain [.plain "x" ⟨schema ++ [⟨"t", none⟩]⟩]
    (.select (.plain [.plain "d" "a"]
      [.mk (.derived false
        (.plain [.plain "y" ⟨[⟨"x", none⟩]⟩, .plain "x" ⟨schema ++ [⟨"u", none⟩]⟩]
          (.select (.plain [.plain "y" "a"] [.plain "y"]))) (some ⟨⟨"d", none⟩, []⟩)) []]))

/-- The body of `y` as it is visited. -/
def shadowingBody (schema : List Ident) : PlacedBody where
  body := (Cte.plain "y" ⟨[⟨"x", none⟩]⟩).query.body
  place := [.cte 0, .source 0]
  ctes := [⟨.plain "x" ⟨schema ++ [⟨"u", none⟩]⟩, [.cte 1, .source 0]⟩,
    ⟨.plain "y" ⟨[⟨"x", none⟩]⟩, [.cte 0, .source 0]⟩,
    ⟨.plain "x" ⟨schema ++ [⟨"t", none⟩]⟩, [.cte 0]⟩]

theorem shadowing_visits : (shadowing [⟨"s", none⟩]).Visits (shadowingBody [⟨"s", none⟩]) := by
  have hinner : (sourceMap [.source 0] (shadowingBody [⟨"s", none⟩]).ctes
      (.plain [.plain "y" "a"] [.plain "y"])).entries =
        [("y", "y", .query (shadowingBody [⟨"s", none⟩]) [])] := by
    rfl
  have hmem : ("y", "y", SelectSource.query (shadowingBody [⟨"s", none⟩]) []) ∈
      (sourceMap [.source 0] (shadowingBody [⟨"s", none⟩]).ctes
        (.plain [.plain "y" "a"] [.plain "y"])).entries := by
    rw [hinner]
    exact List.mem_singleton_self _
  exact .tail (.tail .refl (.source rfl (List.mem_of_getElem? (i := 0) rfl))) (.source rfl hmem)

/-- In the body of `y`, the qualifier takes `x` for the outer declaration and the builder for the
inner one, which is at hand where `y` is read. -/
theorem Query.reads_as_qualified_iff_shadowing :
    Qualifier.qualify ⟨⟨∅⟩, ⟨none, some "s"⟩⟩ (shadowing []) = .ok (shadowing [⟨"s", none⟩]) ∧
      (shadowing [⟨"s", none⟩]).Visits (shadowingBody [⟨"s", none⟩]) ∧
      ((shadowingBody [⟨"s", none⟩]).opened.ctes.find? (PlacedCte.isNamed "x")).map (·.place) =
        some [.cte 1, .source 0] ∧
      ∃ s own handed seen v s₀,
        Arrives (shadowing [⟨"s", none⟩]) (shadowingBody [⟨"s", none⟩]).opened s own handed seen ∧
        BodyRan ⟨⟨∅⟩, ⟨none, some "s"⟩⟩ (shadowing []) [.cte 0, .source 0] v (.select s₀)
          (.select (.plain [.plain "x" "a"] [.plain "x"])) ∧
        s₀.factors[0]? = some (.table ⟨[⟨"x", none⟩]⟩ false none []) ∧
        v.Takes s.env ⟨[⟨"x", none⟩]⟩ (s.env.taken? "x") ∧
        (visibleCte? (shadowingBody [⟨"s", none⟩]).opened.ctes (.ofObjectName ⟨[⟨"x", none⟩]⟩) =
            (s.env.taken? "x").map Declaration.placed ↔
          (∃ d ∈ own, d.placed.isNamed "x") ∨
            handed.find? (PlacedCte.isNamed "x") = seen.placed.find? (PlacedCte.isNamed "x")) := by
  have h : Qualifier.qualify ⟨⟨∅⟩, ⟨none, some "s"⟩⟩ (shadowing []) =
      .ok (shadowing [⟨"s", none⟩]) := by
    rfl
  have hb : (shadowingBody [⟨"s", none⟩]).opened.body =
      .select (.plain [.plain "x" "a"] [.plain "x"]) := rfl
  have hf : (Select.plain [.plain "x" "a"] [.plain "x"]).factors[0]? =
      some (.table ⟨[⟨"x", none⟩]⟩ false none []) := rfl
  have hletters : ∀ c ∈ (shadowingBody [⟨"s", none⟩]).opened.ctes,
      Text.equalIgnoringCase (Text.toLower c.cte.name.value) "x" = c.isNamed "x" := by
    decide
  have hagree := Query.reads_as_qualified_iff h (by decide) shadowing_visits hb hf rfl
    hletters
  exact ⟨h, shadowing_visits, by decide, hagree⟩

end ColumnLineage
