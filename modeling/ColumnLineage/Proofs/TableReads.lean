import ColumnLineage.Proofs.Bindings
import ColumnLineage.Proofs.Standing

/-!
# The tables of a qualified query

Qualification keeps every table at its place and under its alias. A table gets its full name if it
is visited and not the bare name of a common table in view there; all other tables keep the names
that they are written with. Either way the name means the same table.

* `Qualifier.resolved_tableUses`: no table is added, dropped, renamed or mistaken for another one.
-/

namespace ColumnLineage

/-! ## One table -/

namespace TableRead

/-- A table is a base table unless its name is the bare name of a common table in view. -/
def isBase (r : TableRead) : Bool :=
  match r.name.parts with
  | [only] => !r.around.ctes.any (Text.equalIgnoringCase · only.value)
  | _ => true

/-- The name that qualification gives to a table. -/
def qualified (d : Defaults) (r : TableRead) : ObjectName :=
  if r.around.visited && r.isBase then r.name.complete d else r.name

theorem qualified_of_unvisited {d : Defaults} {r : TableRead} (h : r.around.visited = false) :
    r.qualified d = r.name := by
  simp [qualified, h]

/-- A table is a base table exactly if it is not taken for a common table. -/
theorem isBase_eq {v : Visible} {r : TableRead} (hv : v.cteNames = r.around.ctes) :
    r.isBase = !(v.cteOf? r.name).isSome := by
  obtain ⟨⟨parts⟩, label, around⟩ := r
  have hctes : v.ctes.map Prod.fst = around.ctes := hv
  match parts with
  | [] => rfl
  | _ :: _ :: _ => rfl
  | [only] =>
    simp only [isBase, Visible.cteOf?, Visible.cteColumns?, Option.isSome_map, ← hctes,
      List.any_map]
    rw [Bool.not_inj_iff, Bool.eq_iff_iff]
    simp

end TableRead

/-! ## What corresponds -/

/-- What qualification makes of a query with these surroundings. -/
inductive Query.Treated (x : Qualifier) : Surroundings → Query → Query → Prop
  /-- Where it comes, it qualifies the query with the common tables in view. -/
  | visited {s : Surroundings} {v : Visible} {q₀ q : Query} (hs : s.visited = true)
    (hv : v.cteNames = s.ctes) (h : q₀.Qualifies x v q) : Treated x s q₀ q
  | unvisited {s : Surroundings} {q : Query} (hs : s.visited = false) : Treated x s q q

/-- What stands at some places becomes what stands at the same places of a qualified query. -/
def Corresponds (x : Qualifier) (as bs : List Standing) : Prop :=
  List.Forall₂ (Standing.Matches (Query.Treated x) (TableRead.qualified x.defaults)) as bs

section clauses

variable {x : Qualifier} {s : Surroundings} {v w : Visible}

theorem Corresponds.append {as as' bs bs' : List Standing} (h : Corresponds x as as')
    (h' : Corresponds x bs bs') : Corresponds x (as ++ bs) (as' ++ bs') :=
  List.rel_append h h'

theorem corresponds_refl : {standing : List Standing} →
    (∀ t ∈ standing, t.around.visited = false) → Corresponds x standing standing
  | [], _ => .nil
  | ⟨around, part⟩ :: rest, h => by
      have haround : around.visited = false := h _ List.mem_cons_self
      refine .cons ?_ (corresponds_refl fun t ht => h t (List.mem_cons_of_mem _ ht))
      cases part with
      | query q => exact .query (.unvisited haround)
      | table name label =>
        have hname : TableRead.qualified x.defaults ⟨name, label, around⟩ = name :=
          TableRead.qualified_of_unvisited haround
        conv =>
          arg 4
          rw [← hname]
        exact .table

theorem Surroundings.Covers.unvisited {standing : List Standing} (h : s.unvisited.Covers standing) :
    ∀ t ∈ standing, t.around.visited = false := by
  intro t ht
  rcases h t ht with h | h <;> rw [h] <;> rfl

theorem corresponds_unvisited (atoms : List Atom) :
    Corresponds x (Atom.standing s.unvisited atoms) (Atom.standing s.unvisited atoms) :=
  corresponds_refl (covers_atoms atoms).unvisited

/-- The queries of a clause are qualified with the common tables in view. -/
theorem corresponds_atoms (hs : s.visited = true) (hv : v.cteNames = s.ctes) {as bs : List Atom}
    (h : List.Forall₂ (Query.Qualifies x v) (Atom.queries as) (Atom.queries bs)) :
    Corresponds x (Atom.standing s as) (Atom.standing s bs) := by
  unfold Corresponds Atom.standing
  rw [List.forall₂_map_left_iff, List.forall₂_map_right_iff]
  exact h.imp fun q₀ q hq => .query (.visited hs hv hq)

/-! ## Tables -/

theorem TableFactor.corresponds_single (hs : s.visited = true) (hv : v.cteNames = s.ctes)
    {f₀ f : TableFactor} {scope scope' : Scope} (hn : ∀ tables label, f₀ ≠ .nested tables label)
    (h : f₀.register x v scope = .ok (f, scope')) :
    Corresponds x (f₀.standing s) (f.standing s) := by
  cases TableFactor.registered_of_register hn h with
  | @table name numbered label hints _ _ =>
    have hbase := TableRead.isBase_eq (r := ⟨name, label, s⟩) hv
    have hname : TableRead.qualified x.defaults ⟨name, label, s⟩ =
        if (v.cteOf? name).isSome then name else name.complete x.defaults := by
      rw [TableRead.qualified, hbase, hs]
      cases (v.cteOf? name).isSome <;> rfl
    rw [TableFactor.standing, TableFactor.standing, ← hname]
    exact .cons .table (corresponds_unvisited _)
  | @derived lateral q₀ q label columns _ _ hq =>
    have hseen : (if lateral then v.withScope scope else v).cteNames = s.ctes := by
      cases lateral <;> exact hv
    rw [TableFactor.standing, TableFactor.standing]
    exact .cons (.query (.visited hs hseen ⟨columns, hq⟩)) .nil
  | other ht hd _ _ =>
    -- Nothing in a function or a pivoted table is visited.
    cases f₀ with
    | table name numbered label hints => exact absurd rfl (ht name numbered label hints)
    | derived lateral q label => exact absurd rfl (hd lateral q label)
    | nested tables label => exact absurd rfl (hn tables label)
    | pivot table aggregates column values otherwise label =>
      rw [TableFactor.standing]
      exact (corresponds_refl table.covers.unvisited).append (corresponds_unvisited _)
    | unpivot table value name columns label =>
      rw [TableFactor.standing]
      exact corresponds_refl table.covers.unvisited
    | _ => exact corresponds_unvisited _

theorem JoinCondition.corresponds (hs : s.visited = true) (hw : w.cteNames = s.ctes)
    {c₀ c : JoinCondition} (h : c₀.qualify x w = .ok c) :
    Corresponds x (Atom.standing s c₀.atoms) (Atom.standing s c.atoms) := by
  have hc := JoinCondition.qualify_eq_ok h
  refine corresponds_atoms hs hw ?_
  rw [hc.atoms_eq]
  exact Settled.queries _ hc.settled

/-- The tables and the conditions of a clause stay at their places. -/
theorem correspondsSteps (hs : s.visited = true) (hv : v.cteNames = s.ctes)
    (hw : w.cteNames = s.ctes) : QualifySteps x v w
    (fun _ f₀ _ f' _ => Corresponds x (f₀.standing s) (f'.standing s))
    (fun _ _ js₀ _ js' _ => Corresponds x (Join.standingList s js₀) (Join.standingList s js'))
    (fun _ t₀ _ t' _ => Corresponds x (t₀.standing s) (t'.standing s))
    (fun _ ts₀ _ ts' _ =>
      Corresponds x (TableTree.standingList s ts₀) (TableTree.standingList s ts')) where
  single hn h := TableFactor.corresponds_single hs hv hn h
  nested ih := ih
  done := .nil
  join hc ih ihs := by
    rw [Join.standingList, Join.standingList, Join.standing, Join.standing]
    exact (ih.append ((corresponds_unvisited _).append (JoinCondition.corresponds hs hw hc))).append
      ihs
  tree ih ihs := by
    rw [TableTree.standing, TableTree.standing]
    exact ih.append ihs
  nil := .nil
  cons ih ihs := ih.append ihs

/-! ## Selects, bodies and queries -/

theorem Select.Qualified.corresponds (hs : s.visited = true) (hv : v.cteNames = s.ctes)
    {s₀ s₁ : Select} {scope : Scope} {registered : List TableTree} {outputs : List String}
    (h : Select.Qualified x v s₀ s₁ scope registered outputs) :
    Corresponds x (s₀.standing s) (s₁.standing s) := by
  have hw : (v.withScope scope).cteNames = s.ctes := hv
  have hdistinct := corresponds_atoms hs hw (Distinct.queries_of_qualify h.distinct)
  have hitems := corresponds_atoms hs hw (SelectItem.queries_of_qualifyList h.items)
  have hsources := (correspondsSteps hs hv hw).ofTrees h.tables h.sources
  have hfilter := corresponds_atoms hs hw (Expr.queries_of_qualifyOption h.filter)
  have hgroupBy := corresponds_atoms hs hw (GroupBy.queries_of_qualify h.groupBy)
  have hhaving := corresponds_atoms hs hw (Expr.queries_of_qualifyOption h.having)
  have hrest := fun atoms => corresponds_unvisited (x := x) (s := s) atoms
  rw [h.others]
  exact hdistinct.append (hrest _) |>.append hitems |>.append hsources |>.append (hrest _)
    |>.append hfilter |>.append hgroupBy |>.append (hrest _) |>.append (hrest _)
    |>.append (hrest _) |>.append hhaving |>.append (hrest _) |>.append (hrest _)

theorem Body.corresponds (hs : s.visited = true) (hv : v.cteNames = s.ctes) : (b₀ : Body) →
    {b : Body} → {result : Columns × Option Scope} → b₀.qualify x v = .ok (b, result) →
      Corresponds x (b₀.standing s) (b.standing s)
  | .select s₀, _, _, h => by
      obtain ⟨s₁, own, rfl, hsel, -⟩ := Body.qualify_select h
      obtain ⟨registered, outputs, hsel⟩ := Select.qualify_eq_ok hsel
      exact hsel.corresponds hs hv
  | .parens q₀, _, _, h => by
      obtain ⟨q, rfl, hq⟩ := Body.qualify_parens h
      exact .cons (.query (.visited hs hv ⟨_, hq⟩)) .nil
  | .setOperation _ _ l₀ r₀, _, _, h => by
      obtain ⟨l, r, left, right, rfl, hl, hr⟩ := Body.qualify_setOperation h
      rw [Body.standing, Body.standing]
      exact (l₀.corresponds hs hv hl).append (r₀.corresponds hs hv hr)
  | .values _ _, _, _, h => by
      cases h
      exact corresponds_unvisited _
  | .defaultValues, _, _, h => by
      cases h
      exact .nil
  | .table _, _, _, h => by
      cases h
      exact .nil
  | .insert _, _, _, h => by
      cases h
      exact corresponds_unvisited _
  | .update u, _, _, h => by
      cases h
      exact corresponds_refl u.covers.unvisited

theorem Cte.corresponds {isRecursive : Bool} : (cs₀ : List Cte) → {s : Surroundings} →
    {v w : Visible} → {cs : List Cte} → s.visited = true → v.cteNames = s.ctes →
      Cte.qualifyList x isRecursive v cs₀ = .ok (cs, w) →
      Corresponds x (Cte.standing isRecursive s cs₀) (Cte.standing isRecursive s cs) ∧
        cs.map Cte.lowerName = cs₀.map Cte.lowerName ∧
        w.cteNames = (cs₀.foldl Surroundings.declare s).ctes
  | [], _, _, _, _, _, hv, h => by
      cases h
      exact ⟨.nil, rfl, hv⟩
  | c₀ :: cs₀, s, v, _, _, hs, hv, h => by
      obtain ⟨c, cs, columns, rfl, hc, hrest⟩ := Cte.qualifyList_cons h
      obtain ⟨inner, hq, hname⟩ := Cte.qualify_eq_ok hc
      have hlower : c.lowerName = c₀.lowerName := by rw [Cte.lowerName, hname, Cte.lowerName]
      have hbehind : (v.withCte c.name.value columns).cteNames = (s.declare c₀).ctes := by
        change c.lowerName :: v.cteNames = c₀.lowerName :: s.ctes
        rw [hlower, hv]
      have hseen : (c₀.seen isRecursive v).cteNames =
          (if isRecursive then s.declare c₀ else s).ctes := by
        obtain ⟨label, materialized, query, source⟩ := c₀
        cases isRecursive with
        | false => exact hv
        | true => exact congrArg (_ :: ·) hv
      have hvisited : (if isRecursive then s.declare c₀ else s).visited = true := by
        cases isRecursive <;> exact hs
      have hdeclare : s.declare c = s.declare c₀ := by
        rw [Surroundings.declare, hlower, Surroundings.declare]
      obtain ⟨hcs, hnames, hw⟩ := Cte.corresponds cs₀ (s := s.declare c₀) hs hbehind hrest
      refine ⟨?_, ?_, hw⟩
      · rw [Cte.standing, Cte.standing, hdeclare]
        exact .cons (.query (.visited hvisited hseen ⟨inner, hq⟩)) hcs
      · rw [List.map_cons, List.map_cons, hlower, hnames]

end clauses

/-- A query and what qualification makes of it correspond place by place. -/
theorem Qualifier.simulation (x : Qualifier) :
    Simulation (Query.Treated x) (TableRead.qualified x.defaults) where
  names h := by
    cases h with
    | unvisited _ => rfl
    | visited hs hv h =>
      obtain ⟨columns, h⟩ := h
      obtain ⟨inner, scope, hc, -, -, -⟩ := Query.qualify_eq_ok h
      exact (Cte.corresponds _ hs hv hc).2.1
  standing {s q₀ q} h := by
    cases h with
    | unvisited hs =>
      refine corresponds_refl fun t ht => ?_
      have hvisited := (Query.standing_around ht).2
      rwa [hs, Bool.false_eq_true, imp_false, Bool.not_eq_true] at hvisited
    | visited hs hv h =>
      obtain ⟨columns, h⟩ := h
      obtain ⟨inner, scope, hc, hb, ho, hq⟩ := Query.qualify_eq_ok h
      obtain ⟨hctes, hnames, hinner⟩ := Cte.corresponds _ hs hv hc
      have hsame : q.within s = q₀.within s := by rw [q.within_eq, q₀.within_eq, hnames]
      have hvisited : (q₀.within s).visited = true := by rwa [q₀.within_eq]
      have hbehind : (inner.behind scope).cteNames = (q₀.within s).ctes := by
        cases scope <;> exact hinner
      have hbody := q₀.body.corresponds hvisited hinner hb
      have horder := corresponds_atoms hvisited hbehind (OrderItem.queries_of_qualifyList ho)
      have hrest := fun atoms => corresponds_unvisited (x := x) (s := q₀.within s) atoms
      have hlimit : q.limit = q₀.limit := by rw [hq]
      have hoffset : q.offset = q₀.offset := by rw [hq]
      have hrecursive : q.isRecursive = q₀.isRecursive := by rw [hq]
      rw [Query.standing, Query.standing, hsame, hlimit, hoffset, hrecursive]
      exact hctes.append hbody |>.append horder |>.append (hrest _) |>.append (hrest _)

/-- A qualified query reads the same tables at the same places, under the names that qualification
gives to them. -/
theorem Qualifier.reads_of_qualify {x : Qualifier} {root q : Query} (h : x.qualify root = .ok q) :
    q.reads .outside =
      (root.reads .outside).map (TableRead.rename (TableRead.qualified x.defaults)) := by
  obtain ⟨⟨q', columns⟩, hq, h⟩ := bind_eq_ok.mp h
  obtain rfl := pure_eq_ok.mp h
  exact x.simulation.reads (.visited rfl rfl ⟨columns, hq⟩)

theorem Qualifier.cteNames_of_qualify {x : Qualifier} {root q : Query}
    (h : x.qualify root = .ok q) : q.cteNames = root.cteNames := by
  obtain ⟨⟨q', columns⟩, hq, h⟩ := bind_eq_ok.mp h
  obtain rfl := pure_eq_ok.mp h
  exact x.simulation.cteNames (s := .outside) (.visited rfl rfl ⟨columns, hq⟩)

/-! ## Full names -/

/-- The name that qualification gives to a table means the same table. -/
theorem TableRead.ofObjectName_qualified {r : TableRead} (hr : r.name.parts ≠ []) (d : Defaults) :
    FullName.ofObjectName (r.qualified d) d = FullName.ofObjectName r.name d := by
  unfold TableRead.qualified
  split
  · exact FullName.ofObjectName_complete hr d
  · rfl

/-! ## The tables of a query and their full names -/

/-- The alias and the full name of a table. -/
def TableUse.resolved (d : Defaults) (u : TableUse) : Option String × FullName :=
  (u.label, FullName.resolve u.reference d)

theorem Query.tableUses_eq_reads (s : Surroundings) (q : Query) :
    q.tableUses = (q.reads s).map fun r =>
      ⟨r.label.map fun a => a.name.value, TableReference.ofObjectName r.name⟩ := by
  rw [Query.tableUses, q.allTables_eq_reads s, List.map_map]
  rfl

/-- Qualification neither adds nor drops a table, and each table keeps its alias and its full name.
All names have a part, as all that are written do. -/
theorem Qualifier.resolved_tableUses (x : Qualifier) {root q : Query} (h : x.qualify root = .ok q)
    (hnamed : ∀ t ∈ root.allTables, t.1.parts ≠ []) :
    q.tableUses.map (TableUse.resolved x.defaults) =
      root.tableUses.map (TableUse.resolved x.defaults) := by
  rw [q.tableUses_eq_reads .outside, root.tableUses_eq_reads .outside,
    Qualifier.reads_of_qualify h, List.map_map, List.map_map, List.map_map]
  refine List.map_congr_left fun r hr => ?_
  have hparts : r.name.parts ≠ [] := by
    refine hnamed (r.name, r.label) ?_
    rw [root.allTables_eq_reads .outside]
    exact List.mem_map.mpr ⟨r, hr, rfl⟩
  exact congrArg (Prod.mk _) (TableRead.ofObjectName_qualified hparts x.defaults)

/-- `WITH t AS (SELECT t.a FROM t) SELECT b.a FROM t AS b`, with parts before the name of the table
that the common table reads. -/
def sameNamed (front : List Ident) : Query :=
  .plain
    [.mk ⟨⟨"t", none⟩, []⟩ none
      (.plain [] (.select (.plain [.plain "t" "a"]
        [.mk (.table ⟨front ++ [⟨"t", none⟩]⟩ false none []) []]))) none]
    (.select (.plain [.plain "b" "a"]
      [.mk (.table ⟨[⟨"t", none⟩]⟩ false (some ⟨⟨"b", none⟩, []⟩) []) []]))

/-- A common table that reads a table of its own name is not mistaken for it. -/
theorem Qualifier.resolved_tableUses_sameNamed :
    Qualifier.qualify ⟨⟨∅⟩, ⟨some "db", some "s"⟩⟩ (sameNamed []) =
        .ok (sameNamed [⟨"db", none⟩, ⟨"s", none⟩]) ∧
      (sameNamed [⟨"db", none⟩, ⟨"s", none⟩]).tableUses.map
          (TableUse.resolved ⟨some "db", some "s"⟩) =
        (sameNamed []).tableUses.map (TableUse.resolved ⟨some "db", some "s"⟩) := by
  have h : Qualifier.qualify ⟨⟨∅⟩, ⟨some "db", some "s"⟩⟩ (sameNamed []) =
      .ok (sameNamed [⟨"db", none⟩, ⟨"s", none⟩]) := by
    rfl
  exact ⟨h, Qualifier.resolved_tableUses _ h (by decide)⟩

end ColumnLineage
