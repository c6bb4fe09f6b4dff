import ColumnLineage.Proofs.Standing

/-!
# What qualification looks up

Two qualifiers make the same of a query if they make the same of every table in it, whatever stands
around them. So a catalog is consulted for the tables of a query and for nothing else.
-/

namespace ColumnLineage

/-- Two qualifiers make the same of a part, whatever is in view. -/
def Part.Alike (x x' : Qualifier) : Part → Prop
  | .query q => ∀ v, q.qualify x v = q.qualify x' v
  | .table name label => ∀ (scope : Scope) (v : Visible),
    scope.registerTable x v name label = scope.registerTable x' v name label

/-- Two qualifiers make the same of an atom, if that is a query. -/
def Atom.IsAlike (x x' : Qualifier) : Atom → Prop
  | .query q => (Part.query q).Alike x x'
  | _ => True

/-- Two qualifiers make the same of the queries among atoms. -/
def Atom.Alike (x x' : Qualifier) (atoms : List Atom) : Prop :=
  ∀ a ∈ atoms, a.IsAlike x x'

/-- Two qualifiers make the same of all that stands at some places. -/
def Standing.Alike (x x' : Qualifier) (standing : List Standing) : Prop :=
  ∀ t ∈ standing, t.part.Alike x x'

variable {s : Surroundings}

section congr

variable {x x' : Qualifier}

theorem Atom.alike_append {as bs : List Atom} :
    Atom.Alike x x' (as ++ bs) ↔ Atom.Alike x x' as ∧ Atom.Alike x x' bs :=
  List.forall_mem_append

theorem Standing.alike_append {as bs : List Standing} :
    Standing.Alike x x' (as ++ bs) ↔ Standing.Alike x x' as ∧ Standing.Alike x x' bs :=
  List.forall_mem_append

theorem Standing.alike_atoms {atoms : List Atom} :
    Standing.Alike x x' (Atom.standing s atoms) ↔ Atom.Alike x x' atoms := by
  simp only [Standing.Alike, Atom.standing, List.forall_mem_map, Atom.mem_queries]
  refine ⟨fun h a ha => ?_, fun h q hq => h _ hq⟩
  cases a with
  | query q => exact h q ha
  | _ => trivial

/-! ## Expressions -/

section expressions

variable {v : Visible} {outputs : List String}

/-- What two qualifiers make of atoms is the same if they make the same of the queries among
them. -/
abbrev Agrees {α : Type} (x x' : Qualifier) (atoms : List Atom) (m m' : Except QualifyError α) :
    Prop :=
  Walks (fun _ => True) (Atom.IsAlike x x') atoms m m'

theorem agrees_query (q : Query) : Agrees x x' [.query q] (q.qualify x v) (q.qualify x' v) where
  settled _ _ _ := trivial
  same h := h _ List.mem_cons_self v

mutual

/-- An expression is qualified alike if the queries among its atoms are. -/
theorem Expr.agrees : (e : Expr) →
    Agrees x x' e.atoms (e.qualify x v outputs) (e.qualify x' v outputs)
  | .column _ => .refl
  | .path _ => .refl
  | .rowOf _ => .refl
  | .literal _ => .refl
  | .unary _ operand => .map operand.agrees
  | .binary _ left right => .map₂ left.agrees right.agrees
  | .between _ e low high => .map₃ e.agrees low.agrees high.agrees
  | .substring _ e start length =>
      .map₃ e.agrees (Expr.agreesOption start) (Expr.agreesOption length)
  | .trim _ e characters => .map₂ e.agrees (Expr.agreesOption characters)
  | .overlay e new start length =>
      .map₄ e.agrees new.agrees start.agrees (Expr.agreesOption length)
  | .cases operand conditions results otherwise =>
      .map₄ (Expr.agreesOption operand) (Expr.agreesList conditions)
        (Expr.agreesList results) (Expr.agreesOption otherwise)
  | .tuple items => .map (Expr.agreesList items)
  | .slice e lower upper stride =>
      .map₄ e.agrees (Expr.agreesOption lower) (Expr.agreesOption upper)
        (Expr.agreesOption stride)
  | .array _ items => .map (Expr.agreesList items)
  | .grouping _ sets => .map (Expr.agreesLists sets)
  | .inList _ e items => .map₂ e.agrees (Expr.agreesList items)
  | .inQuery _ e query => .map₂ e.agrees (agrees_query query)
  | .existence _ query => .map (agrees_query query)
  | .scalar query => .map (agrees_query query)
  | .call _ arguments filter _ window withinGroup =>
      .map₄ arguments.agrees (Expr.agreesOption filter) window.agrees
        (OrderItem.agreesList withinGroup)

theorem Expr.agreesList : (es : List Expr) →
    Agrees x x' (Expr.atomsList es) (Expr.qualifyList x v outputs es)
      (Expr.qualifyList x' v outputs es)
  | [] => .refl
  | e :: es => .map₂ e.agrees (Expr.agreesList es)

theorem Expr.agreesLists : (ess : List (List Expr)) →
    Agrees x x' (Expr.atomsLists ess) (Expr.qualifyLists x v outputs ess)
      (Expr.qualifyLists x' v outputs ess)
  | [] => .refl
  | es :: ess => .map₂ (Expr.agreesList es) (Expr.agreesLists ess)

theorem Expr.agreesOption : (e : Option Expr) →
    Agrees x x' (Expr.atomsOption e) (Expr.qualifyOption x v outputs e)
      (Expr.qualifyOption x' v outputs e)
  | none => .refl
  | some e => .map e.agrees

theorem Arguments.agrees : (a : Arguments) →
    Agrees x x' a.atoms (a.qualify x v outputs) (a.qualify x' v outputs)
  | .absent => .refl
  | .query query => .map (agrees_query query)
  | .list _ items orderBy limit _ filler _ =>
      .map₄ (Argument.agreesList items) (OrderItem.agreesList orderBy)
        (Expr.agreesOption limit) (Expr.agreesOption filler)

theorem Argument.agrees : (a : Argument) →
    Agrees x x' a.atoms (a.qualify x v outputs) (a.qualify x' v outputs)
  | .positional value => .map value.agrees
  | .named name _ value => .map₂ name.agrees value.agrees

theorem Argument.agreesList : (as : List Argument) →
    Agrees x x' (Argument.atomsList as) (Argument.qualifyList x v outputs as)
      (Argument.qualifyList x' v outputs as)
  | [] => .refl
  | a :: as => .map₂ a.agrees (Argument.agreesList as)

theorem ArgumentValue.agrees : (a : ArgumentValue) →
    Agrees x x' a.atoms (a.qualify x v outputs) (a.qualify x' v outputs)
  | .expr e => .map e.agrees
  | .star => .refl
  | .starOf _ => .refl

theorem OrderItem.agrees : (o : OrderItem) →
    Agrees x x' o.atoms (o.qualify x v outputs) (o.qualify x' v outputs)
  | .mk e _ _ => .map e.agrees

theorem OrderItem.agreesList : (os : List OrderItem) →
    Agrees x x' (OrderItem.atomsList os) (OrderItem.qualifyList x v outputs os)
      (OrderItem.qualifyList x' v outputs os)
  | [] => .refl
  | o :: os => .map₂ o.agrees (OrderItem.agreesList os)

theorem Window.agrees : (w : Window) →
    Agrees x x' w.atoms (w.qualify x v outputs) (w.qualify x' v outputs)
  | .absent => .refl
  | .named _ => .refl
  | .spec _ partitionBy orderBy frame =>
      .map₃ (Expr.agreesList partitionBy) (OrderItem.agreesList orderBy) frame.agrees

theorem Frame.agrees : (f : Frame) →
    Agrees x x' f.atoms (f.qualify x v outputs) (f.qualify x' v outputs)
  | .absent => .refl
  | .start _ first => .map first.agrees
  | .span _ first last => .map₂ first.agrees last.agrees

theorem Bound.agrees : (b : Bound) →
    Agrees x x' b.atoms (b.qualify x v outputs) (b.qualify x' v outputs)
  | .currentRow => .refl
  | .preceding rows => .map (Expr.agreesOption rows)
  | .following rows => .map (Expr.agreesOption rows)

end

theorem Expr.qualify_congr (e : Expr) (h : Atom.Alike x x' e.atoms) :
    e.qualify x v outputs = e.qualify x' v outputs :=
  e.agrees.same h

/-! ## Clauses -/

theorem Distinct.qualify_congr {d : Distinct} (h : Atom.Alike x x' d.atoms) :
    d.qualify x v = d.qualify x' v := by
  cases d with
  | on keys => simp only [Distinct.qualify, (Expr.agreesList keys).same h]
  | _ => rfl

theorem GroupBy.qualify_congr {g : GroupBy} (h : Atom.Alike x x' g.atoms) :
    g.qualify x v outputs = g.qualify x' v outputs := by
  cases g with
  | keys keys => simp only [GroupBy.qualify, (Expr.agreesList keys).same h]
  | all => rfl

theorem JoinCondition.qualify_congr {c : JoinCondition} (h : Atom.Alike x x' c.atoms) :
    c.qualify x v = c.qualify x' v := by
  cases c with
  | on e => simp only [JoinCondition.qualify, e.qualify_congr h]
  | _ => rfl

theorem SelectItem.qualify_congr {i : SelectItem} (h : Atom.Alike x x' i.atoms) {scope : Scope}
    {index : Nat} : i.qualify x v scope index = i.qualify x' v scope index := by
  cases i with
  | expr e label => simp only [SelectItem.qualify, e.qualify_congr h]
  | _ => rfl

theorem SelectItem.qualifyList_congr {scope : Scope} : (items : List SelectItem) →
    Atom.Alike x x' (items.flatMap SelectItem.atoms) → {index : Nat} →
    SelectItem.qualifyList x v scope index items = SelectItem.qualifyList x' v scope index items
  | [], _, _ => rfl
  | i :: is, h, _ => by
      rw [List.flatMap_cons, Atom.alike_append] at h
      simp only [SelectItem.qualifyList, SelectItem.qualify_congr h.1,
        SelectItem.qualifyList_congr is h.2]

end expressions

/-! ## Tables -/

mutual

theorem TableTree.register_congr : (t : TableTree) → {s : Surroundings} →
    Standing.Alike x x' (t.standing s) → {v : Visible} → {scope : Scope} →
    t.register x v scope = t.register x' v scope
  | .mk first joins, _, h, _, _ => by
      rw [TableTree.standing, Standing.alike_append] at h
      simp only [TableTree.register, first.register_congr h.1, Join.registerList_congr joins h.2]

theorem Join.registerList_congr : (js : List Join) → {s : Surroundings} →
    Standing.Alike x x' (Join.standingList s js) → {v : Visible} → {start : Nat} →
    {scope : Scope} → Join.registerList x v start scope js = Join.registerList x' v start scope js
  | [], _, _, _, _, _ => rfl
  | j :: js, _, h, _, _, _ => by
      rw [Join.standingList, Standing.alike_append] at h
      simp only [Join.registerList, j.register_congr h.1, Join.registerList_congr js h.2]

theorem Join.register_congr : (j : Join) → {s : Surroundings} →
    Standing.Alike x x' (j.standing s) → {v : Visible} → {start : Nat} → {scope : Scope} →
    j.register x v start scope = j.register x' v start scope
  | .mk _ _ factor _ _, _, h, _, _, _ => by
      rw [Join.standing, Standing.alike_append] at h
      simp only [Join.register, factor.register_congr h.1]

theorem TableFactor.register_congr : (f : TableFactor) → {s : Surroundings} →
    Standing.Alike x x' (f.standing s) → {v : Visible} → {scope : Scope} →
    f.register x v scope = f.register x' v scope
  | .table name _ label _, _, h, v, scope => by
      rw [TableFactor.standing] at h
      have hname := h _ List.mem_cons_self scope v
      simp only [TableFactor.register, hname]
  | .tableFunction _ _ _ _ _, _, _, _, _ => rfl
  | .lateralFunction _ _ _, _, _, _, _ => rfl
  | .tableOf _ _, _, _, _, _ => rfl
  | .unnest _ _ _ _, _, _, _, _ => rfl
  | .derived _ query _, _, h, _, _ => by
      rw [TableFactor.standing] at h
      have hquery : ∀ v, query.qualify x v = query.qualify x' v := h _ List.mem_cons_self
      simp only [TableFactor.register, hquery]
  | .nested tables _, _, h, _, _ => by
      rw [TableFactor.standing] at h
      simp only [TableFactor.register, tables.register_congr h]
  | .document _ _ _ _, _, _, _, _ => rfl
  | .pivot _ _ _ _ _ _, _, _, _, _ => rfl
  | .unpivot _ _ _ _ _, _, _, _, _ => rfl

end

theorem TableTree.registerList_congr {s : Surroundings} {v : Visible} : (trees : List TableTree) →
    Standing.Alike x x' (TableTree.standingList s trees) → {scope : Scope} →
    TableTree.registerList x v scope trees = TableTree.registerList x' v scope trees
  | [], _, _ => rfl
  | t :: ts, h, _ => by
      rw [TableTree.standingList, List.flatMap_cons, Standing.alike_append] at h
      simp only [TableTree.registerList, t.register_congr h.1, TableTree.registerList_congr ts h.2]

mutual

theorem TableTree.qualifyJoins_congr : (t : TableTree) → {s : Surroundings} →
    Standing.Alike x x' (t.standing s) → {v : Visible} → {t' : TableTree} →
    t.qualifyJoins x v t' = t.qualifyJoins x' v t'
  | .mk first joins, _, h, _, .mk _ _ => by
      rw [TableTree.standing, Standing.alike_append] at h
      simp only [TableTree.qualifyJoins, first.qualifyJoins_congr h.1,
        Join.qualifyJoinsList_congr joins h.2]
termination_by structural t => t

theorem Join.qualifyJoinsList_congr : (js : List Join) → {s : Surroundings} →
    Standing.Alike x x' (Join.standingList s js) → {v : Visible} → {js' : List Join} →
    Join.qualifyJoinsList x v js js' = Join.qualifyJoinsList x' v js js'
  | [], _, _, _, _ => rfl
  | _ :: _, _, _, _, [] => rfl
  | j :: js, _, h, _, _ :: _ => by
      rw [Join.standingList, Standing.alike_append] at h
      simp only [Join.qualifyJoinsList, j.qualifyJoins_congr h.1,
        Join.qualifyJoinsList_congr js h.2]
termination_by structural t => t

theorem Join.qualifyJoins_congr : (j : Join) → {s : Surroundings} →
    Standing.Alike x x' (j.standing s) → {v : Visible} → {j' : Join} →
    j.qualifyJoins x v j' = j.qualifyJoins x' v j'
  | .mk _ _ factor _ condition, _, h, _, .mk _ _ _ _ _ => by
      rw [Join.standing, Standing.alike_append, Standing.alike_append, Standing.alike_atoms,
        Standing.alike_atoms] at h
      simp only [Join.qualifyJoins, factor.qualifyJoins_congr h.1,
        JoinCondition.qualify_congr h.2.2]
termination_by structural t => t

theorem TableFactor.qualifyJoins_congr : (f : TableFactor) → {s : Surroundings} →
    Standing.Alike x x' (f.standing s) → {v : Visible} → {f' : TableFactor} →
    f.qualifyJoins x v f' = f.qualifyJoins x' v f'
  | .nested tables _, _, h, _, f' => by
      rw [TableFactor.standing] at h
      cases f' with
      | nested tables' label =>
        simp only [TableFactor.qualifyJoins, tables.qualifyJoins_congr h]
      | _ => rfl
  | .table _ _ _ _, _, _, _, _ => rfl
  | .tableFunction _ _ _ _ _, _, _, _, _ => rfl
  | .lateralFunction _ _ _, _, _, _, _ => rfl
  | .tableOf _ _, _, _, _, _ => rfl
  | .unnest _ _ _ _, _, _, _, _ => rfl
  | .derived _ _ _, _, _, _, _ => rfl
  | .document _ _ _ _, _, _, _, _ => rfl
  | .pivot _ _ _ _ _ _, _, _, _, _ => rfl
  | .unpivot _ _ _ _ _, _, _, _, _ => rfl
termination_by structural t => t

end

theorem TableTree.qualifyJoinsList_congr {s : Surroundings} {v : Visible} :
    (trees : List TableTree) → Standing.Alike x x' (TableTree.standingList s trees) →
    {trees' : List TableTree} →
    TableTree.qualifyJoinsList x v trees trees' = TableTree.qualifyJoinsList x' v trees trees'
  | [], _, _ => rfl
  | _ :: _, _, [] => rfl
  | t :: ts, h, _ :: _ => by
      rw [TableTree.standingList, List.flatMap_cons, Standing.alike_append] at h
      simp only [TableTree.qualifyJoinsList, t.qualifyJoins_congr h.1,
        TableTree.qualifyJoinsList_congr ts h.2]

/-! ## Queries -/

theorem Select.qualify_congr {select : Select} (h : Standing.Alike x x' (select.standing s))
    {v : Visible} : select.qualify x v = select.qualify x' v := by
  simp only [Select.standing, Standing.alike_append, Standing.alike_atoms, and_assoc] at h
  obtain ⟨hdistinct, -, hitems, hsources, -, hfilter, hgroup, -, -, -, hhaving, -, -⟩ := h
  obtain ⟨distinct, top, topCount, items, into, sources, lateralViews, lateralRows, filter, groupBy,
    clusterBy, distributeBy, sortBy, having, windows, windowFilter, windowsFirst⟩ := select
  simp only [Select.qualify, TableTree.registerList_congr sources hsources,
    TableTree.qualifyJoinsList_congr sources hsources, SelectItem.qualifyList_congr items hitems,
    Distinct.qualify_congr hdistinct, (Expr.agreesOption filter).same hfilter,
    GroupBy.qualify_congr hgroup, (Expr.agreesOption having).same hhaving]

theorem Body.qualify_congr : (b : Body) → {s : Surroundings} →
    Standing.Alike x x' (b.standing s) → {v : Visible} → b.qualify x v = b.qualify x' v
  | .select _, _, h, _ => by
      rw [Body.standing] at h
      simp only [Body.qualify, Select.qualify_congr h]
  | .parens query, _, h, v => by
      have hquery : query.qualify x v = query.qualify x' v := h _ List.mem_cons_self v
      simp only [Body.qualify, hquery]
  | .setOperation _ _ left right, _, h, _ => by
      rw [Body.standing, Standing.alike_append] at h
      simp only [Body.qualify, left.qualify_congr h.1, right.qualify_congr h.2]
  | .values _ _, _, _, _ => rfl
  | .defaultValues, _, _, _ => rfl
  | .table _, _, _, _ => rfl
  | .insert _, _, _, _ => rfl
  | .update _, _, _, _ => rfl

theorem Cte.qualifyList_congr {isRecursive : Bool} : (cs : List Cte) → {s : Surroundings} →
    Standing.Alike x x' (Cte.standing isRecursive s cs) → {v : Visible} →
    Cte.qualifyList x isRecursive v cs = Cte.qualifyList x' isRecursive v cs
  | [], _, _, _ => rfl
  | .mk label materialized query source :: cs, _, h, v => by
      obtain ⟨hfirst, hrest⟩ := List.forall_mem_cons.mp h
      have hquery : ∀ v, query.qualify x v = query.qualify x' v := hfirst
      simp only [Cte.qualifyList, Cte.qualify, hquery, Cte.qualifyList_congr cs hrest]

theorem Query.qualify_standing {q : Query} (h : Standing.Alike x x' (q.standing s)) :
    (Part.query q).Alike x x' := by
  intro v
  simp only [Query.standing, Standing.alike_append, Standing.alike_atoms, and_assoc] at h
  obtain ⟨hctes, hbody, horder, -, -⟩ := h
  obtain ⟨isRecursive, ctes, body, orderBy, limit, offset, offsetWord, fetch, locks⟩ := q
  simp only [Query.qualify, Cte.qualifyList_congr ctes hctes, body.qualify_congr hbody,
    (OrderItem.agreesList orderBy).same horder]

/-- A query is qualified alike if the tables are that it reads at any depth. -/
theorem Query.qualify_congr {q : Query}
    (h : ∀ r ∈ q.reads s, (Part.table r.name r.label).Alike x x') : (Part.query q).Alike x x' := by
  induction s, q using Query.standing_induction with
  | h s q ih =>
    refine Query.qualify_standing (s := s) fun t ht => ?_
    have hreads : ∀ r ∈ t.reads, (Part.table r.name r.label).Alike x x' := by
      intro r hr
      refine h r ?_
      rw [q.reads_eq]
      exact List.mem_flatMap.mpr ⟨t, ht, hr⟩
    obtain ⟨around, part⟩ := t
    cases part with
    | table name label => exact hreads _ List.mem_cons_self
    | query r => exact ih _ ht r rfl hreads

end congr

end ColumnLineage
