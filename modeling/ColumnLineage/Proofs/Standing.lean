import ColumnLineage.Proofs.DistinctNames
import ColumnLineage.Proofs.NestedQueries

/-!
# What stands where in a query

`Query.standing` lists the tables and the queries that stand in a query, in the order of the walk and
without entering the queries. Each comes with its surroundings: the names of the common tables in
view, and whether qualification comes there at all. Common tables come into view one after another,
and a recursive one is in view of itself.
-/

namespace ColumnLineage

/-! ## Surroundings -/

/-- What surrounds a place in a query. -/
structure Surroundings where
  /-- The names of the common tables in view in small letters, the innermost first. -/
  ctes : List String
  visited : Bool
deriving DecidableEq, Repr

namespace Surroundings

/-- Around a whole query nothing is in view. -/
def outside : Surroundings :=
  ⟨[], true⟩

def declare (s : Surroundings) (c : Cte) : Surroundings :=
  { s with ctes := c.lowerName :: s.ctes }

/-- The surroundings in a clause that qualification leaves alone. -/
def unvisited (s : Surroundings) : Surroundings :=
  { s with visited := false }

@[simp] theorem declare_visited (s : Surroundings) (c : Cte) : (s.declare c).visited = s.visited :=
  rfl

@[simp] theorem unvisited_visited (s : Surroundings) : s.unvisited.visited = false :=
  rfl

end Surroundings

/-- A table or a query with what surrounds it. -/
structure Standing where
  around : Surroundings
  part : Part

/-- The parts that a walk meets in a part. -/
def Part.parts : Part → List Part
  | .query q => q.parts
  | .table name label => [.table name label]

/-- The parts that a walk meets in what stands at some places. -/
def Standing.parts (standing : List Standing) : List Part :=
  standing.flatMap fun t => t.part.parts

theorem Standing.parts_append (as bs : List Standing) :
    Standing.parts (as ++ bs) = Standing.parts as ++ Standing.parts bs :=
  List.flatMap_append

/-! ## Clauses -/

def Atom.standing (s : Surroundings) (atoms : List Atom) : List Standing :=
  (Atom.queries atoms).map fun q => ⟨s, .query q⟩

theorem Atom.parts_standing (s : Surroundings) (atoms : List Atom) :
    Standing.parts (Atom.standing s atoms) = atoms.flatMap Atom.parts := by
  induction atoms with
  | nil => rfl
  | cons a rest ih =>
    have hcons : Atom.standing s (a :: rest) = Atom.standing s [a] ++ Atom.standing s rest := by
      unfold Atom.standing
      rw [← List.map_append, ← Atom.queries_append, List.singleton_append]
    rw [hcons, Standing.parts_append, ih, List.flatMap_cons]
    congr 1
    cases a with
    | query q => exact List.flatMap_singleton _ _
    | _ => rfl

def NamedWindow.atoms : NamedWindow → List Atom
  | .mk _ window => window.atoms

def Assignment.atoms : Assignment → List Atom
  | .mk _ value => value.atoms

/-- The atoms of the values of a `PIVOT` clause. -/
def PivotValues.atoms : PivotValues → List Atom
  | .list items => items.flatMap SelectItem.atoms
  | .any orderBy => OrderItem.atomsList orderBy
  | .query q => [.query q]

theorem SelectItem.partsList_atoms (items : List SelectItem) :
    SelectItem.partsList items = (items.flatMap SelectItem.atoms).flatMap Atom.parts := by
  rw [SelectItem.partsList_eq, List.flatMap_assoc]
  congr 1
  funext i
  exact i.parts_eq

theorem NamedWindow.partsList_atoms (windows : List NamedWindow) :
    NamedWindow.partsList windows = (windows.flatMap NamedWindow.atoms).flatMap Atom.parts := by
  induction windows with
  | nil => rfl
  | cons w rest ih =>
    obtain ⟨name, window⟩ := w
    rw [NamedWindow.partsList, NamedWindow.parts, ih, window.parts_eq, List.flatMap_cons,
      List.flatMap_append]
    rfl

theorem Assignment.partsList_atoms (assignments : List Assignment) :
    Assignment.partsList assignments =
      (assignments.flatMap Assignment.atoms).flatMap Atom.parts := by
  induction assignments with
  | nil => rfl
  | cons a rest ih =>
    obtain ⟨target, value⟩ := a
    rw [Assignment.partsList, Assignment.parts, ih, value.parts_eq, List.flatMap_cons,
      List.flatMap_append]
    rfl

theorem PivotValues.parts_atoms (values : PivotValues) :
    values.parts = values.atoms.flatMap Atom.parts := by
  cases values with
  | list items => exact SelectItem.partsList_atoms items
  | any orderBy => exact OrderItem.partsList_eq orderBy
  | query q => exact (List.flatMap_singleton _ _).symm

theorem Distinct.parts_atoms (d : Distinct) : d.parts = d.atoms.flatMap Atom.parts := by
  cases d with
  | on keys => exact Expr.partsList_eq keys
  | _ => rfl

theorem GroupBy.parts_atoms (g : GroupBy) : g.parts = g.atoms.flatMap Atom.parts := by
  cases g with
  | keys es => exact Expr.partsList_eq es
  | all => rfl

theorem JoinCondition.parts_atoms (c : JoinCondition) : c.parts = c.atoms.flatMap Atom.parts := by
  cases c with
  | on e => exact e.parts_eq
  | _ => rfl

/-! ## Tables -/

mutual

/-- What stands in a table and its joins. -/
def TableTree.standing (s : Surroundings) : TableTree → List Standing
  | .mk first joins => first.standing s ++ Join.standingList s joins
termination_by structural t => t

def Join.standingList (s : Surroundings) : List Join → List Standing
  | [] => []
  | j :: js => j.standing s ++ Join.standingList s js
termination_by structural js => js

def Join.standing (s : Surroundings) : Join → List Standing
  | .mk _ _ factor matching condition =>
    factor.standing s ++ (Atom.standing s.unvisited (Expr.atomsOption matching) ++
      Atom.standing s condition.atoms)
termination_by structural j => j

/-- What stands in a table. Qualification looks at tables and queries, but neither at what
functions are given nor at pivoted tables. -/
def TableFactor.standing (s : Surroundings) : TableFactor → List Standing
  | .table name _ label hints =>
    ⟨s, .table name label⟩ :: Atom.standing s.unvisited (Expr.atomsList hints)
  | .tableFunction _ arguments _ _ hints =>
    Atom.standing s.unvisited (Argument.atomsList arguments ++ Expr.atomsList hints)
  | .lateralFunction _ arguments _ => Atom.standing s.unvisited (Argument.atomsList arguments)
  | .tableOf e _ => Atom.standing s.unvisited e.atoms
  | .unnest arrays _ _ _ => Atom.standing s.unvisited (Expr.atomsList arrays)
  | .derived _ query _ => [⟨s, .query query⟩]
  | .nested tables _ => tables.standing s
  | .document _ e _ _ => Atom.standing s.unvisited e.atoms
  | .pivot table aggregates _ values otherwise _ =>
    table.standing s.unvisited ++ Atom.standing s.unvisited
      (aggregates.flatMap SelectItem.atoms ++ values.atoms ++ Expr.atomsOption otherwise)
  | .unpivot table _ _ _ _ => table.standing s.unvisited
termination_by structural f => f

end

mutual

theorem TableTree.parts_standing (s : Surroundings) :
    (t : TableTree) → Standing.parts (t.standing s) = t.parts
  | .mk first joins => by
      rw [TableTree.standing, TableTree.parts, Standing.parts_append, first.parts_standing,
        Join.partsList_standing]

theorem Join.partsList_standing (s : Surroundings) :
    (js : List Join) → Standing.parts (Join.standingList s js) = Join.partsList js
  | [] => rfl
  | j :: js => by
      rw [Join.standingList, Join.partsList, Standing.parts_append, j.parts_standing,
        Join.partsList_standing]

theorem Join.parts_standing (s : Surroundings) :
    (j : Join) → Standing.parts (j.standing s) = j.parts
  | .mk _ _ factor matching condition => by
      rw [Join.standing, Join.parts, Standing.parts_append, Standing.parts_append,
        factor.parts_standing, Atom.parts_standing, Atom.parts_standing, condition.parts_atoms,
        Expr.partsOption_eq, List.append_assoc]

theorem TableFactor.parts_standing (s : Surroundings) :
    (f : TableFactor) → Standing.parts (f.standing s) = f.parts
  | .table name _ label hints => by
      rw [TableFactor.standing, TableFactor.parts, Expr.partsList_eq,
        ← Atom.parts_standing s.unvisited]
      rfl
  | .tableFunction _ arguments _ _ hints => by
      rw [TableFactor.standing, TableFactor.parts, Atom.parts_standing, List.flatMap_append,
        Argument.partsList_eq, Expr.partsList_eq]
  | .lateralFunction _ arguments _ => by
      rw [TableFactor.standing, TableFactor.parts, Atom.parts_standing, Argument.partsList_eq]
  | .tableOf e _ => by
      rw [TableFactor.standing, TableFactor.parts, Atom.parts_standing, e.parts_eq]
  | .unnest arrays _ _ _ => by
      rw [TableFactor.standing, TableFactor.parts, Atom.parts_standing, Expr.partsList_eq]
  | .derived _ query _ => by
      rw [TableFactor.standing, TableFactor.parts]
      exact List.flatMap_singleton _ _
  | .nested tables _ => by
      rw [TableFactor.standing, TableFactor.parts, tables.parts_standing]
  | .document _ e _ _ => by
      rw [TableFactor.standing, TableFactor.parts, Atom.parts_standing, e.parts_eq]
  | .pivot table aggregates _ values otherwise _ => by
      rw [TableFactor.standing, TableFactor.parts, Standing.parts_append, table.parts_standing,
        Atom.parts_standing, List.flatMap_append, List.flatMap_append,
        ← SelectItem.partsList_atoms, ← values.parts_atoms, ← Expr.partsOption_eq,
        List.append_assoc, List.append_assoc, List.append_assoc]
  | .unpivot table _ _ _ _ => by
      rw [TableFactor.standing, TableFactor.parts, table.parts_standing]

end

/-! ## Selects, bodies and queries -/

/-- What stands in tables and their joins. -/
def TableTree.standingList (s : Surroundings) (trees : List TableTree) : List Standing :=
  trees.flatMap (TableTree.standing s)

/-- What stands in a select, clause by clause. -/
def Select.standing (s : Surroundings) (select : Select) : List Standing :=
  Atom.standing s select.distinct.atoms ++
    Atom.standing s.unvisited (Expr.atomsOption select.topCount) ++
    Atom.standing s (select.items.flatMap SelectItem.atoms) ++
    TableTree.standingList s select.sources ++
    Atom.standing s.unvisited (Expr.atomsList select.lateralRows) ++
    Atom.standing s (Expr.atomsOption select.filter) ++
    Atom.standing s select.groupBy.atoms ++
    Atom.standing s.unvisited (Expr.atomsList select.clusterBy) ++
    Atom.standing s.unvisited (Expr.atomsList select.distributeBy) ++
    Atom.standing s.unvisited (Expr.atomsList select.sortBy) ++
    Atom.standing s (Expr.atomsOption select.having) ++
    Atom.standing s.unvisited (select.windows.flatMap NamedWindow.atoms) ++
    Atom.standing s.unvisited (Expr.atomsOption select.windowFilter)

def Insert.atoms (i : Insert) : List Atom :=
  [.query i.source] ++ Expr.atomsList i.partition ++ i.assignments.flatMap Assignment.atoms ++
    Expr.atomsOption i.filter ++ i.returning.flatMap SelectItem.atoms

def Update.standing (s : Surroundings) (u : Update) : List Standing :=
  u.table.standing s ++ Atom.standing s (u.assignments.flatMap Assignment.atoms) ++
    TableTree.standingList s u.sources ++ Atom.standing s (Expr.atomsOption u.filter) ++
    Atom.standing s (u.returning.flatMap SelectItem.atoms)

/-- What stands in a body. Rows of values, insertions and changes of rows are not visited. -/
def Body.standing (s : Surroundings) : Body → List Standing
  | .select own => own.standing s
  | .parens query => [⟨s, .query query⟩]
  | .setOperation _ _ left right => left.standing s ++ right.standing s
  | .values _ rows => Atom.standing s.unvisited (Expr.atomsLists rows)
  | .defaultValues => []
  | .table _ => []
  | .insert i => Atom.standing s.unvisited i.atoms
  | .update u => u.standing s.unvisited
termination_by structural b => b

def Cte.standing (isRecursive : Bool) : Surroundings → List Cte → List Standing
  | _, [] => []
  | s, c :: cs =>
    ⟨if isRecursive then s.declare c else s, .query c.query⟩ ::
      Cte.standing isRecursive (s.declare c) cs

/-- What surrounds the body of a query. -/
def Query.within (s : Surroundings) (q : Query) : Surroundings :=
  q.ctes.foldl Surroundings.declare s

/-- What stands in a query. The bounds on the number of rows are not visited. -/
def Query.standing (s : Surroundings) (q : Query) : List Standing :=
  Cte.standing q.isRecursive s q.ctes ++ q.body.standing (q.within s) ++
    Atom.standing (q.within s) (OrderItem.atomsList q.orderBy) ++
    Atom.standing (q.within s).unvisited (Expr.atomsOption q.limit) ++
    Atom.standing (q.within s).unvisited (Expr.atomsOption q.offset)

theorem TableTree.partsList_standing (s : Surroundings) (trees : List TableTree) :
    Standing.parts (TableTree.standingList s trees) = TableTree.partsList trees := by
  rw [TableTree.partsList_eq]
  unfold Standing.parts TableTree.standingList
  rw [List.flatMap_assoc]
  congr 1
  funext t
  exact t.parts_standing s

theorem Select.parts_standing (s : Surroundings) (select : Select) :
    Standing.parts (select.standing s) = select.parts := by
  simp only [Select.standing, Select.parts_eq, Standing.parts_append, Atom.parts_standing,
    TableTree.partsList_standing, Distinct.parts_atoms, GroupBy.parts_atoms, Expr.partsOption_eq,
    Expr.partsList_eq, SelectItem.partsList_atoms, NamedWindow.partsList_atoms]

theorem Insert.parts_atoms (i : Insert) : i.atoms.flatMap Atom.parts = i.parts := by
  simp only [Insert.atoms, Insert.parts_eq, List.flatMap_singleton, List.flatMap_append, Atom.parts,
    Expr.partsList_eq, Expr.partsOption_eq, Assignment.partsList_atoms, SelectItem.partsList_atoms]

theorem Update.parts_standing (s : Surroundings) (u : Update) :
    Standing.parts (u.standing s) = u.parts := by
  simp only [Update.standing, Update.parts_eq, Standing.parts_append, Atom.parts_standing,
    TableTree.parts_standing, TableTree.partsList_standing, Expr.partsOption_eq,
    Assignment.partsList_atoms, SelectItem.partsList_atoms]

theorem Body.parts_standing (s : Surroundings) :
    (b : Body) → Standing.parts (b.standing s) = b.parts
  | .select own => own.parts_standing s
  | .parens query => List.flatMap_singleton _ _
  | .setOperation _ _ left right => by
      rw [Body.standing, Body.parts, Standing.parts_append, left.parts_standing,
        right.parts_standing]
  | .values _ rows => by
      rw [Body.standing, Body.parts, Atom.parts_standing, Expr.partsLists_eq]
  | .defaultValues => rfl
  | .table _ => rfl
  | .insert i => by rw [Body.standing, Body.parts, Atom.parts_standing, i.parts_atoms]
  | .update u => by rw [Body.standing, Body.parts, u.parts_standing]

theorem Cte.partsList_standing (isRecursive : Bool) : (cs : List Cte) → (s : Surroundings) →
    Standing.parts (Cte.standing isRecursive s cs) = Cte.partsList cs
  | [], _ => rfl
  | .mk _ _ query _ :: cs, s => by
      rw [Cte.partsList, Cte.parts, ← Cte.partsList_standing isRecursive cs (s.declare _)]
      rfl

theorem Query.parts_eq_standing (s : Surroundings) (q : Query) :
    q.parts = .query q :: Standing.parts (q.standing s) := by
  obtain ⟨isRecursive, ctes, body, orderBy, limit, offset, offsetWord, fetch, locks⟩ := q
  simp only [Query.parts, Query.standing, Standing.parts_append, Cte.partsList_standing,
    Body.parts_standing, Atom.parts_standing, OrderItem.partsList_eq, Expr.partsOption_eq]

variable {s : Surroundings} {q : Query}

theorem Query.parts_length_lt {t : Standing} (ht : t ∈ q.standing s) {r : Query}
    (hr : t.part = .query r) : r.parts.length < q.parts.length := by
  have hsub : t.part.parts.Sublist (Standing.parts (q.standing s)) :=
    List.sublist_flatten_of_mem (List.mem_map.mpr ⟨t, ht, rfl⟩)
  rw [hr] at hsub
  rw [q.parts_eq_standing s, List.length_cons]
  exact Nat.lt_succ_of_le hsub.length_le

/-- What holds of a query if it holds of all queries that stand in it holds of every query. -/
theorem Query.standing_induction {P : Surroundings → Query → Prop}
    (h : ∀ s q, (∀ t ∈ q.standing s, ∀ r, t.part = .query r → P t.around r) → P s q)
    (s : Surroundings) (q : Query) : P s q :=
  h s q fun t _ r _ => Query.standing_induction h t.around r
termination_by q.parts.length
decreasing_by exact Query.parts_length_lt ‹_› ‹_›

/-! ## Tables at any depth -/

/-- A table that is read somewhere in a query. -/
structure TableRead where
  name : ObjectName
  label : Option TableAlias
  around : Surroundings

/-- The tables that a query reads, in the order of the walk. -/
def Query.reads (s : Surroundings) (q : Query) : List TableRead :=
  (q.standing s).attach.flatMap fun ⟨t, ht⟩ =>
    match hp : t.part with
    | .table name label => [⟨name, label, t.around⟩]
    | .query r =>
      have : r.parts.length < q.parts.length := Query.parts_length_lt ht hp
      r.reads t.around
termination_by q.parts.length

/-- The tables that are read in what stands at a place. -/
def Standing.reads (t : Standing) : List TableRead :=
  match t.part with
  | .table name label => [⟨name, label, t.around⟩]
  | .query r => r.reads t.around

theorem Query.reads_eq (s : Surroundings) (q : Query) :
    q.reads s = (q.standing s).flatMap Standing.reads := by
  rw [Query.reads]
  conv_rhs => rw [← List.attach_map_subtype_val (q.standing s), List.flatMap_map]
  congr 1
  funext ⟨t, ht⟩
  obtain ⟨around, part⟩ := t
  cases part <;> rfl

theorem Query.allTables_eq_reads (s : Surroundings) (q : Query) :
    q.allTables = (q.reads s).map fun r => (r.name, r.label) := by
  induction s, q using Query.standing_induction with
  | h s q ih =>
    rw [q.reads_eq, List.map_flatMap]
    unfold Query.allTables
    rw [q.parts_eq_standing s]
    unfold Standing.parts
    rw [List.filterMap_cons, List.filterMap_flatMap]
    refine List.flatMap_congr fun t ht => ?_
    obtain ⟨around, part⟩ := t
    cases part with
    | table name label => rfl
    | query r => exact ih _ ht r rfl

/-! ## Names in view -/

/-- What stands at some places sees the common tables of `s`, and is visited only if that is. -/
def Surroundings.Covers (s : Surroundings) (standing : List Standing) : Prop :=
  ∀ t ∈ standing, t.around = s ∨ t.around = s.unvisited

section covers

variable {s : Surroundings}

theorem covers_append {as bs : List Standing} :
    s.Covers (as ++ bs) ↔ s.Covers as ∧ s.Covers bs :=
  List.forall_mem_append

theorem covers_atoms (atoms : List Atom) : s.Covers (Atom.standing s atoms) := by
  intro t ht
  obtain ⟨q, -, rfl⟩ := List.mem_map.mp ht
  exact Or.inl rfl

theorem Surroundings.Covers.of_unvisited {standing : List Standing}
    (h : s.unvisited.Covers standing) : s.Covers standing := by
  intro t ht
  rcases h t ht with h | h <;> exact Or.inr h

theorem covers_unvisited (atoms : List Atom) : s.Covers (Atom.standing s.unvisited atoms) :=
  (covers_atoms atoms).of_unvisited

mutual

theorem TableTree.covers : (t : TableTree) → {s : Surroundings} → s.Covers (t.standing s)
  | .mk first joins, _ => by
      rw [TableTree.standing]
      exact covers_append.mpr ⟨first.covers, Join.coversList joins⟩

theorem Join.coversList : (js : List Join) → {s : Surroundings} → s.Covers (Join.standingList s js)
  | [], _ => by
      intro t ht
      cases ht
  | j :: js, _ => by
      rw [Join.standingList]
      exact covers_append.mpr ⟨j.covers, Join.coversList js⟩

theorem Join.covers : (j : Join) → {s : Surroundings} → s.Covers (j.standing s)
  | .mk _ _ factor matching condition, _ => by
      rw [Join.standing]
      exact covers_append.mpr
        ⟨factor.covers, covers_append.mpr ⟨covers_unvisited _, covers_atoms _⟩⟩

theorem TableFactor.covers : (f : TableFactor) → {s : Surroundings} → s.Covers (f.standing s)
  | .table name _ label hints, s => by
      intro t ht
      rw [TableFactor.standing] at ht
      rcases List.mem_cons.mp ht with rfl | ht
      · exact Or.inl rfl
      · exact covers_unvisited _ t ht
  | .tableFunction _ _ _ _ _, _ => covers_unvisited _
  | .lateralFunction _ _ _, _ => covers_unvisited _
  | .tableOf _ _, _ => covers_unvisited _
  | .unnest _ _ _ _, _ => covers_unvisited _
  | .derived _ _ _, _ => by
      intro t ht
      rw [TableFactor.standing] at ht
      exact Or.inl (List.mem_singleton.mp ht ▸ rfl)
  | .nested tables _, _ => tables.covers
  | .document _ _ _ _, _ => covers_unvisited _
  | .pivot table _ _ _ _ _, _ => by
      rw [TableFactor.standing]
      exact covers_append.mpr ⟨table.covers.of_unvisited, covers_unvisited _⟩
  | .unpivot table _ _ _ _, _ => by
      rw [TableFactor.standing]
      exact table.covers.of_unvisited

end

theorem TableTree.coversList (trees : List TableTree) : s.Covers (TableTree.standingList s trees) := by
  intro t ht
  obtain ⟨tree, -, ht⟩ := List.mem_flatMap.mp ht
  exact tree.covers t ht

theorem Update.covers (u : Update) : s.Covers (u.standing s) := by
  simp only [Update.standing, covers_append, covers_atoms, TableTree.covers, TableTree.coversList,
    and_self]

theorem Body.covers : (b : Body) → {s : Surroundings} → s.Covers (b.standing s)
  | .select own, _ => by
      simp only [Body.standing, Select.standing, covers_append, covers_atoms, covers_unvisited,
        TableTree.coversList, and_self]
  | .parens query, _ => by
      intro t ht
      exact Or.inl (List.mem_singleton.mp ht ▸ rfl)
  | .setOperation _ _ left right, _ => by
      rw [Body.standing]
      exact covers_append.mpr ⟨left.covers, right.covers⟩
  | .values _ _, _ => covers_unvisited _
  | .defaultValues, _ => by
      intro t ht
      cases ht
  | .table _, _ => by
      intro t ht
      cases ht
  | .insert _, _ => covers_unvisited _
  | .update u, _ => u.covers.of_unvisited

end covers

/-- Common tables see names around them and names that are declared beside them. -/
theorem Cte.standing_around (isRecursive : Bool) : (cs : List Cte) → {s : Surroundings} →
    ∀ t ∈ Cte.standing isRecursive s cs,
      t.around.ctes ⊆ cs.map Cte.lowerName ++ s.ctes ∧ t.around.visited = s.visited
  | [], _, t, ht => by cases ht
  | c :: cs, s, t, ht => by
      rcases List.mem_cons.mp ht with rfl | ht
      · cases isRecursive with
        | false => exact ⟨List.subset_append_right _ _, rfl⟩
        | true => exact ⟨List.cons_subset_cons _ (List.subset_append_right _ _), rfl⟩
      · obtain ⟨hctes, hvisited⟩ := Cte.standing_around isRecursive cs t ht
        refine ⟨List.Subset.trans hctes ?_, hvisited⟩
        intro n hn
        simp only [List.mem_append, List.map_cons, List.mem_cons, Surroundings.declare] at hn ⊢
        tauto

theorem Query.within_eq (s : Surroundings) (q : Query) :
    q.within s = ⟨(q.ctes.map Cte.lowerName).reverse ++ s.ctes, s.visited⟩ := by
  unfold Query.within
  generalize q.ctes = cs
  induction cs generalizing s with
  | nil => rfl
  | cons c cs ih =>
    rw [List.foldl_cons, ih]
    simp [Surroundings.declare]

/-- What stands in a query sees names around it and the names of its common tables, and is visited
only if the query is. -/
theorem Query.standing_around {t : Standing} (ht : t ∈ q.standing s) :
    t.around.ctes ⊆ q.ctes.map Cte.lowerName ++ s.ctes ∧
      (t.around.visited = true → s.visited = true) := by
  have hcovers : (q.within s).Covers (q.body.standing (q.within s) ++
      Atom.standing (q.within s) (OrderItem.atomsList q.orderBy) ++
      Atom.standing (q.within s).unvisited (Expr.atomsOption q.limit) ++
      Atom.standing (q.within s).unvisited (Expr.atomsOption q.offset)) := by
    simp only [covers_append, covers_atoms, covers_unvisited, Body.covers, and_self]
  have hinner : ∀ n ∈ (q.within s).ctes, n ∈ q.ctes.map Cte.lowerName ++ s.ctes := by
    intro n hn
    simpa only [q.within_eq s, List.mem_append, List.mem_reverse] using hn
  unfold Query.standing at ht
  simp only [List.append_assoc] at ht hcovers
  rcases List.mem_append.mp ht with ht | ht
  · obtain ⟨hctes, hvisited⟩ := Cte.standing_around _ _ t ht
    exact ⟨hctes, fun h => hvisited ▸ h⟩
  · rcases hcovers t ht with h | h <;> rw [h]
    · refine ⟨hinner, ?_⟩
      rw [q.within_eq s]
      exact id
    · exact ⟨hinner, fun h => absurd h Bool.false_ne_true⟩

/-- A query declares the names of its own common tables and those declared in what stands in it. -/
theorem Query.cteNames_standing (s : Surroundings) (q : Query) :
    q.cteNames = q.ctes.map Cte.lowerName ++
      (q.standing s).flatMap fun t => declaredNames t.part.parts := by
  rw [q.cteNames_eq, q.parts_eq_standing s]
  unfold declaredNames Standing.parts
  rw [List.flatMap_cons, List.flatMap_assoc]

/-- The common tables in view of a table are declared in the query, or were in view around it. -/
theorem Query.reads_around {r : TableRead} (hr : r ∈ q.reads s) :
    r.around.ctes ⊆ q.cteNames ++ s.ctes := by
  induction s, q using Query.standing_induction with
  | h s q ih =>
    rw [q.reads_eq] at hr
    obtain ⟨t, ht, hr⟩ := List.mem_flatMap.mp hr
    obtain ⟨hctes, -⟩ := Query.standing_around ht
    rw [q.cteNames_standing s]
    obtain ⟨around, part⟩ := t
    cases part with
    | table name label =>
      obtain rfl := List.mem_singleton.mp hr
      intro n hn
      have hmem := hctes hn
      simp only [List.mem_append] at hmem ⊢
      tauto
    | query q' =>
      intro n hn
      have hmem := ih _ ht q' rfl hr hn
      rw [q'.cteNames_eq] at hmem
      rcases List.mem_append.mp hmem with hmem | hmem
      · refine List.mem_append_left _ (List.mem_append_right _ ?_)
        exact List.mem_flatMap.mpr ⟨_, ht, hmem⟩
      · have hmem := hctes hmem
        simp only [List.mem_append] at hmem ⊢
        tauto

/-! ## Places that correspond -/

/-- The read of another table at the same place, under the same alias. -/
def TableRead.rename (g : TableRead → ObjectName) (r : TableRead) : TableRead :=
  { r with name := g r }

/-- What stands at a place in one query corresponds to what stands at that place in another one:
tables are renamed by `g`, and queries are related by `R`. -/
inductive Standing.Matches (R : Surroundings → Query → Query → Prop) (g : TableRead → ObjectName) :
    Standing → Standing → Prop
  | table {s : Surroundings} {name : ObjectName} {label : Option TableAlias} :
    Matches R g ⟨s, .table name label⟩ ⟨s, .table (g ⟨name, label, s⟩) label⟩
  | query {s : Surroundings} {q₀ q : Query} (h : R s q₀ q) :
    Matches R g ⟨s, .query q₀⟩ ⟨s, .query q⟩

/-- Related queries declare common tables of the same names, and what stands in them corresponds
place by place. -/
structure Simulation (R : Surroundings → Query → Query → Prop) (g : TableRead → ObjectName) :
    Prop where
  /-- The common tables have the same names. -/
  names : ∀ {s : Surroundings} {q₀ q : Query}, R s q₀ q →
    q.ctes.map Cte.lowerName = q₀.ctes.map Cte.lowerName
  /-- What stands in the queries corresponds. -/
  standing : ∀ {s : Surroundings} {q₀ q : Query}, R s q₀ q →
    List.Forall₂ (Standing.Matches R g) (q₀.standing s) (q.standing s)

section simulations

variable {R : Surroundings → Query → Query → Prop} {g : TableRead → ObjectName}

/-- Lists whose elements correspond are mapped alike if corresponding elements are. -/
theorem forall₂_flatMap_eq {α β γ : Type} {r : α → β → Prop} {f : α → List γ} {f' : β → List γ}
    {as : List α} {bs : List β} (h : List.Forall₂ r as bs)
    (hf : ∀ a ∈ as, ∀ b, r a b → f' b = f a) : bs.flatMap f' = as.flatMap f := by
  induction h with
  | nil => rfl
  | @cons a b as bs hab _ ih =>
    have hrest := ih fun a' ha' => hf a' (List.mem_cons_of_mem _ ha')
    rw [List.flatMap_cons, List.flatMap_cons, hf a List.mem_cons_self b hab, hrest]

/-- Related queries read the same tables at the same places, up to their names. -/
theorem Simulation.reads (h : Simulation R g) {q₀ : Query} (hq : R s q₀ q) :
    q.reads s = (q₀.reads s).map (TableRead.rename g) := by
  induction s, q₀ using Query.standing_induction generalizing q with
  | h s q₀ ih =>
    rw [q.reads_eq, q₀.reads_eq, List.map_flatMap]
    refine forall₂_flatMap_eq (h.standing hq) ?_
    intro a ha b hab
    cases hab with
    | table => rfl
    | query hr => exact ih _ ha _ rfl hr

theorem Simulation.cteNames (h : Simulation R g) {q₀ : Query} (hq : R s q₀ q) :
    q.cteNames = q₀.cteNames := by
  induction s, q₀ using Query.standing_induction generalizing q with
  | h s q₀ ih =>
    rw [q.cteNames_standing s, q₀.cteNames_standing s, h.names hq]
    congr 1
    refine forall₂_flatMap_eq (h.standing hq) ?_
    intro a ha b hab
    cases hab with
    | table => rfl
    | @query s' r₀ r hr =>
      have hnames := ih _ ha _ rfl hr
      rwa [r.cteNames_eq, r₀.cteNames_eq] at hnames

end simulations

end ColumnLineage
