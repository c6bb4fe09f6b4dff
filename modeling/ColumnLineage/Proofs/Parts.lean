import ColumnLineage.Lineage.Builder
import ColumnLineage.Proofs.Atoms

/-!
# Where parts lie

A query holds the parts of its body and of its common tables, a select those of its items and of
its sources, and so on down. The lists of parts are sublists, so a part that occurs once in a query
occurs in one place inside it only.
-/

namespace ColumnLineage

/-! ## Lists -/

theorem Cte.partsList_eq (cs : List Cte) : Cte.partsList cs = cs.flatMap fun c => c.query.parts := by
  induction cs with
  | nil => rfl
  | cons c cs ih =>
    obtain ⟨label, materialized, query, source⟩ := c
    rw [Cte.partsList, Cte.parts, ih]
    rfl

theorem SelectItem.partsList_eq (items : List SelectItem) :
    SelectItem.partsList items = items.flatMap SelectItem.parts := by
  induction items with
  | nil => rfl
  | cons i is ih => rw [SelectItem.partsList, ih, List.flatMap_cons]

theorem TableTree.partsList_eq (trees : List TableTree) :
    TableTree.partsList trees = trees.flatMap TableTree.parts := by
  induction trees with
  | nil => rfl
  | cons t ts ih => rw [TableTree.partsList, ih, List.flatMap_cons]

/-! ## Tables -/

mutual

theorem TableTree.factors_parts :
    (t : TableTree) → (t.factors.flatMap TableFactor.parts).Sublist t.parts
  | .mk first joins => by
      rw [TableTree.factors, TableTree.parts, List.flatMap_append]
      exact first.factors_parts.append (Join.factorsList_parts joins)

theorem Join.factorsList_parts :
    (js : List Join) → ((Join.factorsList js).flatMap TableFactor.parts).Sublist (Join.partsList js)
  | [] => List.Sublist.refl _
  | j :: js => by
      rw [Join.factorsList, Join.partsList, List.flatMap_append]
      exact j.factors_parts.append (Join.factorsList_parts js)

theorem Join.factors_parts : (j : Join) → (j.factors.flatMap TableFactor.parts).Sublist j.parts
  | .mk _ _ factor matching condition => by
      rw [Join.factors, Join.parts, List.append_assoc]
      exact factor.factors_parts.trans (List.sublist_append_left _ _)

theorem TableFactor.factors_parts :
    (f : TableFactor) → (f.factors.flatMap TableFactor.parts).Sublist f.parts
  | .nested tables _ => by
      rw [TableFactor.factors, TableFactor.parts]
      exact tables.factors_parts
  | .table _ _ _ _ => by simp [TableFactor.factors]
  | .tableFunction _ _ _ _ _ => by simp [TableFactor.factors]
  | .lateralFunction _ _ _ => by simp [TableFactor.factors]
  | .tableOf _ _ => by simp [TableFactor.factors]
  | .unnest _ _ _ _ => by simp [TableFactor.factors]
  | .derived _ _ _ => by simp [TableFactor.factors]
  | .document _ _ _ _ => by simp [TableFactor.factors]
  | .pivot _ _ _ _ _ _ => by simp [TableFactor.factors]
  | .unpivot _ _ _ _ _ => by simp [TableFactor.factors]

end

/-- The tables of a `FROM` clause, from left to right. -/
def Select.factors (s : Select) : List TableFactor :=
  s.sources.flatMap TableTree.factors

theorem Select.factors_parts (s : Select) :
    (s.factors.flatMap TableFactor.parts).Sublist (TableTree.partsList s.sources) := by
  rw [Select.factors, List.flatMap_assoc, TableTree.partsList_eq]
  exact List.Sublist.flatMap_right _ fun t _ => t.factors_parts

/-! ## Items -/

/-- The atoms of an item of a select. -/
def SelectItem.atoms : SelectItem → List Atom
  | .expr e _ => e.atoms
  | .star => []
  | .starOf _ => []

theorem SelectItem.readFrom (i : SelectItem) : ReadFrom i.atoms i.references := by
  cases i with
  | expr e label => exact e.readFrom
  | star => exact .nil _
  | starOf name => exact .nil _

theorem SelectItem.parts_eq (i : SelectItem) : i.parts = i.atoms.flatMap Atom.parts := by
  cases i with
  | expr e label =>
    rw [SelectItem.parts, e.parts_eq]
    rfl
  | star => rfl
  | starOf name => rfl

theorem SelectItem.references_parts (i : SelectItem) :
    (i.references.flatMap Reference.parts).Sublist i.parts := by
  rw [i.parts_eq]
  exact i.readFrom.parts_sublist

/-! ## Selects, bodies and queries -/

theorem Select.parts_eq (s : Select) :
    s.parts = s.distinct.parts ++ Expr.partsOption s.topCount ++ SelectItem.partsList s.items ++
      TableTree.partsList s.sources ++ Expr.partsList s.lateralRows ++ Expr.partsOption s.filter ++
      s.groupBy.parts ++ Expr.partsList s.clusterBy ++ Expr.partsList s.distributeBy ++
      Expr.partsList s.sortBy ++ Expr.partsOption s.having ++ NamedWindow.partsList s.windows ++
      Expr.partsOption s.windowFilter := by
  cases s
  rfl

theorem Insert.parts_eq (i : Insert) :
    i.parts = i.source.parts ++ Expr.partsList i.partition ++
      Assignment.partsList i.assignments ++ Expr.partsOption i.filter ++
      SelectItem.partsList i.returning := by
  cases i
  rfl

theorem Update.parts_eq (u : Update) :
    u.parts = u.table.parts ++ Assignment.partsList u.assignments ++
      TableTree.partsList u.sources ++ Expr.partsOption u.filter ++
      SelectItem.partsList u.returning := by
  cases u
  rfl

/-- The parts of the items of a select and those of its sources lie side by side. -/
theorem Select.parts_sublist (s : Select) :
    (SelectItem.partsList s.items ++ TableTree.partsList s.sources).Sublist s.parts := by
  rw [s.parts_eq]
  simp only [List.append_assoc]
  refine List.Sublist.trans ?_ (List.sublist_append_right _ _)
  refine List.Sublist.trans ?_ (List.sublist_append_right _ _)
  exact List.Sublist.append_left (List.sublist_append_left _ _) _

theorem Query.parts_sublist (q : Query) :
    (Cte.partsList q.ctes ++ q.body.parts).Sublist q.parts.tail := by
  obtain ⟨isRecursive, ctes, body, orderBy, limit, offset, offsetWord, fetch, locks⟩ := q
  rw [Query.parts]
  simp only [List.tail_cons, List.append_assoc]
  exact List.Sublist.append_left (List.sublist_append_left _ _) _

theorem Query.parts_eq_cons (q : Query) : q.parts = .query q :: q.parts.tail := by
  obtain ⟨isRecursive, ctes, body, orderBy, limit, offset, offsetWord, fetch, locks⟩ := q
  rfl

theorem Query.body_parts (q : Query) : q.body.parts.Sublist q.parts :=
  ((List.sublist_append_right _ _).trans q.parts_sublist).trans (List.tail_sublist _)

/-! ## Plain queries -/

/-- A select that has nothing but items and sources. -/
def Select.plain (items : List SelectItem) (sources : List TableTree) : Select where
  distinct := .unsaid
  top := .absent
  topCount := none
  items := items
  into := none
  sources := sources
  lateralViews := []
  lateralRows := []
  filter := none
  groupBy := .keys []
  clusterBy := []
  distributeBy := []
  sortBy := []
  having := none
  windows := []
  windowFilter := none
  windowsFirst := false

/-- A query that has nothing but common tables and a body. -/
def Query.plain (ctes : List Cte) (body : Body) : Query where
  isRecursive := false
  ctes := ctes
  body := body
  orderBy := []
  limit := none
  offset := none
  offsetWord := .absent
  fetch := none
  locks := []

theorem Query.parts_plain (ctes : List Cte) (items : List SelectItem) (sources : List TableTree) :
    (Query.plain ctes (.select (.plain items sources))).parts =
      .query (.plain ctes (.select (.plain items sources))) ::
        (Cte.partsList ctes ++ (SelectItem.partsList items ++ TableTree.partsList sources)) := by
  simp [Query.plain, Query.parts, Body.parts, Select.plain, Select.parts_eq, Distinct.parts,
    Expr.partsList, Expr.partsOption, GroupBy.parts, NamedWindow.partsList, OrderItem.partsList]

/-- An item that gives a column of a source under its own name. -/
def SelectItem.plain (label column : String) : SelectItem :=
  .expr (.path [⟨label, none⟩, ⟨column, none⟩]) (some ⟨column, none⟩)

def TableTree.plain (name : String) : TableTree :=
  .mk (.table ⟨[⟨name, none⟩]⟩ false none []) []

end ColumnLineage
