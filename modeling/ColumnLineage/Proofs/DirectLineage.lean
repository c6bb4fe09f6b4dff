import ColumnLineage.Lineage.Trace
import ColumnLineage.Proofs.Plans

/-!
# Lineage by plain recursion

The lineage of a column, read off the query itself. Every reference is followed to the end: the
body of a common table, a derived table, a scalar query or both sides of a set operation is walked
again each time it is read. Nothing is shared and nothing is remembered, and a name means what is
lexically visible where it stands.
-/

namespace ColumnLineage

/-! ## Sources -/

/-- What a source of a select is, by what is lexically visible. -/
inductive LexicalSource
  | table (reference : TableReference)
  /-- A query, with the column names that are declared for it. -/
  | query (spot : Spot) (declared : List String)
  | function

/-- Whether a source is a table that the catalog knows to have a column. -/
def LexicalSource.owns (catalog : Catalog) (column : String) : LexicalSource → Bool
  | .table r => (catalog.findTable? r).any (·.hasColumn column)
  | _ => false

/-- The member of a list that has only one. -/
def sole? {α : Type} : List α → Option α
  | [only] => some only
  | _ => none

namespace Spot

/-- The declaration that a reference means, with what it sees. -/
def binding? (s : Spot) (r : TableReference) : Option (Declaration × Env) :=
  if r.isBare then s.env.named? r.name else none

/-- The source that a table is, with its alias, at a position of a select. -/
def sourceOf? (s : Spot) (index : Nat) : TableFactor → Option (String × LexicalSource)
  | .table name _ label _ =>
    let r := TableReference.ofObjectName name
    let key := (label.map fun a => a.name.value).getD r.name
    match s.binding? r with
    | some (d, seen) =>
      some (key, .query (d.cte.query.spot d.place seen) (d.cte.columns.map Ident.value))
    | none => some (key, .table r)
  | .tableFunction name _ _ label _ =>
    some ((label.map fun a => a.name.value).getD (TableReference.ofObjectName name).name, .function)
  | .lateralFunction _ _ label => label.map fun a => (a.name.value, .function)
  | .tableOf _ label => label.map fun a => (a.name.value, .function)
  | .unnest _ _ label _ => label.map fun a => (a.name.value, .function)
  | .derived _ query label =>
    label.map fun a => (a.name.value, .query (query.spot (.source index :: s.place) s.env) a.columnNames)
  | .nested _ _ => none
  | .document _ _ _ _ => none
  | .pivot _ _ _ _ _ _ => none
  | .unpivot _ _ _ _ _ => none

/-- The sources of a select by their aliases in small letters, each with its alias. -/
def sources (s : Spot) (select : Select) : OrderedMap String (String × LexicalSource) :=
  .ofList (select.factors.zipIdx.filterMap fun (factor, i) =>
    (s.sourceOf? i factor).map fun (label, source) => (Text.toLower label, label, source))

/-- The source of a column without a qualifier: the only source, or the only table that the
catalog knows to have it. -/
def soleOwner? (s : Spot) (catalog : Catalog) (select : Select) (column : String) :
    Option (String × LexicalSource) :=
  let values := (s.sources select).values
  (sole? values).or (sole? (values.filter fun x => x.2.owns catalog column))

/-- The source that a column of a select is read from. -/
def sourceFor? (s : Spot) (catalog : Catalog) (select : Select) (qualifier : Option String)
    (column : String) : Option (String × LexicalSource) :=
  match qualifier with
  | some q => (s.sources select).get? (Text.toLower q)
  | none => s.soleOwner? catalog select column

end Spot

/-! ## Readings -/

/-- What a column is read from. -/
inductive Reading
  | base (reference : TableReference) (column : String)
  /-- A column behind an alias of the query. -/
  | label (label column : String)
  | nothing
  | column (spot : Spot) (target : Target)

namespace Spot

/-- What a column is read from in a select. -/
def read (s : Spot) (catalog : Catalog) (select : Select) (qualifier : Option String)
    (column : String) : Reading :=
  match s.sourceFor? catalog select qualifier column with
  | some (_, .table r) => .base r column
  | some (_, .query spot declared) => .column spot (declaredTarget declared column)
  | some (label, .function) => .label label column
  | none =>
    match qualifier with
    | some q => .label q column
    | none => .nothing

/-- What the reference at a position among those of an item is read from. -/
def readReference (s : Spot) (catalog : Catalog) (select : Select) (item k : Nat) :
    Reference → Reading
  | .column qualifier name => s.read catalog select qualifier name
  | .scalar q => .column (q.spot (.scalar item k :: s.place) s.env) (.index 0)

/-- What references are read from, the first at the given position. -/
def readReferences (s : Spot) (catalog : Catalog) (select : Select) (item : Nat) :
    Nat → List Reference → List Reading
  | _, [] => []
  | k, r :: rest =>
    s.readReference catalog select item k r :: s.readReferences catalog select item (k + 1) rest

/-- What an item of a select, or a column that its star gives, is read from. -/
def pickReadings (s : Spot) (catalog : Catalog) (select : Select) : SelectPick → List Reading
  | .item i item => s.readReferences catalog select i 0 item.references
  | .star qualifier column => [s.read catalog select qualifier column]

/-- What a column of the body at a spot is read from. Both sides of a set operation are read by
position. -/
def readings (s : Spot) (catalog : Catalog) (target : Target) : Except GraphError (List Reading) :=
  match s.body with
  | .select select => (select.pick target).map (s.pickReadings catalog select)
  | .setOperation _ _ left right =>
    (positionOf s.body.positionalNames target).map fun i =>
      [.column ⟨.left :: s.place, left, s.env⟩ (.index i),
        .column ⟨.right :: s.place, right, s.env⟩ (.index i)]
  | _ => .ok []

end Spot

/-! ## The recursion -/

/-- What several readings give together, if each gives something. -/
def gather (value? : Reading → Option (List String)) : List Reading → Option (List String)
  | [] => some []
  | r :: rest => (value? r).bind fun found => (gather value? rest).map (found ++ ·)

/-- What a reading gives, by the default parts of names, the aliases of the query and what columns
of bodies give. -/
def Reading.value? (d : Defaults) (aliases : OrderedMap String FullName)
    (deeper : Spot → Target → Option (List String)) : Reading → Option (List String)
  | .base r c => some [(FullName.resolve r d).column c]
  | .label l c => some (((aliases.get? (Text.toLower l)).map (·.column c)).toList)
  | .nothing => some []
  | .column spot target => deeper spot target

/-- The lineage of a column of the body at a spot, with the given number of levels left. -/
def Spot.lineage (catalog : Catalog) (d : Defaults) (aliases : OrderedMap String FullName) :
    Nat → Spot → Target → Option (List String)
  | 0, _, _ => none
  | n + 1, s, target =>
    match s.opened.readings catalog target with
    | .ok readings => gather (Reading.value? d aliases (Spot.lineage catalog d aliases n)) readings
    | .error _ => none

/-- The lineage of an output column of a query in order, if the recursion ends within the given
number of levels. -/
def Query.directLineage (q : Query) (catalog : Catalog) (d : Defaults) (n : Nat)
    (column : String) : Option (List String) :=
  ((q.spot [] []).lineage catalog d (q.aliases d) n (.name column)).map Text.sorted

/-! ## Recursions that end -/

/-- With enough levels there is a result, and it holds exactly certain texts. -/
def Converges (value? : Nat → Option (List String)) (P : String → Prop) : Prop :=
  ∃ n, ∀ m, n ≤ m → ∃ found, value? m = some found ∧ ∀ s, s ∈ found ↔ P s

theorem converges_const {found : List String} {P : String → Prop} (h : ∀ s, s ∈ found ↔ P s) :
    Converges (fun _ => some found) P :=
  ⟨0, fun _ _ => ⟨found, rfl, h⟩⟩

/-- Readings that all end give together what they give one by one. -/
theorem converges_gather {value? : Nat → Reading → Option (List String)}
    {P : Reading → String → Prop} : (readings : List Reading) →
      (∀ r ∈ readings, Converges (fun n => value? n r) (P r)) →
      Converges (fun n => gather (value? n) readings) fun s => ∃ r ∈ readings, P r s
  | [], _ => converges_const (by simp)
  | r :: rest, h => by
      obtain ⟨n₁, h₁⟩ := h r List.mem_cons_self
      obtain ⟨n₂, h₂⟩ :=
        converges_gather rest fun r' hr' => h r' (List.mem_cons_of_mem _ hr')
      refine ⟨max n₁ n₂, fun m hm => ?_⟩
      obtain ⟨first, hfirst, hmem₁⟩ := h₁ m (by omega)
      obtain ⟨others, hothers, hmem₂⟩ := h₂ m (by omega)
      refine ⟨first ++ others, ?_, ?_⟩
      · simp only [gather, hfirst, hothers, Option.bind_some, Option.map_some]
      · intro s
        simp only [List.mem_append, hmem₁, hmem₂, List.exists_mem_cons_iff]

theorem Spot.converges_lineage {catalog : Catalog} {d : Defaults}
    {aliases : OrderedMap String FullName} {s : Spot} {target : Target} {readings : List Reading}
    {P : Reading → String → Prop} (h : s.opened.readings catalog target = .ok readings)
    (hr : ∀ r ∈ readings,
      Converges (fun n => r.value? d aliases (Spot.lineage catalog d aliases n)) (P r)) :
    Converges (fun n => Spot.lineage catalog d aliases n s target)
      fun t => ∃ r ∈ readings, P r t := by
  obtain ⟨n, hn⟩ := converges_gather readings hr
  refine ⟨n + 1, fun m hm => ?_⟩
  obtain ⟨k, rfl⟩ : ∃ k, m = k + 1 := ⟨m - 1, by omega⟩
  obtain ⟨found, hf, hmem⟩ := hn k (by omega)
  refine ⟨found, ?_, hmem⟩
  simp only [Spot.lineage, h]
  exact hf

end ColumnLineage
