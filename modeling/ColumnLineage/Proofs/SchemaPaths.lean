import ColumnLineage.Proofs.ColumnRule
import ColumnLineage.Proofs.Idempotence
import ColumnLineage.Proofs.TableColumns

/-!
# Columns behind a schema and a table

A column may be written behind the name of its table, and the table behind its schema. Qualification
leaves out the schema, and what is left is looked up among the sources by the name of the table alone.
Of several tables with the same name in different schemas only the last one is found there.

* `Query.trace_schemaPath`: the trace of a column behind a schema and a table.
-/

namespace ColumnLineage

/-! ## Tables of schemas -/

/-- A table in a `FROM` clause that is written with its schema and without an alias. -/
structure SchemaTable where
  schema : Ident
  name : Ident
  numbered : Bool := false
  hints : List Expr := []

namespace SchemaTable

def objectName (t : SchemaTable) : ObjectName :=
  ⟨[t.schema, t.name]⟩

def factor (t : SchemaTable) : TableFactor :=
  .table t.objectName t.numbered none t.hints

def completed (d : Defaults) (t : SchemaTable) : TableFactor :=
  .table (t.objectName.complete d) t.numbered none t.hints

def key (t : SchemaTable) : String :=
  Text.toLower t.name.value

def fullName (t : SchemaTable) (d : Defaults) : FullName :=
  .ofObjectName t.objectName d

/-- Of a table and those behind it, the last one with the name of the table. -/
def lastNamesake (t : SchemaTable) (later : List SchemaTable) : SchemaTable :=
  (later.reverse.find? fun u => u.key = t.key).getD t

/-- Neither part of the name is empty or has a dot. -/
structure Plain (t : SchemaTable) : Prop where
  schema_ne : t.schema.value ≠ ""
  name_ne : t.name.value ≠ ""
  schema_dotless : '.' ∉ t.schema.value.toList
  name_dotless : '.' ∉ t.name.value.toList

variable {t u : SchemaTable} {front later : List SchemaTable} {d : Defaults}

theorem find?_lastNamesake (t : SchemaTable) (front later : List SchemaTable) :
    (front ++ t :: later).reverse.find? (fun u => u.key = t.key) = some (t.lastNamesake later) := by
  rw [List.reverse_append, List.reverse_cons, List.append_assoc, List.find?_append,
    List.singleton_append, List.find?_cons_of_pos (by simp), lastNamesake]
  cases later.reverse.find? fun u => u.key = t.key <;> rfl

theorem lastNamesake_key (t : SchemaTable) (later : List SchemaTable) :
    (t.lastNamesake later).key = t.key := by
  simpa using List.find?_some (find?_lastNamesake t [] later)

/-- A table behind which its name does not occur is the last one of the name. -/
theorem lastNamesake_eq_self (h : ∀ u ∈ later, u.key ≠ t.key) : t.lastNamesake later = t := by
  have hnone : later.reverse.find? (fun u => u.key = t.key) = none := by
    rw [List.find?_eq_none]
    intro u hu
    simpa using h u (List.mem_reverse.mp hu)
  rw [lastNamesake, hnone, Option.getD_none]

/-- If the name does occur there, the last one of the name is there. -/
theorem lastNamesake_mem (hu : u ∈ later) (hkey : u.key = t.key) : t.lastNamesake later ∈ later := by
  cases hfound : later.reverse.find? fun u => u.key = t.key with
  | none =>
    have hne := List.find?_eq_none.mp hfound u (List.mem_reverse.mpr hu)
    exact absurd hkey (by simpa using hne)
  | some last =>
    rw [lastNamesake, hfound, Option.getD_some]
    exact List.mem_reverse.mp (List.mem_of_find?_eq_some hfound)

theorem reference_completed (t : SchemaTable) (d : Defaults) :
    TableReference.ofObjectName (t.objectName.complete d) =
      ⟨d.catalog, some t.schema.value, t.name.value⟩ := by
  have hparts : t.objectName.parts ≠ [] := List.cons_ne_nil _ _
  rw [TableReference.ofObjectName_complete hparts]
  rfl

theorem resolve_completed (t : SchemaTable) (d : Defaults) :
    FullName.resolve ⟨d.catalog, some t.schema.value, t.name.value⟩ d = t.fullName d := by
  obtain ⟨catalog, schema⟩ := d
  cases catalog <;> rfl

theorem Plain.parts_fullName (h : t.Plain) (d : Defaults) :
    (t.fullName d).parts =
      d.catalog.toList.filter (· ≠ "") ++ [t.schema.value, t.name.value] := by
  have hown : [t.schema.value, t.name.value].filter (· ≠ "") = [t.schema.value, t.name.value] := by
    simp [h.schema_ne, h.name_ne]
  have hparts : (t.fullName d).parts =
      (d.catalog.toList ++ [t.schema.value, t.name.value]).filter (· ≠ "") := by
    obtain ⟨catalog, schema⟩ := d
    cases catalog <;> rfl
  rw [hparts, List.filter_append, hown]

theorem intercalate_concat (a : String) (as : List String) (last : String) :
    ".".intercalate (a :: (as ++ [last])) = dotted (".".intercalate (a :: as)) last := by
  induction as generalizing a with
  | nil =>
    rw [List.nil_append, String.intercalate_cons_cons, String.intercalate_singleton,
      String.intercalate_singleton, dotted]
  | cons b bs ih =>
    rw [List.cons_append, String.intercalate_cons_cons, ih, String.intercalate_cons_cons]
    simp only [dotted, String.append_assoc]

/-- Plain tables with the same full name have the same schema and the same name. -/
theorem Plain.parts_eq (ht : t.Plain) (hu : u.Plain)
    (h : (t.fullName d).text = (u.fullName d).text) :
    t.schema.value = u.schema.value ∧ t.name.value = u.name.value := by
  rw [FullName.text, FullName.text, ht.parts_fullName, hu.parts_fullName] at h
  generalize d.catalog.toList.filter (· ≠ "") = catalog at h
  cases catalog with
  | nil =>
    have hconcat := fun schema name : String => intercalate_concat schema [] name
    simp only [List.nil_append, String.intercalate_singleton] at hconcat h
    rw [hconcat, hconcat] at h
    exact dotted_inj ht.name_dotless hu.name_dotless h
  | cons c cs =>
    have hsplit : ∀ schema name : String, c :: cs ++ [schema, name] =
        c :: ((cs ++ [schema]) ++ [name]) := fun schema name => by simp
    rw [hsplit, hsplit, intercalate_concat, intercalate_concat, intercalate_concat,
      intercalate_concat] at h
    obtain ⟨hfront, hname⟩ := dotted_inj ht.name_dotless hu.name_dotless h
    exact ⟨(dotted_inj ht.schema_dotless hu.schema_dotless hfront).2, hname⟩

/-- Among plain tables with distinct names, the last namesake of a table has its full name exactly if
no table behind it has its name. -/
theorem text_lastNamesake_eq_iff (hplain : ∀ u ∈ t :: later, u.Plain)
    (hdistinct : ((t :: later).map fun u => (u.schema.value, u.name.value)).Nodup) :
    ((t.lastNamesake later).fullName d).text = (t.fullName d).text ↔
      ∀ u ∈ later, u.key ≠ t.key := by
  constructor
  · intro htext u hu hkey
    have hlast := lastNamesake_mem hu hkey
    obtain ⟨hschema, hname⟩ := (hplain _ (List.mem_cons_of_mem t hlast)).parts_eq
      (hplain t List.mem_cons_self) htext
    exact (List.nodup_cons.mp hdistinct).1
      (List.mem_map.mpr ⟨_, hlast, Prod.ext hschema hname⟩)
  · intro h
    rw [lastNamesake_eq_self h]

end SchemaTable

/-! ## Which table is found -/

section lookup

variable {x : Qualifier} {v : Visible}

/-- Under a key, a scope has the last of the labels that come there. -/
theorem Registers.label_eq {scope scope' : Scope} {factors factors' : List TableFactor}
    {starts : List Scope} (h : Registers x v scope factors factors' starts scope') (key : String) :
    (scope'.sources.get? key).map Source.label =
      ((factors.filterMap TableFactor.label?).reverse.find? fun l =>
        Text.toLower l.value = key).or ((scope.sources.get? key).map Source.label) := by
  induction h with
  | nil => rfl
  | add hf _ ih =>
    rw [ih]
    obtain ⟨hl, rfl⟩ | ⟨label, columns, hl, rfl⟩ := hf.eq_or_register
    · rw [List.filterMap_cons_none hl]
    · rw [List.filterMap_cons_some hl, List.reverse_cons, List.find?_append, Option.or_assoc,
        Scope.register, OrderedMap.get?_insert]
      congr 1
      by_cases hkey : Text.toLower label.value = key
      · rw [if_pos hkey, List.find?_cons_of_pos (by simpa using hkey)]
        rfl
      · rw [if_neg hkey, List.find?_cons_of_neg (by simpa using hkey)]
        rfl
  | merge _ ih => rw [ih, Scope.merge_sources]

variable {d : Defaults} {named : SchemaTable} {front later : List SchemaTable}

/-- Tables with schemas give the label of the last one of a name. -/
theorem Registers.label_lastNamesake {scope : Scope} {factors' : List TableFactor}
    {starts : List Scope}
    (h : Registers x v {} ((front ++ named :: later).map SchemaTable.factor) factors' starts scope) :
    (scope.sources.get? named.key).map Source.label = some (named.lastNamesake later).name := by
  rw [h.label_eq, List.filterMap_map]
  have hlabels : (front ++ named :: later).filterMap (TableFactor.label? ∘ SchemaTable.factor) =
      (front ++ named :: later).map SchemaTable.name := by
    rw [← List.filterMap_eq_map]
    rfl
  rw [hlabels, ← List.map_reverse, List.find?_map, Function.comp_def]
  change (Option.map SchemaTable.name
    ((front ++ named :: later).reverse.find? fun u => u.key = named.key)).or _ = _
  rw [SchemaTable.find?_lastNamesake]
  rfl

/-- The table with its full name, as a table in a `FROM` clause. -/
def SchemaTable.fromTable (d : Defaults) (t : SchemaTable) : FromTable :=
  ⟨t.objectName.complete d, t.numbered, none, t.hints⟩

theorem SchemaTable.reference_fromTable (t : SchemaTable) :
    (t.fromTable d).reference = ⟨d.catalog, some t.schema.value, t.name.value⟩ :=
  t.reference_completed d

theorem SchemaTable.key_fromTable (t : SchemaTable) : (t.fromTable d).key = t.key := by
  change Text.toLower (t.fromTable d).reference.name = _
  rw [t.reference_fromTable]
  rfl

theorem boundIn_lastNamesake (place : Place) (ctes : List PlacedCte) {s : Select}
    (h : s.factors = (front ++ named :: later).map (SchemaTable.completed d)) :
    ((named.lastNamesake later).fromTable d).BoundIn (sourceMap place ctes s) := by
  have hfrom : s.factors =
      ((front ++ named :: later).map (SchemaTable.fromTable d)).map FromTable.factor := by
    rw [h, List.map_map]
    rfl
  -- A table behind a schema is never a common table.
  have hbase : ∀ t ∈ (front ++ named :: later).map (SchemaTable.fromTable d),
      visibleCte? ctes t.reference = none := by
    intro t ht
    obtain ⟨u, -, rfl⟩ := List.mem_map.mp ht
    rw [u.reference_fromTable, visibleCte?, TableReference.isBare, Option.isNone_some, Bool.and_false]
    rfl
  refine FromTable.boundIn_of_last hfrom hbase ?_
  rw [← List.map_reverse, List.find?_map, SchemaTable.key_fromTable, SchemaTable.lastNamesake_key]
  have hkeys : (fun t : FromTable => decide (t.key = named.key)) ∘ SchemaTable.fromTable d =
      fun t => decide (t.key = named.key) := by
    funext t
    rw [Function.comp_apply, t.key_fromTable]
  rw [hkeys, SchemaTable.find?_lastNamesake, Option.map_some]

end lookup

/-! ## Columns behind a schema and a table -/

theorem forall₂_append_cons {α β : Type} {R : α → β → Prop} {a : α} {more : List α} :
    {as : List α} → {bs : List β} → List.Forall₂ R (as ++ a :: more) bs →
      ∃ front b rest, bs = front ++ b :: rest ∧ List.Forall₂ R as front ∧ R a b
  | [], _, .cons hab _ => ⟨[], _, _, rfl, .nil, hab⟩
  | _ :: _, _, .cons hab h => by
      obtain ⟨front, b, rest, rfl, hfront, hb⟩ := forall₂_append_cons h
      exact ⟨_ :: front, b, rest, rfl, .cons hab hfront, hb⟩

section paths

variable {x : Qualifier} {v : Visible} {s₀ s : Select} {scope : Scope}
  {registered : List TableTree} {outputs : List String}

/-- Tables with schemas are no common tables, and so they get their full names. -/
theorem Select.Qualified.factors_completed (h : Select.Qualified x v s₀ s scope registered outputs)
    {tables : List SchemaTable} (hfrom : s₀.factors = tables.map SchemaTable.factor) :
    s.factors = tables.map (SchemaTable.completed x.defaults) := by
  have hfactors := h.factors
  rw [hfrom, List.forall₂_map_left_iff] at hfactors
  have hcompleted : List.Forall₂ (fun t f => SchemaTable.completed x.defaults t = f) tables
      s.factors := by
    refine hfactors.imp fun t f hregistered => ?_
    obtain ⟨start, next, hregistered⟩ := hregistered
    unfold SchemaTable.factor at hregistered
    cases hregistered with
    | table _ => rfl
    | other hnone _ _ _ => exact absurd rfl (hnone _ _ _ _)
  rw [← List.forall₂_map_left_iff, List.forall₂_eq_eq_eq] at hcompleted
  exact hcompleted.symm

variable {front later : List SchemaTable} {named : SchemaTable}

/-- The schema is left out, and the table is written as the last one of its name. -/
theorem Select.Qualified.qualifyPath_schema
    (h : Select.Qualified x v s₀ s scope registered outputs)
    (hfrom : s₀.factors = (front ++ named :: later).map SchemaTable.factor)
    {schema table column : Ident} (htable : Text.toLower table.value = named.key) :
    (v.withScope scope).qualifyPath [schema, table, column] =
      .path [(named.lastNamesake later).name, column] := by
  obtain ⟨source, hsource, hlabel⟩ := Option.map_eq_some_iff.mp
    (Registers.label_lastNamesake (hfrom ▸ h.registers))
  have hfound : (v.withScope scope).source? table.value = some source := by
    change (scope :: v.scopes).findSome? (fun s => s.get? table.value) = _
    rw [List.findSome?_cons, Scope.get?, htable, hsource]
  simp only [Visible.qualifyPath, List.reverse_cons, List.reverse_nil, List.nil_append,
    List.cons_append, hfound, hlabel]

end paths

/-- Let a qualified select read tables that are written with their schemas and without aliases, and
let an item be a column behind a schema and the name of one of the tables. In the result the item is
the column behind the last table of that name, and it is traced to the column of that table, as far as
the name of the column stands behind its last dot. So it is traced to the named table if no table
behind it has its name. For a column without dots, and for tables whose names differ and have neither
dots nor empty parts, it is traced there exactly if no table behind it has its name. -/
theorem Query.trace_schemaPath {x : Qualifier} {q q' : Query} (hq : x.qualify q = .ok q')
    {s₀ : Select} (hbody : q.body = .select s₀) {front later : List SchemaTable}
    {named : SchemaTable}
    (hfrom : s₀.factors = (front ++ named :: later).map SchemaTable.factor)
    {before after : List SelectItem} {schema table column : Ident} {label : Option Ident}
    (hitems : s₀.items = before ++ .expr (.path [schema, table, column]) label :: after)
    (htable : Text.toLower table.value = named.key) :
    ∃ (s : Select) (r : Rewriting) (pieces : List (List SelectItem)) (name : Ident)
        (rest : List SelectItem),
      q'.body = .select s ∧ List.Forall₂ (SelectItem.Becomes r) before pieces ∧
      s.items = pieces.flatten ++
        .expr (.path [(named.lastNamesake later).name, column]) (some name) :: rest ∧
      ∀ limit,
        q'.traceOf x.catalog x.defaults (limit + 1) (.index pieces.flatten.length) =
          .ok [((named.lastNamesake later).fullName x.defaults).column
            (behindLastDot column.value)] ∧
        (∀ output, FirstNamesake q'.body.positionalNames output pieces.flatten.length →
          q'.trace x.catalog x.defaults (limit + 1) output =
            q'.traceOf x.catalog x.defaults (limit + 1) (.index pieces.flatten.length)) ∧
        ((∀ t ∈ later, t.key ≠ named.key) →
          q'.traceOf x.catalog x.defaults (limit + 1) (.index pieces.flatten.length) =
            .ok [(named.fullName x.defaults).column (behindLastDot column.value)]) ∧
        ('.' ∉ column.value.toList → (∀ t ∈ named :: later, t.Plain) →
          ((named :: later).map fun t => (t.schema.value, t.name.value)).Nodup →
          (q'.traceOf x.catalog x.defaults (limit + 1) (.index pieces.flatten.length) =
              .ok [(named.fullName x.defaults).column column.value] ↔
            ∀ t ∈ later, t.key ≠ named.key)) := by
  obtain ⟨⟨q₁, columns⟩, hqualify, hq⟩ := bind_eq_ok.mp hq
  obtain rfl := pure_eq_ok.mp hq
  obtain ⟨inner, scope?, -, hb, -, -⟩ := Query.qualify_eq_ok hqualify
  rw [hbody] at hb
  obtain ⟨s, scope, hs, hselect, -⟩ := Body.qualify_select hb
  obtain ⟨registered, outputs, hsel⟩ := Select.qualify_eq_ok hselect
  obtain ⟨-, all, hall, hbecomes⟩ := SelectItem.qualifyList_eq_ok s₀.items hsel.items
  rw [hitems] at hbecomes
  obtain ⟨pieces, piece, rest, rfl, hpieces, name, rfl⟩ := forall₂_append_cons hbecomes
  have hpath : (Expr.path [schema, table, column]).rewrite (x.rewriting (inner.withScope scope) []) =
      .path [(named.lastNamesake later).name, column] := hsel.qualifyPath_schema hfrom htable
  rw [hpath, List.flatten_append, List.flatten_cons, List.singleton_append] at hall
  have hitem : s.items[pieces.flatten.length]? =
      some (.expr (.path [(named.lastNamesake later).name, column]) (some name)) := by
    rw [hall, List.getElem?_append_right le_rfl, Nat.sub_self, List.getElem?_cons_zero]
  have hbound := boundIn_lastNamesake [] (placedCtes [] q'.ctes ++ []) (hsel.factors_completed hfrom)
  let read : TableColumn := ⟨(named.lastNamesake later).fromTable x.defaults, column.value⟩
  have htrace : ∀ limit,
      q'.traceOf x.catalog x.defaults (limit + 1) (.index pieces.flatten.length) =
        .ok [((named.lastNamesake later).fullName x.defaults).column
          (behindLastDot column.value)] := by
    intro limit
    have hreads : List.Forall₂ TableColumn.WrittenAs [read] [.column
        (some (named.lastNamesake later).name.value) column.value] :=
      .cons ⟨_, (named.lastNamesake later).key_fromTable.symm, rfl⟩ .nil
    have hbase : read.table.reference.isCteIn q'.cteNames = false := by
      rw [SchemaTable.reference_fromTable, TableReference.isCteIn]
      exact congrArg (· && _) (Bool.and_false _)
    have hfirst : read.firstIn [read] = read := TableColumn.firstIn_singleton read
    rw [Query.traceOf_reads hs hitem hreads (by simpa using hbound) (by simpa using hbase),
      List.map_singleton, hfirst]
    change Except.ok [(FullName.resolve read.table.reference x.defaults).column _] = _
    rw [SchemaTable.reference_fromTable, SchemaTable.resolve_completed]
  refine ⟨s, _, pieces, name, rest.flatten, hs, hpieces, hall, fun limit => ⟨htrace limit, ?_, ?_, ?_⟩⟩
  · intro output hfirst
    exact Query.trace_eq_of_firstNamesake hfirst _ _ _
  · intro hlast
    rw [htrace, SchemaTable.lastNamesake_eq_self hlast]
  · intro hdotless hplain hdistinct
    rw [htrace, behindLastDot_eq_self_iff.mpr hdotless, ok_eq_ok, List.cons_eq_cons, and_iff_left rfl, FullName.column_eq_iff]
    exact eq_comm.trans (SchemaTable.text_lastNamesake_eq_iff hplain hdistinct)

/-- `SELECT … FROM s.t, r.t` -/
def twoSchemas (item : SelectItem) : Select :=
  .plain [item] [.mk (SchemaTable.mk ⟨"s", none⟩ ⟨"t", none⟩ false []).factor [],
    .mk (SchemaTable.mk ⟨"r", none⟩ ⟨"t", none⟩ false []).factor []]

/-- The item `s.t.a` becomes `t.a` and is traced to `r.t`. -/
theorem Query.trace_schemaPath_twoSchemas :
    Qualifier.qualify ⟨⟨∅⟩, {}⟩ (.plain [] (.select (twoSchemas
        (.expr (.path [⟨"s", none⟩, ⟨"t", none⟩, ⟨"a", none⟩]) none)))) =
        .ok (.plain [] (.select (twoSchemas (.plain "t" "a")))) ∧
      (Query.plain [] (.select (twoSchemas (.plain "t" "a")))).traceOf ⟨∅⟩ {} 1 (.index 0) =
        .ok ["r.t.a"] ∧
      (Query.plain [] (.select (twoSchemas (.plain "t" "a")))).traceOf ⟨∅⟩ {} 1 (.index 0) ≠
        .ok ["s.t.a"] := by
  let named : SchemaTable := ⟨⟨"s", none⟩, ⟨"t", none⟩, false, []⟩
  let other : SchemaTable := ⟨⟨"r", none⟩, ⟨"t", none⟩, false, []⟩
  let item : SelectItem := .expr (.path [⟨"s", none⟩, ⟨"t", none⟩, ⟨"a", none⟩]) none
  have hq : Qualifier.qualify ⟨⟨∅⟩, {}⟩ (.plain [] (.select (twoSchemas item))) =
      .ok (.plain [] (.select (twoSchemas (.plain "t" "a")))) := rfl
  have hfrom : (twoSchemas item).factors = ([] ++ named :: [other]).map SchemaTable.factor := rfl
  have hitems : (twoSchemas item).items = [] ++ item :: [] := rfl
  obtain ⟨s, r, pieces, name, rest, -, hpieces, -, htrace⟩ :=
    Query.trace_schemaPath hq rfl hfrom hitems rfl
  cases hpieces
  obtain ⟨hlast, -, -, hiff⟩ := htrace 0
  have hcolumn : ((named.lastNamesake [other]).fullName {}).column (behindLastDot "a") = "r.t.a" := by
    decide
  have hnamed : (named.fullName {}).column "a" = "s.t.a" := by decide
  have hplain : ∀ t ∈ [named, other], t.Plain := by
    intro t ht
    rcases List.mem_cons.mp ht with rfl | ht
    · exact ⟨by decide, by decide, by decide, by decide⟩
    · obtain rfl := List.mem_singleton.mp ht
      exact ⟨by decide, by decide, by decide, by decide⟩
  refine ⟨hq, hcolumn ▸ hlast, fun h => ?_⟩
  exact (hiff (by decide) hplain (by decide)).mp (hnamed ▸ h) other List.mem_cons_self rfl

end ColumnLineage
