import ColumnLineage.Proofs.UnreadTables
import Mathlib.Data.List.Induction

/-!
# What is found in a catalog

A reference agrees with a stored table if each of its parts is missing or equal to that of the
table, ignoring case. A lookup counts the schemas with such tables, not the tables: namesakes in one
schema count once. A column is looked up ignoring case only, so it hides those behind it that differ
from it in nothing else.
-/

namespace ColumnLineage

/-! ## Names that agree -/

theorem Text.equalIgnoringCase_iff {s t : String} :
    equalIgnoringCase s t = true ↔ s.toList.map Char.toLower = t.toList.map Char.toLower :=
  beq_iff_eq

namespace OrderedMap

variable {α : Type} {m : OrderedMap String α} {name : String} {a : α}

theorem mem_of_getIgnoringCase? (h : m.getIgnoringCase? name = some a) :
    ∃ key, (key, a) ∈ m.entries ∧ Text.equalIgnoringCase name key = true := by
  rcases Option.or_eq_some_iff.mp h with h | ⟨-, h⟩
  · exact ⟨name, mem_of_get?_eq_some h, Text.equalIgnoringCase_refl name⟩
  · obtain ⟨⟨key, a⟩, he, rfl⟩ := Option.map_eq_some_iff.mp h
    refine ⟨key, List.mem_of_find?_eq_some he, ?_⟩
    rw [Text.equalIgnoringCase_comm]
    exact List.find?_some (p := fun e : String × α => Text.equalIgnoringCase e.1 name) he

theorem getIgnoringCase?_of_mem {key : String} (h : (key, a) ∈ m.entries)
    (hk : Text.equalIgnoringCase name key = true) : (m.getIgnoringCase? name).isSome := by
  unfold getIgnoringCase?
  rw [Option.isSome_or, Option.isSome_map, Bool.or_eq_true, List.find?_isSome]
  rw [Text.equalIgnoringCase_comm] at hk
  exact Or.inr ⟨_, h, hk⟩

end OrderedMap

/-! ## Tables that a reference agrees with -/

/-- A list whose elements are distinct gives one value if just one of them gives it. -/
theorem filterMap_eq_singleton_iff {α β : Type} {f : α → Option β} {as : List α} (h : as.Nodup)
    {b : β} : as.filterMap f = [b] ↔
      ∃ a ∈ as, f a = some b ∧ ∀ a' ∈ as, (f a').isSome → a' = a := by
  constructor
  · intro hone
    obtain ⟨front, a, rest, rfl, hfront, ha, hrest⟩ := List.filterMap_eq_cons_iff.mp hone
    refine ⟨a, by simp, ha, fun a' ha' hsome => ?_⟩
    rw [List.filterMap_eq_nil_iff] at hrest
    rcases List.mem_append.mp ha' with ha' | ha'
    · simp [hfront a' ha'] at hsome
    · rcases List.mem_cons.mp ha' with rfl | ha'
      · rfl
      · simp [hrest a' ha'] at hsome
  · rintro ⟨a, ha, hb, hsole⟩
    obtain ⟨front, rest, rfl⟩ := List.append_of_mem ha
    have hnone : ∀ a' ∈ front ++ rest, f a' = none := by
      intro a' ha'
      by_contra hsome
      have hmem : a' ∈ front ++ a :: rest := by
        rcases List.mem_append.mp ha' with ha' | ha' <;> simp [ha']
      obtain rfl := hsole a' hmem (Option.isSome_iff_ne_none.mpr hsome)
      exact (List.nodup_middle.mp h).notMem ha'
    refine List.filterMap_eq_cons_iff.mpr ⟨front, a, rest, rfl, ?_, hb, ?_⟩
    · exact fun a' ha' => hnone a' (List.mem_append_left _ ha')
    · exact List.filterMap_eq_nil_iff.mpr fun a' ha' => hnone a' (List.mem_append_right _ ha')

/-- A table with its path. -/
structure StoredTable where
  catalog : String
  schema : String
  name : String
  definition : TableDefinition

/-- A reference agrees with a table: its missing parts with anything, the others ignoring case. -/
def StoredTable.Agrees (e : StoredTable) (r : TableReference) : Prop :=
  Catalog.partAgrees r.catalog e.catalog = true ∧ Catalog.partAgrees r.schema e.schema = true ∧
    Text.equalIgnoringCase r.name e.name = true

namespace Catalog

/-- The schemas with the names of their databases and their own. -/
def allSchemas (c : Catalog) : List ((String × String) × Schema) :=
  c.databases.entries.flatMap fun d => d.2.schemas.entries.map fun s => ((d.1, s.1), s.2)

def stored (c : Catalog) : List StoredTable :=
  c.allSchemas.flatMap fun s => s.2.tables.entries.map fun t => ⟨s.1.1, s.1.2, t.1, t.2⟩

/-- The reference agrees with a single stored table, of this definition. -/
def SoleMatch (c : Catalog) (r : TableReference) (t : TableDefinition) : Prop :=
  ∃ e ∈ c.stored, e.Agrees r ∧ e.definition = t ∧ ∀ e' ∈ c.stored, e'.Agrees r → e' = e

variable {c : Catalog} {r : TableReference} {t : TableDefinition}

theorem nodup_places (c : Catalog) : (c.allSchemas.map Prod.fst).Nodup := by
  unfold allSchemas
  rw [List.map_flatMap]
  refine List.nodup_flatMap.mpr ⟨fun d _ => ?_, ?_⟩
  · have hnames := d.2.schemas.nodup.map (Prod.mk_right_injective d.1)
    rwa [List.map_map] at hnames ⊢
  · refine (List.pairwise_map.mp c.databases.nodup).imp fun {d d'} hne => ?_
    intro place hplace hplace'
    simp only [List.map_map, List.mem_map, Function.comp_apply] at hplace hplace'
    obtain ⟨_, -, rfl⟩ := hplace
    obtain ⟨_, -, he⟩ := hplace'
    exact hne (congrArg Prod.fst he).symm

theorem eq_of_place {s s' : (String × String) × Schema} (hs : s ∈ c.allSchemas)
    (hs' : s' ∈ c.allSchemas) (h : s.1 = s'.1) : s = s' :=
  List.inj_on_of_nodup_map c.nodup_places hs hs' h

theorem mem_stored {e : StoredTable} : e ∈ c.stored ↔ ∃ s ∈ c.allSchemas,
    (e.name, e.definition) ∈ s.2.tables.entries ∧ s.1 = (e.catalog, e.schema) := by
  constructor
  · intro he
    obtain ⟨s, hs, he⟩ := List.mem_flatMap.mp he
    obtain ⟨t, ht, rfl⟩ := List.mem_map.mp he
    exact ⟨s, hs, ht, rfl⟩
  · rintro ⟨⟨-, schema⟩, hs, he, rfl⟩
    exact List.mem_flatMap.mpr ⟨_, hs, List.mem_map.mpr ⟨_, he, rfl⟩⟩

/-- What a schema has under the name of a reference, if the reference may mean the schema. -/
def tableOf? (r : TableReference) (s : (String × String) × Schema) : Option TableDefinition :=
  if partAgrees r.catalog s.1.1 && partAgrees r.schema s.1.2 then s.2.tables.getIgnoringCase? r.name
  else none

theorem candidates_eq_filterMap (c : Catalog) (r : TableReference) :
    c.candidates r = c.allSchemas.filterMap (tableOf? r) := by
  unfold allSchemas
  rw [candidates_eq, List.filterMap_flatMap]
  refine List.flatMap_congr fun d _ => ?_
  rw [List.filterMap_map, List.filterMap_eq_flatMap_toList]
  unfold databaseTables
  cases hd : partAgrees r.catalog d.1 with
  | false => simp [tableOf?, hd]
  | true =>
    refine List.flatMap_congr fun s _ => ?_
    cases hs : partAgrees r.schema s.1 <;> simp [schemaTables, tableOf?, hd, hs]

/-- A lookup finds the table that the only schema with tables that agree has under the name. -/
theorem findTable?_eq_some_iff : c.findTable? r = some t ↔ ∃ s ∈ c.allSchemas,
    tableOf? r s = some t ∧ ∀ s' ∈ c.allSchemas, (tableOf? r s').isSome → s' = s := by
  rw [← filterMap_eq_singleton_iff c.nodup_places.of_map, ← candidates_eq_filterMap]
  unfold findTable?
  split
  · rename_i t' h
    rw [h, Option.some.injEq, List.cons.injEq, and_iff_left rfl]
  · rename_i h
    exact ⟨fun h' => (nomatch h'), fun h' => absurd h' (h t)⟩

theorem agrees_of_tableOf? {s : (String × String) × Schema} (hs : s ∈ c.allSchemas)
    (h : tableOf? r s = some t) :
    ∃ e ∈ c.stored, e.Agrees r ∧ e.definition = t ∧ s.1 = (e.catalog, e.schema) := by
  unfold tableOf? at h
  split at h
  · rename_i hplace
    rw [Bool.and_eq_true] at hplace
    obtain ⟨name, hmem, hname⟩ := OrderedMap.mem_of_getIgnoringCase? h
    exact ⟨⟨s.1.1, s.1.2, name, t⟩, mem_stored.mpr ⟨s, hs, hmem, rfl⟩,
      ⟨hplace.1, hplace.2, hname⟩, rfl, rfl⟩
  · cases h

theorem exists_tableOf? {e : StoredTable} (he : e ∈ c.stored) (ha : e.Agrees r) :
    ∃ s ∈ c.allSchemas, s.1 = (e.catalog, e.schema) ∧ ∃ t, tableOf? r s = some t := by
  obtain ⟨s, hs, hmem, hplace⟩ := mem_stored.mp he
  obtain ⟨hcatalog, hschema, hname⟩ := ha
  refine ⟨s, hs, hplace, Option.isSome_iff_exists.mp ?_⟩
  unfold tableOf?
  rw [hplace, hcatalog, hschema]
  exact OrderedMap.getIgnoringCase?_of_mem hmem hname

/-- A lookup finds a table if all tables that agree lie in its schema, and finds one of them. -/
theorem findTable?_eq_some_iff_schema {s : (String × String) × Schema} (hs : s ∈ c.allSchemas)
    (ht : tableOf? r s = some t) : c.findTable? r = some t ↔
      ∀ e ∈ c.stored, e.Agrees r → s.1 = (e.catalog, e.schema) := by
  rw [findTable?_eq_some_iff]
  constructor
  · rintro ⟨s', hs', ht', hsole⟩ e he ha
    obtain ⟨s'', hs'', hplace, t', ht''⟩ := exists_tableOf? he ha
    rw [hsole s hs (ht ▸ rfl), ← hplace, hsole s'' hs'' (ht'' ▸ rfl)]
  · intro h
    refine ⟨s, hs, ht, fun s' hs' hsome => ?_⟩
    obtain ⟨t', ht'⟩ := Option.isSome_iff_exists.mp hsome
    obtain ⟨e, he, ha, -, hplace⟩ := agrees_of_tableOf? hs' ht'
    exact eq_of_place hs' hs (hplace.trans (h e he ha).symm)

/-- A lookup meets its description, that it succeeds only if a single table agrees, except if
several tables agree and all of them lie in one schema. -/
theorem findTable?_soleMatch_iff (c : Catalog) (r : TableReference) :
    (∀ t, c.findTable? r = some t ↔ c.SoleMatch r t) ↔
      ((∀ e ∈ c.stored, ∀ e' ∈ c.stored, e.Agrees r → e'.Agrees r →
          e.catalog = e'.catalog ∧ e.schema = e'.schema) →
        ∀ e ∈ c.stored, ∀ e' ∈ c.stored, e.Agrees r → e'.Agrees r → e = e') := by
  constructor
  · intro h hschema e he e' he' ha ha'
    -- The schema of the tables gives one of them, so by its description there is no other.
    obtain ⟨s, hs, hplace, t, ht⟩ := exists_tableOf? he ha
    have hfound := (findTable?_eq_some_iff_schema hs ht).mpr fun e'' he'' ha'' => by
      obtain ⟨hcatalog, hname⟩ := hschema e he e'' he'' ha ha''
      rw [hplace, hcatalog, hname]
    obtain ⟨sole, -, -, -, hsole⟩ := (h t).mp hfound
    rw [hsole e he ha, hsole e' he' ha']
  · intro h t
    constructor
    · intro hfound
      obtain ⟨s, hs, ht, -⟩ := findTable?_eq_some_iff.mp hfound
      have hplaces := (findTable?_eq_some_iff_schema hs ht).mp hfound
      obtain ⟨e, he, ha, hdefinition, -⟩ := agrees_of_tableOf? hs ht
      refine ⟨e, he, ha, hdefinition, fun e' he' ha' => h ?_ e' he' e he ha' ha⟩
      intro e₁ he₁ e₂ he₂ ha₁ ha₂
      exact Prod.mk.inj ((hplaces e₁ he₁ ha₁).symm.trans (hplaces e₂ he₂ ha₂))
    · rintro ⟨e, he, ha, rfl, hsole⟩
      obtain ⟨s, hs, hplace, t, ht⟩ := exists_tableOf? he ha
      obtain ⟨e', he', ha', rfl, -⟩ := agrees_of_tableOf? hs ht
      rw [← hsole e' he' ha']
      exact (findTable?_eq_some_iff_schema hs ht).mpr fun e'' he'' ha'' =>
        hsole e'' he'' ha'' ▸ hplace

end Catalog

/-! ## Catalogs made of additions -/

/-- The keys of a map made from a list are those of the list, each at its first place. -/
theorem OrderedMap.keys_ofList {κ α : Type} [DecidableEq κ] (entries : List (κ × α)) :
    (ofList entries).keys = (entries.map Prod.fst).eraseDups := by
  induction entries using List.reverseRecOn with
  | nil => rfl
  | append_singleton front e ih =>
    have hlast : ofList (front ++ [e]) = (ofList front).insert e.1 e.2 :=
      List.foldl_append
    rw [hlast, keys_insert, ih, List.map_append, List.eraseDups_append, List.map_singleton,
      List.cons_removeAll]
    simp only [List.mem_eraseDups, List.contains_eq_mem, decide_eq_false_iff_not]
    split
    · exact (List.append_nil _).symm
    · rfl

/-- A table with columns to be added under a path. -/
structure TableAddition where
  catalog : String
  schema : String
  table : String
  columns : List (String × String)

/-- Whether a table is added under exactly this path. -/
def TableAddition.isAt (catalog schema table : String) (a : TableAddition) : Bool :=
  a.catalog = catalog ∧ a.schema = schema ∧ a.table = table

/-- The columns that additions give to a path, one after another. -/
def TableAddition.columnsAt (catalog schema table : String) (additions : List TableAddition) :
    List (String × String) :=
  (additions.filter (isAt catalog schema table)).flatMap columns

/-- The type that is given last for exactly this name. -/
def lastType? (columns : List (String × String)) (name : String) : Option String :=
  (columns.reverse.find? fun e => e.1 = name).map Prod.snd

namespace Catalog

def ofAdditions (additions : List TableAddition) : Catalog :=
  additions.foldl (fun c a => c.addTable a.catalog a.schema a.table a.columns) empty

/-- The table under exactly this path. -/
def atPath? (c : Catalog) (catalog schema table : String) : Option TableDefinition :=
  ((c.databases.get? catalog).bind fun d => d.schemas.get? schema).bind fun s => s.tables.get? table

variable {c : Catalog} {catalog schema table : String} {t : TableDefinition}

theorem getTable?_of_atPath? (h : c.atPath? catalog schema table = some t) :
    c.getTable? catalog schema table = some t := by
  obtain ⟨s, hs, ht⟩ := Option.bind_eq_some_iff.mp h
  obtain ⟨d, hd, hs⟩ := Option.bind_eq_some_iff.mp hs
  have hfound : ∀ {α : Type} {m : OrderedMap String α} {key : String} {a : α},
      m.get? key = some a → m.getIgnoringCase? key = some a := by
    intro α m key a hget
    rw [OrderedMap.getIgnoringCase?, hget, Option.some_or]
  unfold getTable?
  rw [hfound hd, Option.bind_eq_bind, Option.bind_some, hfound hs, Option.bind_eq_bind,
    Option.bind_some, hfound ht]

theorem atPath?_addTable (c : Catalog) (a : TableAddition) :
    (c.addTable a.catalog a.schema a.table a.columns).atPath? catalog schema table =
      if a.isAt catalog schema table then
        some ⟨(((c.atPath? catalog schema table).map TableDefinition.columns).getD ∅).insertAll
          a.columns⟩
      else c.atPath? catalog schema table := by
  have hempty : ∀ {α : Type} (key : String), (∅ : OrderedMap String α).get? key = none :=
    fun _ => rfl
  unfold atPath? addTable OrderedMap.alter TableAddition.isAt
  by_cases hcatalog : a.catalog = catalog
  · subst hcatalog
    by_cases hschema : a.schema = schema
    · subst hschema
      cases hd : c.databases.get? a.catalog with
      | none =>
        by_cases htable : a.table = table <;> simp [OrderedMap.get?_insert, hempty, htable]
      | some d =>
        by_cases htable : a.table = table <;> cases hs : d.schemas.get? a.schema <;>
          simp [OrderedMap.get?_insert, hempty, hs, htable]
    · cases hd : c.databases.get? a.catalog <;> simp [OrderedMap.get?_insert, hempty, hschema]
  · simp [OrderedMap.get?_insert, hcatalog]

/-- Under a path stand the columns that the additions give to it. -/
theorem atPath?_ofAdditions (catalog schema table : String) (additions : List TableAddition) :
    (ofAdditions additions).atPath? catalog schema table =
      if additions.any (TableAddition.isAt catalog schema table) then
        some ⟨.ofList (TableAddition.columnsAt catalog schema table additions)⟩
      else none := by
  induction additions using List.reverseRecOn with
  | nil => rfl
  | append_singleton front a ih =>
    have hlast : ofAdditions (front ++ [a]) =
        (ofAdditions front).addTable a.catalog a.schema a.table a.columns := List.foldl_append
    have hbefore : (((ofAdditions front).atPath? catalog schema table).map
        TableDefinition.columns).getD ∅ =
          .ofList (TableAddition.columnsAt catalog schema table front) := by
      rw [ih]
      split
      · rfl
      · rename_i hnone
        rw [TableAddition.columnsAt, List.filter_eq_nil_iff.mpr fun b hb hat =>
          hnone (List.any_eq_true.mpr ⟨b, hb, hat⟩)]
        rfl
    rw [hlast, atPath?_addTable, hbefore, List.any_append, List.any_cons, List.any_nil,
      Bool.or_false]
    unfold TableAddition.columnsAt
    rw [List.filter_append, List.flatMap_append]
    cases hat : a.isAt catalog schema table with
    | true =>
      rw [if_pos rfl, Bool.or_true, if_pos rfl, List.filter_cons_of_pos hat]
      simp [OrderedMap.ofList, OrderedMap.insertAll]
    | false => simpa [TableAddition.columnsAt, hat] using ih

/-- A column is found under a name with the last type of the first column of that name, ignoring
case. -/
theorem columnType?_ofList (columns : List (String × String)) (name : String) :
    (TableDefinition.mk (.ofList columns)).columnType? name =
      ((columns.map Prod.fst).eraseDups.find? (Text.equalIgnoringCase · name)).bind
        (lastType? columns) := by
  rw [← OrderedMap.keys_ofList, OrderedMap.keys, List.find?_map, Function.comp_def]
  unfold TableDefinition.columnType?
  cases hfind : (OrderedMap.ofList columns).entries.find? fun e =>
      Text.equalIgnoringCase e.1 name with
  | none => rfl
  | some e =>
    have hget := OrderedMap.get?_of_mem (List.mem_of_find?_eq_some hfind)
    rw [OrderedMap.ofList, OrderedMap.get?_insertAll, OrderedMap.get?_empty, Option.or_none] at hget
    exact hget.symm

/-- A catalog made of additions gives back the columns of each path, every one at its first place.
It gives back the types exactly if no two columns that differ in case only have different ones. -/
theorem ofAdditions_given {additions : List TableAddition} {a : TableAddition}
    (ha : a ∈ additions) :
    let columns := TableAddition.columnsAt a.catalog a.schema a.table additions
    let names := (columns.map Prod.fst).eraseDups
    (ofAdditions additions).columnsOf? a.catalog a.schema a.table = some names ∧
      ∃ t, (ofAdditions additions).getTable? a.catalog a.schema a.table = some t ∧
        ((∀ n ∈ names, t.columnType? n = lastType? columns n) ↔
          ∀ m ∈ names, ∀ n ∈ names, Text.equalIgnoringCase m n = true →
            lastType? columns m = lastType? columns n) := by
  intro columns names
  have hexact := atPath?_ofAdditions a.catalog a.schema a.table additions
  rw [if_pos (List.any_eq_true.mpr ⟨a, ha, by simp [TableAddition.isAt]⟩)] at hexact
  have hfound := getTable?_of_atPath? hexact
  refine ⟨?_, _, hfound, ?_⟩
  · rw [columnsOf?, hfound]
    exact congrArg some (OrderedMap.keys_ofList columns)
  simp only [columnType?_ofList]
  constructor
  · intro h m hm n hn hmn
    have hsame : (Text.equalIgnoringCase · m) = (Text.equalIgnoringCase · n) := by
      funext k
      unfold Text.equalIgnoringCase
      rw [Text.equalIgnoringCase_iff.mp hmn]
    rw [← h m hm, ← h n hn, hsame]
  · intro h n hn
    have hsome : (names.find? (Text.equalIgnoringCase · n)).isSome :=
      List.find?_isSome.mpr ⟨n, hn, Text.equalIgnoringCase_refl n⟩
    obtain ⟨k, hk⟩ := Option.isSome_iff_exists.mp hsome
    refine (congrArg (Option.bind · (lastType? columns)) hk).trans ?_
    exact h k (List.mem_of_find?_eq_some hk) n hn
      (List.find?_some (p := (Text.equalIgnoringCase · n)) hk)

/-- Two additions to one table, with columns that differ in case only: both are there, and the
second has the type of the first. -/
theorem ofAdditions_given_namesakes :
    let a : TableAddition := ⟨"db", "s", "t", [("ID", "INT")]⟩
    let b : TableAddition := ⟨"db", "s", "t", [("id", "TEXT"), ("n", "INT"), ("ID", "DATE")]⟩
    a ∈ [a, b] ∧ (ofAdditions [a, b]).columnsOf? "db" "s" "t" = some ["ID", "id", "n"] ∧
      ∃ t, (ofAdditions [a, b]).getTable? "db" "s" "t" = some t ∧
        ¬ ∀ n ∈ ["ID", "id", "n"], t.columnType? n =
          lastType? [("ID", "INT"), ("id", "TEXT"), ("n", "INT"), ("ID", "DATE")] n := by
  intro a b
  have ha : a ∈ [a, b] := List.mem_cons_self
  obtain ⟨hcolumns, t, ht, htypes⟩ := ofAdditions_given ha
  refine ⟨ha, hcolumns, t, ht, fun h => ?_⟩
  exact absurd (htypes.mp h "ID" (by decide) "id" (by decide) (by decide)) (by decide)

end Catalog

end ColumnLineage
