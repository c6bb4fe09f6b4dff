import ColumnLineage.Proofs.MergedColumns

/-!
# Columns of a star

A star stands for all columns of all sources: a merged column is one item with the columns of its
owners, and each other column is an item of its own. Which columns of a name are in one item depends
on the last joins that merge this name: what joins of other tables have merged before is taken apart.

* `Select.starColumns`: both for the scope of a `FROM` clause, with a condition under which columns
  that a join equates are in one item.
-/

namespace ColumnLineage

/-! ## Columns by their sources -/

/-- The label and the column in small letters that a path of two parts names. -/
def Atom.columnKey? : Atom → Option (Ident × String)
  | .path [label, name] => some (label, Text.toLower name.value)
  | _ => none

/-- An item has a column of a source in it. -/
def SelectItem.Holds (i : SelectItem) (source : Source) (name : String) : Prop :=
  some (source.label, Text.toLower name) ∈ i.atoms.map Atom.columnKey?

/-- The columns of all sources in small letters, with the labels of the sources. -/
def Scope.columnKeys (scope : Scope) : List (Ident × String) :=
  scope.sources.values.flatMap fun source =>
    source.columns.names.map fun name => (source.label, Text.toLower name)

/-- The columns that owners give to merged columns. -/
def Scope.mergedKeys (scope : Scope) : List (Ident × String) :=
  scope.merged.values.flatMap fun m => m.owners.map fun o => (o, Text.toLower m.column.value)

/-- The other columns of all sources. -/
def Scope.singleKeys (scope : Scope) : List (Ident × String) :=
  scope.columnKeys.filter fun key => !(scope.ownersOf key.2).contains key.1

/-- Merged columns stand under their names in small letters. -/
def Scope.MergedKeyed (scope : Scope) : Prop :=
  ∀ e ∈ scope.merged.entries, e.1 = Text.toLower e.2.column.value

theorem Registers.mergedKeyed {x : Qualifier} {v : Visible} {scope scope' : Scope}
    {factors factors' : List TableFactor} {starts : List Scope}
    (h : Registers x v scope factors factors' starts scope') (hscope : scope.MergedKeyed) :
    scope'.MergedKeyed := by
  induction h with
  | nil => exact hscope
  | add hf _ ih =>
    obtain ⟨-, rfl⟩ | ⟨label, columns, -, rfl⟩ := hf.eq_or_register
    · exact ih hscope
    · exact ih hscope
  | merge _ ih =>
    refine ih ?_
    unfold Scope.merge
    split
    · exact hscope
    · intro e he
      rcases mem_of_mem_putEntry he with rfl | he
      · rfl
      · exact hscope e he

variable {key : Ident × String} {name : String}

namespace Scope

variable {scope : Scope}

theorem mem_ownersOf {key : String} {label : Ident} :
    label ∈ scope.ownersOf key ↔ ∃ m, scope.merged.get? key = some m ∧ label ∈ m.owners := by
  unfold ownersOf
  cases scope.merged.get? key <;> simp

theorem isMerged_eq (label : Ident) (column : String) :
    scope.isMerged label column = (scope.ownersOf (Text.toLower column)).contains label := by
  unfold isMerged ownersOf
  cases scope.merged.get? (Text.toLower column) <;> rfl

/-! ## What a star stands for -/

/-- With all columns known, the columns are those of one source after another. -/
theorem allColumns?_eq (hknown : scope.unknowns = []) (hne : scope.sources.values ≠ []) :
    scope.allColumns? = some (scope.sources.values.flatMap fun source =>
      source.columns.names.map (source.label, ·)) := by
  have hall : ∀ sources : List Source, (∀ source ∈ sources, source.columns ≠ .unknown) →
      allSome (sources.map columnsOf) =
        some (sources.map fun source => source.columns.names.map (source.label, ·)) := by
    intro sources h
    induction sources with
    | nil => rfl
    | cons source sources ih =>
      obtain ⟨hsource, hrest⟩ := List.forall_mem_cons.mp h
      cases hcolumns : source.columns with
      | unknown => exact absurd hcolumns hsource
      | known names =>
        rw [List.map_cons, columnsOf, hcolumns, allSome, ih hrest, List.map_cons, hcolumns]
        rfl
  unfold allColumns?
  split
  · rename_i hnil
    exact absurd hnil hne
  · rw [hall _ fun source hs hunknown => List.ne_nil_of_mem
      (List.mem_filter.mpr ⟨hs, decide_eq_true hunknown⟩) hknown]
    rfl

theorem expandStar_eq (hknown : scope.unknowns = []) (hne : scope.sources.values ≠ []) :
    scope.expandStar =
      (scope.merged.values.map fun m =>
        SelectItem.expr (mergedColumn m.owners m.column) (some m.column)) ++
      ((scope.sources.values.flatMap fun source => source.columns.names.map (source.label, ·)).filter
        fun p => !scope.isMerged p.1 p.2).map fun p => columnItem p.1 p.2 := by
  rw [expandStar, allColumns?_eq hknown hne]

theorem expandStar_keys (hknown : scope.unknowns = []) (hne : scope.sources.values ≠ []) :
    (scope.expandStar.flatMap SelectItem.atoms).map Atom.columnKey? =
      (scope.mergedKeys ++ scope.singleKeys).map some := by
  rw [expandStar_eq hknown hne, List.flatMap_append, List.map_append, List.map_append]
  congr 1
  · rw [List.flatMap_map, List.map_flatMap, mergedKeys, List.map_flatMap]
    refine List.flatMap_congr fun m _ => ?_
    rw [SelectItem.atoms, mergedColumn_atoms, List.map_map, List.map_map]
    rfl
  · have hkeys : scope.columnKeys =
        (scope.sources.values.flatMap fun source =>
          source.columns.names.map (source.label, ·)).map fun p => (p.1, Text.toLower p.2) := by
      rw [columnKeys, List.map_flatMap]
      refine List.flatMap_congr fun source _ => ?_
      rw [List.map_map]
      rfl
    rw [singleKeys, hkeys, List.filter_map, List.map_map, List.flatMap_map, List.map_flatMap]
    have hsame : ((fun key : Ident × String => !(scope.ownersOf key.2).contains key.1) ∘
        fun p : Ident × String => (p.1, Text.toLower p.2)) = fun p => !scope.isMerged p.1 p.2 :=
      funext fun p => congrArg (!·) (isMerged_eq p.1 p.2).symm
    rw [hsame, List.map_eq_flatMap]
    rfl

theorem mem_columnKeys :
    key ∈ scope.columnKeys ↔ ∃ source ∈ scope.sources.values, ∃ name ∈ source.columns.names,
      (source.label, Text.toLower name) = key := by
  simp only [columnKeys, List.mem_flatMap, List.mem_map]

theorem MergedKeyed.mem_mergedKeys (h : scope.MergedKeyed) :
    key ∈ scope.mergedKeys ↔ key.1 ∈ scope.ownersOf key.2 := by
  rw [mem_ownersOf, mergedKeys, List.mem_flatMap]
  constructor
  · rintro ⟨m, hm, hkey⟩
    obtain ⟨k, hm⟩ := OrderedMap.exists_mem_of_mem_values hm
    obtain ⟨o, ho, rfl⟩ := List.mem_map.mp hkey
    exact ⟨m, h _ hm ▸ OrderedMap.get?_of_mem hm, ho⟩
  · rintro ⟨m, hm, ho⟩
    have he := OrderedMap.mem_of_get?_eq_some hm
    refine ⟨m, List.mem_map.mpr ⟨_, he, rfl⟩, List.mem_map.mpr ⟨key.1, ho, ?_⟩⟩
    rw [← h _ he]

theorem MergedKeyed.nodup_mergedKeys (h : scope.MergedKeyed) (hregular : scope.Regular) :
    scope.mergedKeys.Nodup := by
  have hentries : scope.mergedKeys =
      scope.merged.entries.flatMap fun e => e.2.owners.map fun o => (o, e.1) := by
    rw [mergedKeys, OrderedMap.values, List.flatMap_map]
    exact List.flatMap_congr fun e he => by rw [h e he]
  rw [hentries, List.nodup_flatMap]
  constructor
  · intro e he
    exact (hregular.owners e he).nodup.map fun a b hab => congrArg Prod.fst hab
  · refine (List.pairwise_map.mp scope.merged.nodup).imp ?_
    intro e e' hne key hkey hkey'
    obtain ⟨o, -, rfl⟩ := List.mem_map.mp hkey
    obtain ⟨o', -, he⟩ := List.mem_map.mp hkey'
    exact hne (congrArg Prod.snd he).symm

/-- In a regular scope whose sources have no two columns of the same name, no column is listed
twice. -/
theorem Regular.nodup_columnKeys (hregular : scope.Regular)
    (hnames : ∀ source ∈ scope.sources.values, (source.columns.names.map Text.toLower).Nodup) :
    scope.columnKeys.Nodup := by
  rw [columnKeys, List.nodup_flatMap]
  constructor
  · intro source hs
    have hpairs := (hnames source hs).map (Prod.mk_right_injective source.label)
    rwa [List.map_map] at hpairs
  · refine (List.pairwise_map.mp hregular.labels_nodup).imp ?_
    intro source other hne key hkey hkey'
    obtain ⟨name, -, rfl⟩ := List.mem_map.mp hkey
    obtain ⟨name', -, he⟩ := List.mem_map.mp hkey'
    exact hne (congrArg Prod.fst he).symm

theorem Regular.mem_columnKeys_of_mem_ownersOf (hregular : scope.Regular)
    (hknown : scope.unknowns = []) (h : key.1 ∈ scope.ownersOf key.2) : key ∈ scope.columnKeys := by
  obtain ⟨m, hm, ho⟩ := mem_ownersOf.mp h
  obtain ⟨source, hs, hlabel, hgives⟩ :=
    (hregular.owners _ (OrderedMap.mem_of_get?_eq_some hm)).gives _ ho
  rcases hgives with hunknown | ⟨name, hname, hkey⟩
  · exact absurd hknown (List.ne_nil_of_mem (List.mem_filter.mpr ⟨hs, decide_eq_true hunknown⟩))
  · exact mem_columnKeys.mpr ⟨source, hs, name, hname, by rw [hlabel, hkey]⟩

/-- The items of a star have each column of each source in them exactly once, and nothing else. -/
theorem Regular.expandStar_perm (hregular : scope.Regular) (hkeyed : scope.MergedKeyed)
    (hknown : scope.unknowns = [])
    (hnames : ∀ source ∈ scope.sources.values, (source.columns.names.map Text.toLower).Nodup) :
    ((scope.expandStar.flatMap SelectItem.atoms).map Atom.columnKey?).Perm
      (scope.columnKeys.map some) := by
  by_cases hne : scope.sources.values = []
  · rw [columnKeys, hne, expandStar, allColumns?, hne]
    exact .nil
  rw [expandStar_keys hknown hne]
  refine List.Perm.map some ?_
  have hkeys := hregular.nodup_columnKeys hnames
  have hnodup : (scope.mergedKeys ++ scope.singleKeys).Nodup := by
    refine List.nodup_append.mpr
      ⟨hkeyed.nodup_mergedKeys hregular, hkeys.sublist List.filter_sublist, ?_⟩
    rintro key hmerged _ hsingle rfl
    have hnot := (List.mem_filter.mp hsingle).2
    rw [List.contains_iff_mem.mpr (hkeyed.mem_mergedKeys.mp hmerged)] at hnot
    cases hnot
  rw [List.perm_ext_iff_of_nodup hnodup hkeys]
  intro key
  rw [List.mem_append, hkeyed.mem_mergedKeys, singleKeys, List.mem_filter]
  constructor
  · rintro (howner | ⟨hkey, -⟩)
    · exact hregular.mem_columnKeys_of_mem_ownersOf hknown howner
    · exact hkey
  · intro hkey
    by_cases howner : key.1 ∈ scope.ownersOf key.2
    · exact Or.inl howner
    · refine Or.inr ⟨hkey, ?_⟩
      rwa [Bool.not_eq_true', Bool.eq_false_iff, ne_eq, List.contains_iff_mem]

/-! ## Two columns in one item -/

theorem holds_mergedColumn {owners : List Ident} {column : Ident} {label : Option Ident}
    {source : Source} :
    (SelectItem.expr (mergedColumn owners column) label).Holds source name ↔
      source.label ∈ owners ∧ Text.toLower column.value = Text.toLower name := by
  unfold SelectItem.Holds
  rw [SelectItem.atoms, mergedColumn_atoms, List.map_map, List.mem_map]
  constructor
  · rintro ⟨o, ho, he⟩
    obtain ⟨rfl, hname⟩ := Prod.mk.inj (Option.some.inj he)
    exact ⟨ho, hname⟩
  · rintro ⟨ho, hname⟩
    exact ⟨source.label, ho, congrArg some (Prod.ext rfl hname)⟩

theorem label_eq_of_holds_columnItem {label : Ident} {column : String} {source : Source}
    (h : (columnItem label column).Holds source name) : source.label = label :=
  congrArg Prod.fst (Option.some.inj (List.mem_singleton.mp h))

section sharing

variable {mergings : List Merging} {s t : Source} {a b : String}

/-- The sources that share a column are those whose labels are among its owners. -/
theorem Merges.mem_sharers_iff (h : scope.Merges mergings) (hregular : scope.Regular)
    (hs : s ∈ scope.sources.values) (key : String) :
    s ∈ sharers key mergings ↔ s.label ∈ scope.ownersOf key := by
  rw [h.owners]
  refine ⟨List.mem_map_of_mem, fun hmem => ?_⟩
  obtain ⟨other, hother, hlabel⟩ := List.mem_map.mp hmem
  exact List.inj_on_of_nodup_map hregular.labels_nodup (h.sources key hother) hs hlabel ▸ hother

/-- Columns of sources that share the name are in one item of a star. -/
theorem Merges.holds_both (h : scope.Merges mergings) (hregular : scope.Regular)
    (hkeyed : scope.MergedKeyed) (hknown : scope.unknowns = []) (hs : s ∈ scope.sources.values)
    (ht : t ∈ scope.sources.values) (hab : Text.toLower a = Text.toLower b)
    (hsa : s ∈ sharers (Text.toLower a) mergings) (hta : t ∈ sharers (Text.toLower a) mergings) :
    ∃ item ∈ scope.expandStar, item.Holds s a ∧ item.Holds t b := by
  rw [expandStar_eq hknown (List.ne_nil_of_mem hs)]
  obtain ⟨m, hget, hsm⟩ := mem_ownersOf.mp ((h.mem_sharers_iff hregular hs _).mp hsa)
  obtain ⟨m', hget', htm⟩ := mem_ownersOf.mp ((h.mem_sharers_iff hregular ht _).mp hta)
  obtain rfl := Option.some.inj (hget.symm.trans hget')
  have he := OrderedMap.mem_of_get?_eq_some hget
  have hname : Text.toLower m.column.value = Text.toLower a := (hkeyed _ he).symm
  exact ⟨_, List.mem_append_left _ (List.mem_map_of_mem (List.mem_map.mpr ⟨_, he, rfl⟩)),
    holds_mergedColumn.mpr ⟨hsm, hname⟩, holds_mergedColumn.mpr ⟨htm, hname.trans hab⟩⟩

/-- Columns of two sources are in one item of a star exactly if they have the same name and the
sources share it. -/
theorem Merges.holds_both_iff (h : scope.Merges mergings) (hregular : scope.Regular)
    (hkeyed : scope.MergedKeyed) (hknown : scope.unknowns = []) (hs : s ∈ scope.sources.values)
    (ht : t ∈ scope.sources.values) (hne : s ≠ t) :
    (∃ item ∈ scope.expandStar, item.Holds s a ∧ item.Holds t b) ↔
      Text.toLower a = Text.toLower b ∧ s ∈ sharers (Text.toLower a) mergings ∧
        t ∈ sharers (Text.toLower a) mergings := by
  constructor
  · rintro ⟨item, hitem, hsa, htb⟩
    rw [expandStar_eq hknown (List.ne_nil_of_mem hs)] at hitem
    rcases List.mem_append.mp hitem with hitem | hitem
    · obtain ⟨m, hm, rfl⟩ := List.mem_map.mp hitem
      obtain ⟨key, hm⟩ := OrderedMap.exists_mem_of_mem_values hm
      obtain ⟨hsm, ha⟩ := holds_mergedColumn.mp hsa
      obtain ⟨htm, hb⟩ := holds_mergedColumn.mp htb
      have hget : scope.merged.get? (Text.toLower a) = some m := by
        rw [← ha, ← hkeyed _ hm]
        exact OrderedMap.get?_of_mem hm
      exact ⟨ha.symm.trans hb,
        (h.mem_sharers_iff hregular hs _).mpr (mem_ownersOf.mpr ⟨m, hget, hsm⟩),
        (h.mem_sharers_iff hregular ht _).mpr (mem_ownersOf.mpr ⟨m, hget, htm⟩)⟩
    · obtain ⟨p, -, rfl⟩ := List.mem_map.mp hitem
      have hlabel : s.label = t.label :=
        (label_eq_of_holds_columnItem hsa).trans (label_eq_of_holds_columnItem htb).symm
      exact absurd (List.inj_on_of_nodup_map hregular.labels_nodup hs ht hlabel) hne
  · rintro ⟨hab, hsa, hta⟩
    exact h.holds_both hregular hkeyed hknown hs ht hab hsa hta

end sharing

end Scope

/-! ## Columns that a join equates -/

/-- The condition of a join equates a column on its left with one on its right. -/
def JoinCondition.Equates (a b : String) : JoinCondition → Prop
  | .using columns => ∃ c ∈ columns, Text.equalIgnoringCase a c.value = true ∧
    Text.equalIgnoringCase b c.value = true
  | .natural => Text.equalIgnoringCase a b = true
  | _ => False

theorem Text.equalIgnoringCase_trans {a b c : String} (hab : equalIgnoringCase a b = true)
    (hbc : equalIgnoringCase b c = true) : equalIgnoringCase a c = true :=
  BEq.trans hab hbc

theorem Columns.contains_of_mem {columns : Columns} {column : String} (hname : name ∈ columns.names)
    (h : Text.equalIgnoringCase name column = true) : columns.contains column = true := by
  cases columns with
  | known names => exact List.any_eq_true.mpr ⟨name, hname, h⟩
  | unknown => cases hname

/-- Each name that both lists have is among their common names. -/
theorem Columns.exists_mem_inCommon {names others : List String} {other : String}
    (hname : name ∈ names) (hother : other ∈ others)
    (h : Text.equalIgnoringCase other name = true) :
    ∃ c ∈ inCommon names others, Text.equalIgnoringCase c name = true := by
  have hany : others.any (Text.equalIgnoringCase · name) = true :=
    List.any_eq_true.mpr ⟨other, hother, h⟩
  -- What has been found stays, so it is found at the latest when its own turn comes.
  suffices hfold : ∀ (names acc : List String),
      (name ∈ names ∨ ∃ c ∈ acc, Text.equalIgnoringCase c name = true) →
      ∃ c ∈ names.foldl (fun acc column =>
        if others.any (Text.equalIgnoringCase · column) &&
          !acc.any (Text.equalIgnoringCase · column) then acc ++ [column] else acc) acc,
        Text.equalIgnoringCase c name = true from hfold names [] (Or.inl hname)
  intro names
  induction names with
  | nil => exact fun acc hacc => hacc.resolve_left List.not_mem_nil
  | cons first names ih =>
    intro acc hacc
    refine ih _ ?_
    rcases hacc with hmem | ⟨c, hc, hcn⟩
    · rcases List.mem_cons.mp hmem with rfl | hmem
      · refine Or.inr ?_
        dsimp only
        rw [hany, Bool.true_and]
        split
        · exact ⟨name, List.mem_append_right _ List.mem_cons_self, Text.equalIgnoringCase_refl name⟩
        · rename_i hfound
          exact List.any_eq_true.mp (by simpa using hfound)
      · exact Or.inl hmem
    · refine Or.inr ⟨c, ?_, hcn⟩
      dsimp only
      split
      · exact List.mem_append_left _ hc
      · exact hc

/-- Two columns that a condition equates have the name of a column that it merges. -/
theorem JoinCondition.exists_mergedColumn {left right : List Source} {s t : Source} {a b : String}
    (hs : s ∈ left) (ht : t ∈ right) (ha : a ∈ s.columns.names) (hb : b ∈ t.columns.names) :
    (condition : JoinCondition) → condition.Equates a b →
      ∃ c ∈ condition.mergedColumns left right, Text.equalIgnoringCase a c.value = true ∧
        Text.equalIgnoringCase b c.value = true
  | .using _, h => h
  | .natural, h => by
      have hba : Text.equalIgnoringCase b a = true := Text.equalIgnoringCase_comm b a ▸ h
      have hleft : a ∈ left.flatMap fun source => source.columns.names :=
        List.mem_flatMap.mpr ⟨s, hs, ha⟩
      have hright : b ∈ right.flatMap fun source => source.columns.names :=
        List.mem_flatMap.mpr ⟨t, ht, hb⟩
      obtain ⟨c, hc, hca⟩ := Columns.exists_mem_inCommon hleft hright hba
      have hac : Text.equalIgnoringCase a c = true := Text.equalIgnoringCase_comm a c ▸ hca
      exact ⟨⟨c, none⟩, List.mem_map_of_mem hc, hac, Text.equalIgnoringCase_trans hba hac⟩

/-- Two columns that a join equates are among those that it merges. -/
theorem JoinSite.exists_merging {scope : Scope} {site : JoinSite} {s t : Source} {a b : String}
    (hs : s ∈ scope.sourcesOf site.left) (ht : t ∈ scope.sourcesOf site.right)
    (ha : a ∈ s.columns.names) (hb : b ∈ t.columns.names) (h : site.condition.Equates a b) :
    ∃ m ∈ site.mergings scope, s ∈ m.left ∧ t ∈ m.right ∧
      Text.equalIgnoringCase a m.column.value = true ∧
      Text.equalIgnoringCase b m.column.value = true := by
  obtain ⟨c, hc, hac, hbc⟩ := JoinCondition.exists_mergedColumn hs ht ha hb site.condition h
  exact ⟨_, List.mem_map_of_mem hc, hs, ht, hac, hbc⟩

/-- Sources that take part in a merging share its column to the end, if no later merging of that name
leaves them out. -/
theorem mem_sharers_of_takenFrom {m : Merging} {before after : List Merging} {source : Source}
    (h : source ∈ Merging.takenFrom (sharers (Text.toLower m.column.value) before) m.left
        m.column.value ++
      Merging.takenFrom (sharers (Text.toLower m.column.value) before) m.right m.column.value)
    (hafter : ∀ later ∈ after, Text.toLower later.column.value = Text.toLower m.column.value →
      source ∈ later.left ++ later.right) :
    source ∈ sharers (Text.toLower m.column.value) (before ++ m :: after) := by
  rw [← List.singleton_append, ← List.append_assoc]
  refine mem_sharers_append after ?_ hafter
  rw [sharers_concat, if_pos rfl]
  exact Merging.mem_sharing h

/-- Whatever is in view, let a `FROM` clause have distinct labels and known columns, and let no source
have two columns of the same name. Then the items of a star have each column of each source in them
exactly once. Columns of two sources are in one item exactly if they have the same name and both
sources share it behind the last join. That holds for columns that a join equates if both take part
when the join merges them, and if each later join that merges a column of this name has both sources
on its sides. -/
theorem Select.starColumns {x : Qualifier} {v : Visible} {s₀ : Select}
    {registered : List TableTree} {scope : Scope}
    (hfrom : TableTree.registerList x v {} s₀.sources = .ok (registered, scope))
    (hlabels : (TableFactor.labels s₀.factors).Nodup) (hknown : scope.unknowns = [])
    (hnames : ∀ source ∈ scope.sources.values, (source.columns.names.map Text.toLower).Nodup) :
    scope.columnKeys.Nodup ∧
      ((scope.expandStar.flatMap SelectItem.atoms).map Atom.columnKey?).Perm
        (scope.columnKeys.map some) ∧
      (∀ s ∈ scope.sources.values, ∀ t ∈ scope.sources.values, s ≠ t → ∀ a b,
        ((∃ item ∈ scope.expandStar, item.Holds s a ∧ item.Holds t b) ↔
          Text.toLower a = Text.toLower b ∧ s ∈ sharers (Text.toLower a) (s₀.mergings scope) ∧
            t ∈ sharers (Text.toLower a) (s₀.mergings scope))) ∧
      ∀ site ∈ s₀.joinSites, ∀ s ∈ scope.sourcesOf site.left, ∀ t ∈ scope.sourcesOf site.right,
        ∀ a ∈ s.columns.names, ∀ b ∈ t.columns.names, site.condition.Equates a b →
          ∃ before m after, s₀.mergings scope = before ++ m :: after ∧ m ∈ site.mergings scope ∧
            Text.toLower m.column.value = Text.toLower a ∧
            ((s ∈ sharers (Text.toLower a) before ∨
                ∀ other ∈ m.left, other ∉ sharers (Text.toLower a) before) →
              (t ∈ sharers (Text.toLower a) before ∨
                ∀ other ∈ m.right, other ∉ sharers (Text.toLower a) before) →
              (∀ later ∈ after, Text.toLower later.column.value = Text.toLower a →
                s ∈ later.left ++ later.right ∧ t ∈ later.left ++ later.right) →
              ∃ item ∈ scope.expandStar, item.Holds s a ∧ item.Holds t b) := by
  have hregisters := TableTree.registersList s₀.sources hfrom
  have hregular : scope.Regular := (hregisters.regular Scope.regular_empty hlabels).2
  have hkeyed : scope.MergedKeyed := hregisters.mergedKeyed fun e he => by cases he
  have hmerges := Select.merges hfrom hlabels hknown
  refine ⟨hregular.nodup_columnKeys hnames, hregular.expandStar_perm hkeyed hknown hnames,
    fun s hs t ht hne a b => hmerges.holds_both_iff hregular hkeyed hknown hs ht hne, ?_⟩
  intro site hsite s hs t ht a ha b hb hequates
  obtain ⟨m, hm, hsm, htm, ham, hbm⟩ := JoinSite.exists_merging hs ht ha hb hequates
  have hmem : m ∈ s₀.mergings scope := List.mem_flatMap.mpr ⟨site, hsite, hm⟩
  obtain ⟨before, after, hsplit⟩ := List.append_of_mem hmem
  have hkey : Text.toLower m.column.value = Text.toLower a :=
    (Text.toLower_eq_of_equalIgnoringCase ham).symm
  have hkey' : Text.toLower m.column.value = Text.toLower b :=
    (Text.toLower_eq_of_equalIgnoringCase hbm).symm
  refine ⟨before, m, after, hsplit, hm, hkey, ?_⟩
  rw [← hkey]
  intro hsbefore htbefore hafter
  have hstaken := hsbefore.elim (fun h => Merging.mem_takenFrom_of_shared hsm h m.column.value)
    (Merging.mem_takenFrom_of_fresh hsm (Columns.contains_of_mem ha ham))
  have httaken := htbefore.elim (fun h => Merging.mem_takenFrom_of_shared htm h m.column.value)
    (Merging.mem_takenFrom_of_fresh htm (Columns.contains_of_mem hb hbm))
  refine hmerges.holds_both hregular hkeyed hknown (Scope.mem_of_mem_sourcesOf hs)
    (Scope.mem_of_mem_sourcesOf ht) (hkey.symm.trans hkey') ?_ ?_
  · rw [← hkey, hsplit]
    exact mem_sharers_of_takenFrom (List.mem_append_left _ hstaken) fun later hl hk =>
      (hafter later hl hk).1
  · rw [← hkey, hsplit]
    exact mem_sharers_of_takenFrom (List.mem_append_right _ httaken) fun later hl hk =>
      (hafter later hl hk).2

/-- `SELECT * FROM (SELECT NULL AS x) AS a JOIN (SELECT NULL AS x) AS b USING (x),
(SELECT NULL AS x) AS c JOIN (SELECT NULL AS x) AS d USING (x)` -/
def twoJoins : Select :=
  .plain [.star]
    [.mk (nullSource "a" ["x"]) [.mk false .inner (nullSource "b" ["x"]) none (.using [⟨"x", none⟩])],
      .mk (nullSource "c" ["x"]) [.mk false .inner (nullSource "d" ["x"]) none (.using [⟨"x", none⟩])]]

/-- The columns of `c` and `d` are in one item. Those of `a` and `b` are not, though a join equates
them as well. -/
theorem Select.starColumns_twoJoins :
    TableTree.registerList ⟨⟨∅⟩, {}⟩ {} {} twoJoins.sources =
        .ok (twoJoins.sources, twoJoins.scope ⟨⟨∅⟩, {}⟩ {}) ∧
      (TableFactor.labels twoJoins.factors).Nodup ∧
      (twoJoins.scope ⟨⟨∅⟩, {}⟩ {}).unknowns = [] ∧
      (∀ source ∈ (twoJoins.scope ⟨⟨∅⟩, {}⟩ {}).sources.values,
        (source.columns.names.map Text.toLower).Nodup) ∧
      (∃ item ∈ (twoJoins.scope ⟨⟨∅⟩, {}⟩ {}).expandStar,
        item.Holds ⟨⟨"c", none⟩, .known ["x"]⟩ "x" ∧ item.Holds ⟨⟨"d", none⟩, .known ["x"]⟩ "x") ∧
      ¬ ∃ item ∈ (twoJoins.scope ⟨⟨∅⟩, {}⟩ {}).expandStar,
        item.Holds ⟨⟨"a", none⟩, .known ["x"]⟩ "x" ∧ item.Holds ⟨⟨"b", none⟩, .known ["x"]⟩ "x" := by
  have hfrom : TableTree.registerList ⟨⟨∅⟩, {}⟩ {} {} twoJoins.sources =
      .ok (twoJoins.sources, twoJoins.scope ⟨⟨∅⟩, {}⟩ {}) := rfl
  have hlabels : (TableFactor.labels twoJoins.factors).Nodup := by decide
  have hnames : ∀ source ∈ (twoJoins.scope ⟨⟨∅⟩, {}⟩ {}).sources.values,
      (source.columns.names.map Text.toLower).Nodup := by decide
  obtain ⟨-, -, hiff, -⟩ := Select.starColumns hfrom hlabels rfl hnames
  refine ⟨hfrom, hlabels, rfl, hnames, ?_, ?_⟩
  · rw [hiff _ (by decide) _ (by decide) (by decide)]
    decide
  · rw [hiff _ (by decide) _ (by decide) (by decide)]
    decide

end ColumnLineage
