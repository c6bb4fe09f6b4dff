import ColumnLineage.Proofs.JoinConditions

/-!
# Columns that joins merge

A join with `USING` or `NATURAL` merges columns of its two sides. On each side those sources take part
that share the column already or, if there are none, all that have it. A scope holds one merged column
for each name, so a join takes the place of all joins that have merged columns of this name elsewhere
in the `FROM` clause.
-/

namespace ColumnLineage

/-! ## Mergings -/

/-- A column that a join merges, with the sources on its two sides. -/
structure Merging where
  left : List Source
  right : List Source
  column : Ident

variable {shared : List Source} {source : Source}

namespace Merging

/-- The sources on one side that take part, given those that share the column so far. -/
def takenFrom (shared side : List Source) (column : String) : List Source :=
  match shared.filter side.contains with
  | [] => side.filter fun source => source.columns.contains column
  | sharing => sharing

/-- The sources that share the column behind a join: those that take part, if any do. -/
def sharing (m : Merging) (shared : List Source) : List Source :=
  match takenFrom shared m.left m.column.value ++ takenFrom shared m.right m.column.value with
  | [] => shared
  | sources => sources

theorem takenFrom_subset (shared side : List Source) (column : String) :
    takenFrom shared side column ⊆ side := by
  intro source hs
  unfold takenFrom at hs
  split at hs
  · exact List.mem_of_mem_filter hs
  · exact List.contains_iff_mem.mp (List.mem_filter.mp hs).2

theorem sharing_subset (m : Merging) {all : List Source} (hs : shared ⊆ all) (hl : m.left ⊆ all)
    (hr : m.right ⊆ all) : m.sharing shared ⊆ all := by
  unfold sharing
  split
  · exact hs
  · exact List.append_subset.mpr ⟨List.Subset.trans (takenFrom_subset _ _ _) hl,
      List.Subset.trans (takenFrom_subset _ _ _) hr⟩

theorem mem_takenFrom_of_shared {side : List Source} (hs : source ∈ side) (h : source ∈ shared)
    (column : String) : source ∈ takenFrom shared side column := by
  have hmem : source ∈ shared.filter side.contains :=
    List.mem_filter.mpr ⟨h, List.contains_iff_mem.mpr hs⟩
  unfold takenFrom
  split
  · rename_i hnil
    rw [hnil] at hmem
    cases hmem
  · exact hmem

theorem mem_takenFrom_of_fresh {side : List Source} {column : String} (hs : source ∈ side)
    (hc : source.columns.contains column = true) (h : ∀ other ∈ side, other ∉ shared) :
    source ∈ takenFrom shared side column := by
  have hnone : shared.filter side.contains = [] :=
    List.filter_eq_nil_iff.mpr fun other ho hside => h other (List.contains_iff_mem.mp hside) ho
  unfold takenFrom
  rw [hnone]
  exact List.mem_filter.mpr ⟨hs, hc⟩

theorem mem_sharing {m : Merging} (h : source ∈ takenFrom shared m.left m.column.value ++
      takenFrom shared m.right m.column.value) : source ∈ m.sharing shared := by
  unfold sharing
  split
  · rename_i hnil
    rw [hnil] at h
    cases h
  · exact h

end Merging

/-- The sources that share a column of these small letters after mergings. -/
def sharers (key : String) (mergings : List Merging) : List Source :=
  (mergings.filter fun m => Text.toLower m.column.value = key).foldl
    (fun shared m => m.sharing shared) []

theorem sharers_concat (key : String) (mergings : List Merging) (m : Merging) :
    sharers key (mergings ++ [m]) =
      if Text.toLower m.column.value = key then m.sharing (sharers key mergings)
      else sharers key mergings := by
  unfold sharers
  rw [List.filter_append, List.foldl_append]
  split <;> rename_i hkey <;> simp [hkey]

/-- A source goes on sharing a column as long as no merging of that name leaves it out. -/
theorem mem_sharers_append {key : String} {source : Source} : (after : List Merging) →
    {before : List Merging} → source ∈ sharers key before →
      (∀ m ∈ after, Text.toLower m.column.value = key → source ∈ m.left ++ m.right) →
      source ∈ sharers key (before ++ after)
  | [], before, h, _ => (List.append_nil before).symm ▸ h
  | m :: after, before, h, hafter => by
      obtain ⟨hm, hafter⟩ := List.forall_mem_cons.mp hafter
      have hstep : source ∈ sharers key (before ++ [m]) := by
        rw [sharers_concat]
        split
        · rename_i hkey
          refine Merging.mem_sharing (List.mem_append.mpr ?_)
          exact (List.mem_append.mp (hm hkey)).imp
            (fun hl => Merging.mem_takenFrom_of_shared hl h _)
            (fun hr => Merging.mem_takenFrom_of_shared hr h _)
        · exact h
      have hrest := mem_sharers_append after hstep hafter
      rwa [List.append_assoc, List.singleton_append] at hrest

/-- The columns that a join merges, given the sources on its two sides: those that it names, or those
that both sides have. -/
def JoinCondition.mergedColumns (left right : List Source) : JoinCondition → List Ident
  | .using columns => columns
  | .natural =>
    (Columns.inCommon (left.flatMap fun source => source.columns.names)
      (right.flatMap fun source => source.columns.names)).map (⟨·, none⟩)
  | _ => []

/-- What a join merges, with the sources that its tables are in a scope. -/
def JoinSite.mergings (scope : Scope) (site : JoinSite) : List Merging :=
  let left := scope.sourcesOf site.left
  let right := scope.sourcesOf site.right
  (site.condition.mergedColumns left right).map (⟨left, right, ·⟩)

/-- What the joins of a select merge, in the order in which they are made. -/
def Select.mergings (scope : Scope) (s : Select) : List Merging :=
  s.joinSites.flatMap (JoinSite.mergings scope)

/-! ## One merging -/

/-- The aliases of the sources that give a merged column of these small letters, if there is one. -/
def Scope.ownersOf (scope : Scope) (key : String) : List Ident :=
  ((scope.merged.get? key).map MergedColumn.owners).getD []

/-- The merged columns of a scope come from mergings. -/
structure Scope.Merges (scope : Scope) (mergings : List Merging) : Prop where
  sources : ∀ key, sharers key mergings ⊆ scope.sources.values
  /-- Those that share a column are its owners. -/
  owners : ∀ key, scope.ownersOf key = (sharers key mergings).map Source.label

namespace Scope

variable {scope : Scope} {mergings : List Merging}

theorem merges_empty : ({} : Scope).Merges [] where
  sources _ := List.nil_subset _
  owners _ := rfl

theorem addNew_eq_append : {aliases more : List Ident} → (aliases ++ more).Nodup →
    addNew aliases more = aliases ++ more
  | aliases, [], _ => (List.append_nil aliases).symm
  | aliases, a :: more, h => by
      have hnew : aliases.contains a = false := by
        rw [Bool.eq_false_iff, ne_eq, List.contains_iff_mem]
        exact fun ha => (List.nodup_append.mp h).2.2 a ha a List.mem_cons_self rfl
      rw [addNew_cons, hnew, if_neg Bool.false_ne_true, addNew_eq_append (by simpa using h),
        List.append_assoc, List.singleton_append]

theorem ownersOf_merge_of_ne {left right : Stretch} {column : Ident} {key : String}
    (h : Text.toLower column.value ≠ key) :
    (scope.merge left right column).ownersOf key = scope.ownersOf key := by
  unfold merge
  split
  · rfl
  · rw [ownersOf, OrderedMap.get?_insert, if_neg h, ownersOf]

theorem ownersOf_merge_self (left right : Stretch) (column : Ident) :
    (scope.merge left right column).ownersOf (Text.toLower column.value) =
      match addNew (scope.owners left column.value) (scope.owners right column.value) with
      | [] => scope.ownersOf (Text.toLower column.value)
      | owners => owners := by
  unfold merge
  cases addNew (scope.owners left column.value) (scope.owners right column.value) with
  | nil => rfl
  | cons o owners =>
    rw [ownersOf, OrderedMap.get?_insert, if_pos rfl]
    rfl

theorem idxOf?_of_getElem? {l : List String} (h : l.Nodup) {i : Nat} {a : String}
    (hi : l[i]? = some a) : l.idxOf? a = some i := by
  obtain ⟨hlt, rfl⟩ := List.getElem?_eq_some_iff.mp hi
  refine List.findIdx?_eq_some_iff_getElem.mpr ⟨hlt, by simp, fun j hji hj => ?_⟩
  have hsame : l[j] = l[i] := by simpa using hj
  exact absurd (h.getElem_inj_iff.mp hsame) (by omega)

theorem Regular.liesIn_eq (h : scope.Regular) (hs : source ∈ scope.sources.values) (r : Stretch) :
    scope.liesIn r source.label = (scope.sourcesIn r).contains source := by
  obtain ⟨i, hi⟩ := List.mem_iff_getElem?.mp hs
  have hkey : scope.sources.keys[i]? = some (Text.toLower source.label.value) := by
    rw [OrderedMap.values, List.getElem?_map] at hi
    obtain ⟨e, he, rfl⟩ := Option.map_eq_some_iff.mp hi
    rw [OrderedMap.keys, List.getElem?_map, he, Option.map_some,
      h.keyed e (List.mem_of_getElem? he)]
  have hvalues : scope.sources.values.Nodup := List.Nodup.of_map _ h.labels_nodup
  have hin : source ∈ scope.sourcesIn r ↔ r.start ≤ i ∧ i < r.stop := by
    rw [sourcesIn, List.mem_iff_getElem?]
    constructor
    · rintro ⟨j, hj⟩
      rw [List.getElem?_take] at hj
      split at hj
      · rw [List.getElem?_drop] at hj
        obtain ⟨hi', rfl⟩ := List.getElem?_eq_some_iff.mp hi
        obtain ⟨hj', hsame⟩ := List.getElem?_eq_some_iff.mp hj
        have hsame := hvalues.getElem_inj_iff.mp hsame
        omega
      · cases hj
    · rintro ⟨hle, hlt⟩
      refine ⟨i - r.start, ?_⟩
      rw [List.getElem?_take_of_lt (by omega), List.getElem?_drop, Nat.add_sub_cancel' hle, hi]
  have hplace : scope.sources.keys.idxOf? (Text.toLower source.label.value) = some i :=
    idxOf?_of_getElem? scope.sources.nodup hkey
  rw [Bool.eq_iff_iff, List.contains_iff_mem, hin, liesIn, hplace]
  simp

theorem sourcesIn_subset (scope : Scope) (r : Stretch) :
    scope.sourcesIn r ⊆ scope.sources.values := fun _ hs =>
  List.mem_of_mem_drop (List.mem_of_mem_take hs)

theorem owners_def (scope : Scope) (r : Stretch) (column : String) :
    scope.owners r column =
      let shared := (scope.ownersOf (Text.toLower column)).filter (scope.liesIn r)
      let known := ((scope.sourcesIn r).filter fun x => x.columns.contains column).map Source.label
      let unknown := ((scope.sourcesIn r).filter fun x => x.columns = .unknown).map Source.label
      if !shared.isEmpty then shared else if !known.isEmpty then known else unknown := by
  unfold owners ownersOf
  cases scope.merged.get? (Text.toLower column) <;> rfl

/-- With all columns known, the aliases that a stretch gives to a merging are those of the sources
that take part. -/
theorem Merges.owners_eq (h : scope.Merges mergings) (hregular : scope.Regular)
    (hknown : scope.unknowns = []) (r : Stretch) (column : String) :
    scope.owners r column =
      (Merging.takenFrom (sharers (Text.toLower column) mergings) (scope.sourcesIn r) column).map
        Source.label := by
  have hshared : (scope.ownersOf (Text.toLower column)).filter (scope.liesIn r) =
      ((sharers (Text.toLower column) mergings).filter (scope.sourcesIn r).contains).map
        Source.label := by
    rw [h.owners, List.filter_map]
    exact congrArg (List.map Source.label) (List.filter_congr fun source hs =>
      hregular.liesIn_eq (h.sources _ hs) r)
  have hnone : (scope.sourcesIn r).filter (fun source => source.columns = .unknown) = [] := by
    refine List.filter_eq_nil_iff.mpr fun source hs hunknown => ?_
    exact List.ne_nil_of_mem (List.mem_filter.mpr ⟨scope.sourcesIn_subset r hs, hunknown⟩) hknown
  simp only [owners_def, hshared, hnone, List.map_nil, List.isEmpty_map]
  unfold Merging.takenFrom
  cases (sharers (Text.toLower column) mergings).filter (scope.sourcesIn r).contains with
  | cons source sources => rfl
  | nil => cases (scope.sourcesIn r).filter fun source => source.columns.contains column <;> rfl

/-- One merging: those that share the column afterwards are its owners. -/
theorem Merges.merge (h : scope.Merges mergings) (hregular : scope.Regular)
    (hknown : scope.unknowns = []) {left right : Stretch} (column : Ident)
    (hsides : List.Disjoint (scope.sourcesIn left) (scope.sourcesIn right)) :
    (scope.merge left right column).Merges
      (mergings ++ [⟨scope.sourcesIn left, scope.sourcesIn right, column⟩]) := by
  constructor
  · intro key
    rw [sharers_concat, merge_sources]
    split
    · exact Merging.sharing_subset _ (h.sources key) (scope.sourcesIn_subset left)
        (scope.sourcesIn_subset right)
    · exact h.sources key
  · intro key
    rw [sharers_concat]
    split
    · rename_i hkey
      obtain rfl := hkey
      -- The sides have no source in common, so the aliases of the right side are all new.
      have hnodup : (scope.owners left column.value ++ scope.owners right column.value).Nodup := by
        refine List.nodup_append.mpr ⟨(hregular.owners_of_stretch left _).nodup,
          (hregular.owners_of_stretch right _).nodup, ?_⟩
        intro a ha b hb hab
        rw [h.owners_eq hregular hknown] at ha hb
        obtain ⟨source, hs, rfl⟩ := List.mem_map.mp ha
        obtain ⟨other, ho, rfl⟩ := List.mem_map.mp hb
        have hs := Merging.takenFrom_subset _ _ _ hs
        have ho := Merging.takenFrom_subset _ _ _ ho
        have hsame : source = other :=
          List.inj_on_of_nodup_map hregular.labels_nodup (scope.sourcesIn_subset left hs)
            (scope.sourcesIn_subset right ho) hab
        exact hsides hs (hsame ▸ ho)
      rw [ownersOf_merge_self, addNew_eq_append hnodup, h.owners_eq hregular hknown,
        h.owners_eq hregular hknown, ← List.map_append, Merging.sharing, h.owners]
      cases Merging.takenFrom (sharers (Text.toLower column.value) mergings)
        (scope.sourcesIn left) column.value ++
          Merging.takenFrom (sharers (Text.toLower column.value) mergings)
            (scope.sourcesIn right) column.value <;> rfl
    · rename_i hkey
      rw [ownersOf_merge_of_ne hkey, h.owners]

theorem sourcesIn_merge (scope : Scope) (left right r : Stretch) (column : Ident) :
    (scope.merge left right column).sourcesIn r = scope.sourcesIn r := by
  rw [sourcesIn, merge_sources, sourcesIn]

theorem unknowns_merge (scope : Scope) (left right : Stretch) (column : Ident) :
    (scope.merge left right column).unknowns = scope.unknowns := by
  rw [unknowns, merge_sources, unknowns]

theorem Merges.mergeAll {left right : Stretch} : (columns : List Ident) → {scope : Scope} →
    {mergings : List Merging} → scope.Merges mergings → scope.Regular → scope.unknowns = [] →
      List.Disjoint (scope.sourcesIn left) (scope.sourcesIn right) →
      (columns.foldl (fun s c => s.merge left right c) scope).Merges
        (mergings ++ columns.map (⟨scope.sourcesIn left, scope.sourcesIn right, ·⟩))
  | [], _, _, h, _, _, _ => by rwa [List.map_nil, List.append_nil]
  | c :: columns, scope, mergings, h, hregular, hknown, hsides => by
      have hsides' : List.Disjoint ((scope.merge left right c).sourcesIn left)
          ((scope.merge left right c).sourcesIn right) := by
        rwa [sourcesIn_merge, sourcesIn_merge]
      have hrest := Merges.mergeAll columns (h.merge hregular hknown c hsides)
        (hregular.merge left right c) (by rwa [unknowns_merge]) hsides'
      rwa [sourcesIn_merge, sourcesIn_merge, List.append_assoc, List.singleton_append] at hrest

theorem Merges.mergeJoin (h : scope.Merges mergings) (hregular : scope.Regular)
    (hknown : scope.unknowns = []) {left right : Stretch}
    (hsides : List.Disjoint (scope.sourcesIn left) (scope.sourcesIn right)) :
    (condition : JoinCondition) → (scope.mergeJoin left right condition).Merges
      (mergings ++ (condition.mergedColumns (scope.sourcesIn left) (scope.sourcesIn right)).map
        (⟨scope.sourcesIn left, scope.sourcesIn right, ·⟩))
  | .using columns => h.mergeAll columns hregular hknown hsides
  | .natural => h.mergeAll _ hregular hknown hsides
  | .absent => (List.append_nil mergings).symm ▸ h
  | .on _ => (List.append_nil mergings).symm ▸ h

end Scope

/-! ## The sides of a join -/

/-- What a scope finds under a key, another one finds as well. -/
def Scope.Within (scope whole : Scope) : Prop :=
  ∀ key source, scope.sources.get? key = some source → whole.sources.get? key = some source

/-- On the way to the scope of a whole `FROM` clause, these tables have been added. -/
structure Scope.Stage (whole : Scope) (factors : List TableFactor) (scope : Scope) : Prop where
  keys : scope.sources.keys = TableFactor.labels factors
  regular : scope.Regular
  /-- Its sources are those of the whole scope. -/
  within : scope.Within whole

theorem Scope.Within.values {scope whole : Scope} (h : scope.Within whole) :
    scope.sources.values ⊆ whole.sources.values := by
  intro source hs
  obtain ⟨key, hs⟩ := OrderedMap.exists_mem_of_mem_values hs
  exact List.mem_map.mpr
    ⟨_, OrderedMap.mem_of_get?_eq_some (h key source (OrderedMap.get?_of_mem hs)), rfl⟩

theorem TableFactor.labels_append (factors more : List TableFactor) :
    labels (factors ++ more) = labels factors ++ labels more :=
  List.filterMap_append ..

theorem Scope.sourcesOf_append (scope : Scope) (factors more : List TableFactor) :
    scope.sourcesOf (factors ++ more) = scope.sourcesOf factors ++ scope.sourcesOf more :=
  List.filterMap_append ..

theorem Scope.sourcesOf_eq (scope : Scope) (factors : List TableFactor) :
    scope.sourcesOf factors = (TableFactor.labels factors).filterMap scope.sources.get? := by
  unfold Scope.sourcesOf TableFactor.labels
  rw [List.filterMap_filterMap]
  refine List.filterMap_congr fun f _ => ?_
  cases f.label? <;> rfl

namespace Scope.Stage

variable {whole scope : Scope} {factors left right : List TableFactor}

theorem values (h : Stage whole factors scope) :
    scope.sources.values = whole.sourcesOf factors := by
  rw [sourcesOf_eq, ← h.keys, OrderedMap.keys, List.filterMap_map, OrderedMap.values,
    ← List.filterMap_eq_map]
  refine List.filterMap_congr fun e he => ?_
  exact (h.within _ _ (OrderedMap.get?_of_mem he)).symm

theorem unknowns (h : Stage whole factors scope) (hknown : whole.unknowns = []) :
    scope.unknowns = [] := by
  refine List.filter_eq_nil_iff.mpr fun source hs hunknown => ?_
  exact List.ne_nil_of_mem (List.mem_filter.mpr ⟨h.within.values hs, hunknown⟩) hknown

theorem size_eq (h : Stage whole factors scope) :
    scope.size = (TableFactor.labels factors).length := by
  rw [← h.keys, OrderedMap.keys, List.length_map, Scope.size]

theorem length_sourcesOf (h : Stage whole (factors ++ right) scope) :
    (whole.sourcesOf factors).length = (TableFactor.labels factors).length := by
  rw [sourcesOf_eq, List.filterMap_length_eq_length]
  intro key hkey
  have hmem : key ∈ scope.sources.keys := by
    rw [h.keys, TableFactor.labels_append]
    exact List.mem_append_left _ hkey
  obtain ⟨source, hs⟩ := Option.isSome_iff_exists.mp ((scope.sources.get?_isSome_iff key).mpr hmem)
  rw [h.within key source hs, Option.isSome_some]

/-- The two sides of a join are the sources of the tables there. -/
theorem sides (h : Stage whole (factors ++ left ++ right) scope) {start split : Nat}
    (hstart : start = (TableFactor.labels factors).length)
    (hsplit : split = (TableFactor.labels (factors ++ left)).length) :
    scope.sourcesIn ⟨start, split⟩ = whole.sourcesOf left ∧
      scope.sourcesIn ⟨split, scope.size⟩ = whole.sourcesOf right := by
  have hassoc : Stage whole (factors ++ (left ++ right)) scope := List.append_assoc .. ▸ h
  have hfactors : (whole.sourcesOf factors).length = start :=
    hstart ▸ hassoc.length_sourcesOf
  have hleft : (whole.sourcesOf (factors ++ left)).length = split :=
    hsplit ▸ h.length_sourcesOf
  have hsize : (whole.sourcesOf (factors ++ left ++ right)).length = scope.size := by
    rw [← h.values, OrderedMap.values, List.length_map, Scope.size]
  rw [sourcesIn, sourcesIn, h.values]
  constructor
  · rw [List.append_assoc, sourcesOf_append, List.drop_left' hfactors, sourcesOf_append]
    rw [sourcesOf_append, List.length_append] at hleft
    refine List.take_left' (?_ : _ = split - start)
    omega
  · rw [sourcesOf_append, List.drop_left' hleft]
    rw [sourcesOf_append, List.length_append] at hsize
    refine List.take_of_length_le (?_ : _ ≤ scope.size - split)
    omega

theorem disjoint_sides (h : Stage whole (factors ++ left ++ right) scope) :
    List.Disjoint (whole.sourcesOf left) (whole.sourcesOf right) := by
  have hvalues : scope.sources.values.Nodup := List.Nodup.of_map _ h.regular.labels_nodup
  rw [h.values, List.append_assoc, sourcesOf_append, sourcesOf_append] at hvalues
  exact List.disjoint_of_nodup_append (List.nodup_append.mp hvalues).2.1

/-- A join with tables on its sides merges what its condition says about their sources. -/
theorem mergeJoin (h : Stage whole (factors ++ left ++ right) scope) (hknown : whole.unknowns = [])
    {start split : Nat} (hstart : start = (TableFactor.labels factors).length)
    (hsplit : split = (TableFactor.labels (factors ++ left)).length) {mergings : List Merging}
    (hm : scope.Merges mergings) (condition : JoinCondition) :
    (scope.mergeJoin ⟨start, split⟩ ⟨split, scope.size⟩ condition).Merges
      (mergings ++ JoinSite.mergings whole ⟨left, right, condition⟩) := by
  obtain ⟨hleft, hright⟩ := h.sides hstart hsplit
  have hsides : List.Disjoint (scope.sourcesIn ⟨start, split⟩)
      (scope.sourcesIn ⟨split, scope.size⟩) := by
    rw [hleft, hright]
    exact h.disjoint_sides
  have hmerged := hm.mergeJoin h.regular (h.unknowns hknown) hsides condition
  rwa [hleft, hright] at hmerged

end Scope.Stage

/-! ## One join after another -/

section registers

variable {x : Qualifier} {v : Visible}

/-- A table with a new label keeps the sources and merges nothing. -/
theorem TableFactor.Registered.extends {f₀ f : TableFactor} {scope scope' : Scope}
    (h : TableFactor.Registered x v scope f₀ f scope') {factors : List TableFactor}
    (hnew : (scope.sources.keys ++ TableFactor.labels (f₀ :: factors)).Nodup) :
    scope.Within scope' ∧ scope'.merged = scope.merged := by
  obtain ⟨-, rfl⟩ | ⟨label, columns, hl, rfl⟩ := h.eq_or_register
  · exact ⟨fun _ _ hs => hs, rfl⟩
  · refine ⟨fun key source hs => ?_, rfl⟩
    rw [Scope.register, OrderedMap.get?_insert, if_neg, hs]
    rintro rfl
    exact TableFactor.label_fresh hl hnew ((scope.sources.get?_isSome_iff _).mp (hs ▸ rfl))

/-- Tables with new and distinct labels add the labels and keep the sources. -/
theorem Registers.extends {scope scope' : Scope} {factors factors' : List TableFactor}
    {starts : List Scope} (h : Registers x v scope factors factors' starts scope')
    (hnew : (scope.sources.keys ++ TableFactor.labels factors).Nodup) :
    scope'.sources.keys = scope.sources.keys ++ TableFactor.labels factors ∧
      scope.Within scope' := by
  induction h with
  | nil => exact ⟨(List.append_nil _).symm, fun _ _ hs => hs⟩
  | add hf _ ih =>
    have hkeys := hf.keys_append hnew
    obtain ⟨hkeys', hwithin⟩ := ih (hkeys ▸ hnew)
    exact ⟨hkeys'.trans hkeys, fun key source hs => hwithin _ _ ((hf.extends hnew).1 _ _ hs)⟩
  | merge _ ih =>
    obtain ⟨hkeys, hwithin⟩ := ih (by rwa [Scope.merge_sources])
    rw [Scope.merge_sources] at hkeys
    refine ⟨hkeys, fun key source hs => hwithin key source ?_⟩
    rwa [Scope.merge_sources]

variable {whole scope scope₁ scope₂ : Scope} {factors : List TableFactor} {mergings : List Merging}

/-- Halfway through some tables, those of the first half have been added, and the labels are still
new. -/
theorem Scope.Stage.between (h : Stage whole factors scope) {as as' bs bs' : List TableFactor}
    {starts starts' : List Scope} (has : Registers x v scope as as' starts scope₁)
    (hbs : Registers x v scope₁ bs bs' starts' scope₂)
    (hnew : (TableFactor.labels (factors ++ (as ++ bs))).Nodup) (hwithin : scope₂.Within whole) :
    Stage whole (factors ++ as) scope₁ ∧ (TableFactor.labels (factors ++ as)).Nodup ∧
      (TableFactor.labels (factors ++ as ++ bs)).Nodup := by
  rw [← List.append_assoc] at hnew
  have hall := hnew
  rw [TableFactor.labels_append] at hnew
  have hboth := (List.nodup_append.mp hnew).1
  rw [TableFactor.labels_append, ← h.keys] at hnew
  have hfirst := (List.nodup_append.mp hnew).1
  obtain ⟨hkeys, -⟩ := has.extends hfirst
  obtain ⟨-, hrest⟩ := hbs.extends (hkeys ▸ hnew)
  refine ⟨⟨?_, (has.regular h.regular hfirst).2, fun key source hs => hwithin _ _ (hrest _ _ hs)⟩,
    hboth, hall⟩
  rw [hkeys, h.keys, TableFactor.labels_append]

theorem Scope.Merges.of_within (h : scope.Merges mergings) (hwithin : scope.Within scope₁)
    (hmerged : scope₁.merged = scope.merged) : scope₁.Merges mergings where
  sources key := List.Subset.trans (h.sources key) hwithin.values
  owners key := by rw [Scope.ownersOf, hmerged, ← h.owners, Scope.ownersOf]

/-- The joins of a clause merge their columns one after another. -/
theorem mergesSteps (hknown : whole.unknowns = []) : RegisterSteps x v
    (fun scope f₀ _ scope' => ∀ factors mergings, Scope.Stage whole factors scope →
      scope'.Within whole → (TableFactor.labels (factors ++ f₀.factors)).Nodup →
      scope.Merges mergings →
      scope'.Merges (mergings ++ f₀.joinSites.flatMap (JoinSite.mergings whole)))
    (fun start scope js₀ _ scope' => ∀ factors left mergings,
      start = (TableFactor.labels factors).length → Scope.Stage whole (factors ++ left) scope →
      scope'.Within whole → (TableFactor.labels (factors ++ left ++ Join.factorsList js₀)).Nodup →
      scope.Merges mergings →
      scope'.Merges (mergings ++ (Join.joinSitesList left js₀).flatMap (JoinSite.mergings whole)))
    (fun scope t₀ _ scope' => ∀ factors mergings, Scope.Stage whole factors scope →
      scope'.Within whole → (TableFactor.labels (factors ++ t₀.factors)).Nodup →
      scope.Merges mergings →
      scope'.Merges (mergings ++ t₀.joinSites.flatMap (JoinSite.mergings whole)))
    (fun scope ts₀ _ scope' => ∀ factors mergings, Scope.Stage whole factors scope →
      scope'.Within whole →
      (TableFactor.labels (factors ++ ts₀.flatMap TableTree.factors)).Nodup →
      scope.Merges mergings → scope'.Merges
        (mergings ++ (ts₀.flatMap TableTree.joinSites).flatMap (JoinSite.mergings whole))) where
  single hn h factors mergings hstage _ hnew hm := by
    rw [TableFactor.factors_eq_singleton hn, TableFactor.labels_append, ← hstage.keys] at hnew
    obtain ⟨hwithin, hmerged⟩ := (TableFactor.registered_of_register hn h).extends hnew
    rw [TableFactor.joinSites_eq_nil hn, List.flatMap_nil, List.append_nil]
    exact hm.of_within hwithin hmerged
  nested ih := ih
  done _ _ mergings _ _ _ _ hm := (List.append_nil mergings).symm ▸ hm
  join {start scope scope₁ scope₂ _ _ f₀ f _ condition js₀ js} hf hjs ih ihs factors left mergings
      hstart hstage hwithin hnew hm := by
    -- The join is registered like one behind which no others come.
    have hj := (registerSteps.ofFactor f₀ hf).append
      (.mergeJoin scope₁ ⟨start, scope.size⟩ ⟨scope.size, scope₁.size⟩ condition)
    rw [List.append_nil, List.append_nil, List.append_nil] at hj
    obtain ⟨hstage₁, hnew₁, hnew₂⟩ :=
      hstage.between hj (registerSteps.ofJoins js₀ hjs) hnew hwithin
    have hwithin₁ : scope₁.Within whole := by
      intro key source hs
      refine hstage₁.within key source ?_
      rwa [Scope.mergeJoin_sources]
    have hstage' := (hstage.between (registerSteps.ofFactor f₀ hf) .nil
      (by rwa [List.append_nil]) hwithin₁).1
    have hmerged := hstage'.mergeJoin hknown hstart hstage.size_eq
      (ih _ mergings hstage hwithin₁ hnew₁ hm) condition
    rw [List.append_assoc, ← List.flatMap_singleton (JoinSite.mergings whole),
      ← List.flatMap_append] at hmerged
    rw [List.append_assoc factors] at hstage₁ hnew₂
    have hjoins := ihs factors _ _ hstart hstage₁ hwithin hnew₂ hmerged
    rwa [List.append_assoc, ← List.flatMap_append] at hjoins
  tree hf hjs ih ihs factors mergings hstage hwithin hnew hm := by
    obtain ⟨hstage₁, hnew₁, hnew₂⟩ := hstage.between (registerSteps.ofFactor _ hf)
      (registerSteps.ofJoins _ hjs) hnew hwithin
    have hfirst := ih factors mergings hstage hstage₁.within hnew₁ hm
    have hjoins := ihs factors _ _ hstage.size_eq hstage₁ hwithin hnew₂ hfirst
    rwa [List.append_assoc, ← List.flatMap_append] at hjoins
  nil _ mergings _ _ _ hm := (List.append_nil mergings).symm ▸ hm
  cons ht hts ih ihs factors mergings hstage hwithin hnew hm := by
    obtain ⟨hstage₁, hnew₁, hnew₂⟩ := hstage.between (registerSteps.ofTree _ ht)
      (registerSteps.ofTrees _ hts) hnew hwithin
    have hrest := ihs _ _ hstage₁ hwithin hnew₂ (ih factors mergings hstage hstage₁.within hnew₁ hm)
    rwa [List.append_assoc, ← List.flatMap_append, ← List.flatMap_cons] at hrest

/-- In the scope of a `FROM` clause with distinct labels and known columns, the merged columns come
from the joins of the clause. -/
theorem Select.merges {s₀ : Select} {registered : List TableTree}
    (h : TableTree.registerList x v {} s₀.sources = .ok (registered, scope))
    (hlabels : (TableFactor.labels s₀.factors).Nodup) (hknown : scope.unknowns = []) :
    scope.Merges (s₀.mergings scope) := by
  have hstart : Scope.Stage scope [] {} := ⟨rfl, Scope.regular_empty, fun _ _ hs => by cases hs⟩
  exact (mergesSteps hknown).ofTrees s₀.sources h [] [] hstart (fun _ _ hs => hs) hlabels
    Scope.merges_empty

end registers

end ColumnLineage
