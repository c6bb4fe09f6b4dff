import ColumnLineage.Proofs.Bindings

/-!
# What the nodes of a draft stand for

A builder keeps one node for each column of each place. A node that it finds under a key was made
when the column was first met, perhaps on another way and with other common tables at hand. It
stands for the same readings all the same, since these depend on the place alone.
-/

namespace ColumnLineage

/-! ## Keys of columns -/

/-- A column that is looked for by its position or by a word. -/
def Target.IsWord : Target → Prop
  | .name column => PlainWord column
  | .index _ => True

theorem Target.isWord_index (i : Nat) : (Target.index i).IsWord :=
  trivial

/-- The key of what a column of a select is. -/
def SelectPick.key (place : Place) : SelectPick → Key
  | .item i _ => .column place (some i)
  | .star _ column => .leaf place ("*" ++ Text.toLower column)

/-- The key of a column of the body at a spot. -/
def Spot.key (s : Spot) (target : Target) : Except GraphError Key :=
  match s.body with
  | .select select => (select.pick target).map (SelectPick.key s.place)
  | .setOperation _ _ _ _ =>
    (positionOf s.body.positionalNames target).map fun i => .column s.place (some i)
  | _ => .ok (.column s.place target.index?)

variable {s : Spot} {target : Target}

theorem Spot.place_of_key {key : Key} (h : s.key target = .ok key) : key.place = s.place := by
  unfold Spot.key at h
  split at h
  · obtain ⟨pick, -, rfl⟩ := map_eq_ok.mp h
    cases pick <;> rfl
  · obtain ⟨i, -, rfl⟩ := map_eq_ok.mp h
    rfl
  · cases h
    rfl

/-- Columns that have no position are known by names with a star. -/
theorem Spot.star_of_key {place : Place} {name : String}
    (h : s.key target = .ok (.leaf place name)) : '*' ∈ name.toList := by
  unfold Spot.key at h
  split at h
  · obtain ⟨pick, -, hp⟩ := map_eq_ok.mp h
    cases pick with
    | item i item => cases hp
    | star qualifier column =>
      cases hp
      simp
  · obtain ⟨i, -, hi⟩ := map_eq_ok.mp h
    cases hi
  · cases h

variable {b : PlacedBody}

theorem Spot.key_of_plans {catalog : Catalog} {p : Plan} (hplace : s.place = b.opened.place)
    (hbody : s.body = b.opened.body) (h : b.Plans catalog target p) : s.key target = .ok p.key := by
  cases h with
  | item hb hp hi =>
    simp only [Spot.key, hbody, hb, hp, hplace]
    rfl
  | star hb hp ht hs =>
    simp only [Spot.key, hbody, hb, hp, hplace]
    rfl
  | sides hb hi =>
    rw [hb] at hi
    simp only [Spot.key, hbody, hb, hi, hplace]
    rfl
  | plain hs ho =>
    unfold Spot.key
    rw [hbody, hplace]
    split
    · exact absurd ‹_› (hs _)
    · exact absurd ‹_› (ho _ _ _ _)
    · rfl

theorem Select.pick_eq_of_key {s : Select} {place : Place} {target' : Target}
    {pick pick' : SelectPick} (h : s.pick target = .ok pick) (h' : s.pick target' = .ok pick')
    (hw : target.IsWord) (hw' : target'.IsWord) (hk : pick.key place = pick'.key place) :
    pick = pick' := by
  cases pick with
  | item i item =>
    cases pick' with
    | item i' item' =>
      obtain rfl : i = i' := by simpa [SelectPick.key] using hk
      have hi := Select.mem_of_pick h
      rw [Select.mem_of_pick h', Option.some.injEq] at hi
      rw [hi]
    | star _ _ => cases hk
  | star qualifier column =>
    cases pick' with
    | item _ _ => cases hk
    | star qualifier' column' =>
      obtain ⟨rfl, hq⟩ := Select.star_of_pick h
      obtain ⟨rfl, hq'⟩ := Select.star_of_pick h'
      have hc : Text.toLower column = Text.toLower column' := by
        simpa [SelectPick.key, String.ext_iff] using hk
      rw [PlainWord.lower hw, PlainWord.lower hw'] at hc
      rw [hq, Option.some.injEq] at hq'
      rw [hc, hq']

theorem Spot.readings_eq_of_key {target' : Target} {key : Key} (h : s.key target = .ok key)
    (h' : s.key target' = .ok key) (hw : target.IsWord) (hw' : target'.IsWord) (catalog : Catalog) :
    s.readings catalog target = s.readings catalog target' := by
  cases hb : s.body with
  | select select =>
    simp only [Spot.key, hb] at h h'
    simp only [Spot.readings, hb]
    obtain ⟨pick, hp, hk⟩ := map_eq_ok.mp h
    obtain ⟨pick', hp', hk'⟩ := map_eq_ok.mp h'
    rw [hp, hp', Select.pick_eq_of_key hp hp' hw hw' (hk.trans hk'.symm)]
  | setOperation op quantifier left right =>
    simp only [Spot.key, hb] at h h'
    simp only [Spot.readings, hb]
    obtain ⟨i, hp, hk⟩ := map_eq_ok.mp h
    obtain ⟨i', hp', hk'⟩ := map_eq_ok.mp h'
    obtain rfl : i = i' := by simpa using hk.trans hk'.symm
    rw [hp, hp']
  | _ => simp only [Spot.readings, hb]

/-! ## Nodes and readings -/

/-- Whether a node gets its columns from its sources. -/
def Origin.isComputed : Origin → Bool
  | .projection _ => true
  | .setOperation _ => true
  | _ => false

theorem PlacedBody.Plans.isComputed {catalog : Catalog} {p : Plan} (h : b.Plans catalog target p) :
    p.origin.isComputed := by
  cases h <;> rfl

variable {select : Select} {qualifier : Option String} {column : String}

section drafts

variable {q : Query} {catalog : Catalog}

/-- A node of a draft stands for a reading of a query. -/
def Stands (q : Query) (d : Draft) (id : Nat) : Reading → Prop
  | .base r c =>
    r.isBare = false ∧ PlainWord c ∧ ∃ label, d.nodes[id]? = some ⟨dotted label c, .table r, []⟩
  | .label l c => PlainWord c ∧ d.nodes[id]? = some ⟨dotted l c, .placeholder, []⟩
  | .nothing => ∃ c, PlainWord c ∧ d.nodes[id]? = some ⟨c, .placeholder, []⟩
  | .column s target =>
    q.at? s.place = some s ∧ target.IsWord ∧
      ∃ key, s.opened.key target = .ok key ∧ d.find? key = some id

/-- Nodes stand for readings, each for one of them, and each is stood for. -/
structure Linked (q : Query) (d : Draft) (ids : List Nat) (readings : List Reading) : Prop where
  left : ∀ id ∈ ids, ∃ r ∈ readings, Stands q d id r
  right : ∀ r ∈ readings, ∃ id ∈ ids, Stands q d id r

/-- A node has the sources that a column is read from. -/
def Done (q : Query) (catalog : Catalog) (d : Draft) (id : Nat) (s : Spot) (target : Target) :
    Prop :=
  ∃ node readings, d.nodes[id]? = some node ∧ node.origin.isComputed ∧
    s.readings catalog target = .ok readings ∧ Linked q d node.sources readings

/-- The origin of the node of a column that is known by its name only. -/
def leafOrigin (sources : OrderedMap String (String × LexicalSource)) (name : String) : Origin :=
  match splitLastDot? name with
  | some (label, _) =>
    match sources.get? (Text.toLower label) with
    | some (_, .table r) => .table r
    | _ => .placeholder
  | none => .placeholder

/-- All nodes of a draft are right. -/
structure Sound (q : Query) (catalog : Catalog) (d : Draft) : Prop where
  /-- A node has the sources that its column is read from. -/
  done : ∀ {key : Key} {id : Nat} {s : Spot} {target : Target}, d.find? key = some id →
    q.at? s.place = some s → target.IsWord → s.key target = .ok key → Done q catalog d id s target
  leaves : ∀ {name : String} {id : Nat} {s : Spot} {select : Select},
    d.find? (.leaf s.place name) = some id → '*' ∉ name.toList → q.at? s.place = some s →
      s.body = .select select → d.nodes[id]? = some ⟨name, leafOrigin (s.sources select) name, []⟩

/-! ## Columns that a select reads -/

/-- A source is known by a name of its select, and found under it. -/
theorem Spot.mem_sources {key label : String} {source : LexicalSource}
    (h : (key, label, source) ∈ (s.sources select).entries) :
    label ∈ select.words ∧ (s.sources select).get? (Text.toLower label) = some (label, source) := by
  have hm := OrderedMap.mem_of_mem_ofList h
  obtain ⟨⟨factor, i⟩, hf, he⟩ := List.mem_filterMap.mp hm
  obtain ⟨⟨label', source'⟩, hs, he⟩ := Option.map_eq_some_iff.mp he
  cases he
  refine ⟨?_, OrderedMap.get?_of_mem h⟩
  have hfactor : factor ∈ select.factors :=
    List.mem_of_getElem? (List.mem_zipIdx_iff_getElem?.mp hf)
  refine List.mem_append_right _ (List.mem_flatMap.mpr ⟨factor, hfactor, ?_⟩)
  cases factor with
  | table name numbered alias_ hints =>
    simp only [Spot.sourceOf?] at hs
    split at hs <;> cases hs <;> exact List.mem_singleton_self _
  | tableFunction name arguments numbered alias_ hints =>
    cases hs
    exact List.mem_singleton_self _
  | nested tables alias_ => cases hs
  | document opening e rest alias_ => cases hs
  | pivot table aggregates column values otherwise alias_ => cases hs
  | unpivot table value name columns alias_ => cases hs
  | _ =>
    obtain ⟨a, rfl, ha⟩ := Option.map_eq_some_iff.mp hs
    cases ha
    simp [TableFactor.words]

theorem sole?_mem {α : Type} {as : List α} {a : α} (h : sole? as = some a) : a ∈ as := by
  unfold sole? at h
  split at h <;> cases h
  exact List.mem_singleton_self _

theorem Spot.mem_of_sourceFor? {label : String} {source : LexicalSource}
    (h : s.sourceFor? catalog select qualifier column = some (label, source)) :
    label ∈ select.words ∧ (s.sources select).get? (Text.toLower label) = some (label, source) := by
  cases qualifier with
  | some name => exact Spot.mem_sources (OrderedMap.mem_of_get?_eq_some h)
  | none =>
    have hv : (label, source) ∈ (s.sources select).values := by
      rcases Option.or_eq_some_iff.mp h with h | ⟨-, h⟩
      · exact sole?_mem h
      · exact List.mem_of_mem_filter (sole?_mem h)
    obtain ⟨key, hk⟩ := OrderedMap.exists_mem_of_mem_values hv
    exact Spot.mem_sources hk

theorem star_not_mem_dotted {label : String} (hl : PlainWord label) (hc : PlainWord column) :
    '*' ∉ (dotted label column).toList := by
  simp [dotted, hl.starless, hc.starless]

theorem declaredTarget_isWord {declared : List String} (h : PlainWord column) :
    (declaredTarget declared column).IsWord := by
  unfold declaredTarget
  split
  · trivial
  · exact h

theorem firstStar?_words {label : String} : {items : List SelectItem} → {qualifier : Option String} →
    firstStar? items = some qualifier → label ∈ qualifier → label ∈ items.flatMap SelectItem.words
  | [], _, h, _ => by cases h
  | .star :: _, _, h, hl => by
      cases h
      cases hl
  | .starOf name :: _, _, h, hl => by
      cases h
      rw [List.flatMap_cons]
      exact List.mem_append_left _ (Option.mem_toList.mpr hl)
  | .expr e l :: rest, _, h, hl => by
      rw [List.flatMap_cons]
      exact List.mem_append_right _ (firstStar?_words h hl)

theorem Select.reference_words {item : SelectItem} (hi : item ∈ select.items)
    (hr : .column qualifier column ∈ item.references) :
    column ∈ select.words ∧ ∀ label ∈ qualifier, label ∈ select.words := by
  have hsub : ∀ w ∈ Reference.words (.column qualifier column), w ∈ select.words := by
    intro w hw
    refine List.mem_append_left _ (List.mem_flatMap.mpr ⟨item, hi, ?_⟩)
    cases item with
    | expr e label => exact List.mem_flatMap.mpr ⟨_, hr, hw⟩
    | star => cases hr
    | starOf name => cases hr
  refine ⟨hsub column ?_, fun label hl => hsub label ?_⟩
  · simp [Reference.words]
  · exact List.mem_append_left _ (Option.mem_toList.mpr hl)

/-- What is wanted at a spot stands for a reading. -/
inductive Wanted.Means (q : Query) (s : Spot) : Wanted → Reading → Prop
  | leaf {name : String} {origin : Origin} {r : Reading} {select : Select}
    (hb : s.body = .select select) (hstar : '*' ∉ name.toList)
    (ho : origin = leafOrigin (s.sources select) name)
    (hr : ∀ {d : Draft} {id : Nat}, d.nodes[id]? = some ⟨name, origin, []⟩ → Stands q d id r) :
    Means q s (.leaf name origin) r
  | column {b : PlacedBody} {target : Target} {s' : Spot} (h : Follows q b s')
    (hw : target.IsWord) : Means q s (.column b target) (.column s' target)

section means

variable (hq : q.Unambiguous) {b : PlacedBody} {s : Spot} (h : Follows q b s) {select : Select}
  (hb : b.opened.body = .select select)

include hq h hb

theorem means_wanted (hqualifier : ∀ label ∈ qualifier, PlainWord label)
    (hcolumn : PlainWord column) :
    ((b.view select).wanted catalog qualifier column).Means q s.opened
      (s.opened.read catalog select qualifier column) := by
  have hopened := h.opened
  have hbody : s.opened.body = .select select := hopened.body_eq.trans hb
  have hrel := hq.sourceFor?_rel hopened hb catalog qualifier column
  unfold SelectView.wanted PlacedBody.view
  generalize SelectView.sourceOf? ⟨b.opened.place, b.opened.ctes, _⟩ catalog qualifier column =
    found at hrel ⊢
  unfold Spot.read
  generalize hl : s.opened.sourceFor? catalog select qualifier column = found' at hrel ⊢
  cases hrel with
  | none =>
    cases qualifier with
    | some label =>
      have hnone : (s.opened.sources select).get? (Text.toLower label) = none := hl
      refine .leaf hbody (star_not_mem_dotted (hqualifier label rfl) hcolumn) ?_ ?_
      · simp only [leafOrigin, splitLastDot?_dotted label hcolumn.dotless, hnone]
      · exact fun hn => ⟨hcolumn, hn⟩
    | none =>
      refine .leaf hbody hcolumn.starless ?_ ?_
      · simp only [leafOrigin, splitLastDot?_eq_none hcolumn.dotless]
      · exact fun hn => ⟨column, hcolumn, hn⟩
  | @some x y hxy =>
    obtain ⟨label, source⟩ := x
    obtain ⟨label', source'⟩ := y
    obtain ⟨hlabel, hsource⟩ := hxy
    obtain rfl : label = label' := hlabel
    obtain ⟨hword, hget⟩ := Spot.mem_of_sourceFor? hl
    have hlabel : PlainWord label := hq.folded.select hopened.at_place hbody hword
    have hstar := star_not_mem_dotted hlabel hcolumn
    cases hsource with
    | table hbare =>
      refine .leaf hbody hstar ?_ ?_
      · simp only [leafOrigin, splitLastDot?_dotted label hcolumn.dotless, hget]
      · exact fun hn => ⟨hbare, hcolumn, label, hn⟩
    | query declared hf => exact .column hf (declaredTarget_isWord hcolumn)
    | function =>
      refine .leaf hbody hstar ?_ ?_
      · simp only [leafOrigin, splitLastDot?_dotted label hcolumn.dotless, hget]
      · exact fun hn => ⟨hcolumn, hn⟩

theorem means_references {i : Nat} {item : SelectItem} (hi : select.items[i]? = some item) :
    (references : List Reference) → (k : Nat) →
      (∀ j, references[j]? = item.references[k + j]?) →
      List.Forall₂ (Wanted.Means q s.opened)
        ((b.view select).wantedReferences catalog i k references)
        (s.opened.readReferences catalog select i k references)
  | [], _, _ => .nil
  | r :: rest, k, hr => by
      have hk : item.references[k]? = some r := (hr 0).symm
      refine .cons ?_ (means_references hi rest (k + 1) fun j => ?_)
      · cases r with
        | column qualifier name =>
          obtain ⟨hname, hlabels⟩ :=
            Select.reference_words (List.mem_of_getElem? hi) (List.mem_of_getElem? hk)
          have hbody := h.opened.body_eq.trans hb
          refine means_wanted hq h hb (fun label hl => ?_) ?_
          · exact hq.folded.select h.opened.at_place hbody (hlabels label hl)
          · exact hq.folded.select h.opened.at_place hbody hname
        | scalar inner => exact .column (h.opened.scalar hb hi hk) (Target.isWord_index 0)
      · rw [Nat.add_right_comm, Nat.add_assoc, ← hr (j + 1)]
        rfl

end means

/-- What is wanted for a column stands for what the column is read from. -/
theorem means_of_plans (hq : q.Unambiguous) (h : Follows q b s) (hw : target.IsWord) {p : Plan}
    (hp : b.Plans catalog target p) :
    ∃ readings, s.opened.readings catalog target = .ok readings ∧
      List.Forall₂ (Wanted.Means q s.opened) p.wanted readings := by
  have hbody := h.opened.body_eq
  cases hp with
  | @item select i item hb hp hi =>
    refine ⟨s.opened.readReferences catalog select i 0 item.references, ?_,
      means_references hq h hb hi item.references 0 fun j => by rw [Nat.zero_add]⟩
    simp only [Spot.readings, hbody, hb, hp]
    rfl
  | @star select qualifier column hb hp ht hs =>
    subst ht
    refine ⟨[s.opened.read catalog select qualifier column], ?_, .cons ?_ .nil⟩
    · simp only [Spot.readings, hbody, hb, hp]
      rfl
    · refine means_wanted hq h hb (fun label hl => ?_) hw
      exact hq.folded.select h.opened.at_place (hbody.trans hb)
        (List.mem_append_left _ (firstStar?_words hs hl))
  | sides hb hi =>
    refine ⟨_, ?_, .cons (.column (h.opened.left hb) (Target.isWord_index _))
      (.cons (.column (h.opened.right hb) (Target.isWord_index _)) .nil)⟩
    rw [hb] at hi
    simp only [Spot.readings, hbody, hb, hi]
    rfl
  | plain hs ho =>
    refine ⟨[], ?_, .nil⟩
    unfold Spot.readings
    rw [hbody]
    split
    · exact absurd ‹_› (hs _)
    · exact absurd ‹_› (ho _ _ _ _)
    · rfl

/-! ## Finished drafts -/

/-- The columns that stand for readings: those of bodies at places of the query, by words. -/
def Legible (q : Query) (b : PlacedBody) (target : Target) : Prop :=
  (∃ s, Follows q b s) ∧ target.IsWord

theorem hereditary_legible (hq : q.Unambiguous) : Hereditary catalog (Legible q) := by
  rintro b target p ⟨⟨s, h⟩, hw⟩ hp b' t hmem
  obtain ⟨readings, -, hmeans⟩ := means_of_plans hq h hw hp
  obtain ⟨r, -, hr⟩ := forall₂_of_mem_left hmeans hmem
  cases hr with
  | column h' hw' => exact ⟨⟨_, h'⟩, hw'⟩

section finished

variable (hq : q.Unambiguous) {d : Draft} {limit : Nat}
  (hd : ∀ {key : Key} {id : Nat}, d.find? key = some id →
    d.Finished (Planned catalog limit (Legible q)) key id)

include hq hd

theorem leaf_of_finished {name : String} {id : Nat} (hk : d.find? (.leaf s.place name) = some id)
    (hstar : '*' ∉ name.toList) (hat : q.at? s.place = some s) (hb : s.body = .select select) :
    d.nodes[id]? = some ⟨name, leafOrigin (s.sources select) name, []⟩ := by
  obtain ⟨label, origin, sources, ids, hplanned, hnode, hrun⟩ := hd hk
  generalize hkey : Key.leaf s.place name = key at hplanned
  cases hplanned with
  | own n hv hp =>
    obtain ⟨⟨s', h⟩, -⟩ := hv
    have hkey' := Spot.key_of_plans h.opened.place_eq h.opened.body_eq hp
    rw [← hkey] at hkey'
    exact absurd (Spot.star_of_key hkey') hstar
  | leaf hv hp hw =>
    obtain ⟨⟨s', h⟩, hword⟩ := hv
    obtain ⟨readings, -, hmeans⟩ := means_of_plans hq h hword hp
    obtain ⟨r, -, hr⟩ := forall₂_of_mem_left hmeans hw
    rw [Key.leaf.injEq, hp.place_eq, ← h.opened.place_eq] at hkey
    obtain ⟨hplace, rfl⟩ := hkey
    rw [hplace, h.opened.at_spot, Option.some.injEq] at hat
    subst hat
    obtain ⟨rfl, -⟩ := pure_run_eq_ok.mp hrun
    cases hr with
    | leaf hb' _ ho _ =>
      rw [hb, Body.select.injEq] at hb'
      rw [hnode, ho, hb']

theorem stands_of_means (hat : q.at? s.place = some s) {w : Wanted} {r : Reading}
    (hw : w.Means q s r) {n id : Nat}
    (hrun : w.run (columnWithin catalog limit n) s.place d = .ok (id, d)) : Stands q d id r := by
  cases hw with
  | leaf hb hstar ho hr =>
    refine hr ?_
    rw [ho]
    exact leaf_of_finished hq hd (Wanted.find?_of_leaf hrun) hstar hat hb
  | column h hw =>
    obtain ⟨p, hp, hk⟩ := find?_of_columnWithin hrun
    exact ⟨h.at_spot, hw, p.key, Spot.key_of_plans h.opened.place_eq h.opened.body_eq
      (PlacedBody.plans_of_plan hp), hk⟩

theorem sound_of_finished : Sound q catalog d where
  leaves := leaf_of_finished hq hd
  done {key id s target} hk hat hword hkey := by
    obtain ⟨name, origin, sources, ids, hplanned, hnode, hrun⟩ := hd hk
    cases hplanned with
    | leaf hv hp hw =>
      obtain ⟨⟨s', h⟩, hword'⟩ := hv
      obtain ⟨readings, -, hmeans⟩ := means_of_plans hq h hword' hp
      obtain ⟨r, -, hr⟩ := forall₂_of_mem_left hmeans hw
      cases hr with
      | leaf _ hstar _ _ => exact absurd (Spot.star_of_key hkey) hstar
    | own n hv hp =>
      obtain ⟨⟨s', h⟩, hword'⟩ := hv
      have hkey' := Spot.key_of_plans h.opened.place_eq h.opened.body_eq hp
      -- The key tells the place, and so the spot.
      have hplace := (Spot.place_of_key hkey).symm.trans (Spot.place_of_key hkey')
      rw [hplace, h.opened.at_spot, Option.some.injEq] at hat
      subst hat
      obtain ⟨readings, hreadings, hmeans⟩ := means_of_plans hq h hword' hp
      rw [Spot.readings_eq_of_key hkey' hkey hword' hword] at hreadings
      obtain ⟨hall, hmem⟩ :=
        Wanted.mem_runAll (steady_columnWithin catalog limit n) _ hrun fun _ _ hk => hk
      rw [hp.place_eq, ← h.opened.place_eq] at hall hmem
      refine ⟨_, readings, hnode, hp.isComputed, hreadings, fun id' hid => ?_, fun r hr => ?_⟩
      · obtain ⟨w, hw, hfound⟩ := ((hmem id').mp hid).resolve_left List.not_mem_nil
        obtain ⟨r, hr, hmean⟩ := forall₂_of_mem_left hmeans hw
        exact ⟨r, hr, stands_of_means hq hd h.opened.at_spot hmean hfound⟩
      · obtain ⟨w, hw, hmean⟩ := forall₂_of_mem_right hmeans hr
        obtain ⟨id', hfound⟩ := hall w hw
        exact ⟨id', (hmem id').mpr (.inr ⟨w, hw, hfound⟩),
          stands_of_means hq hd h.opened.at_spot hmean hfound⟩

end finished

/-- A builder leaves a draft that is sound, and the node that it finds stands for the column. -/
theorem sound_of_run (hq : q.Unambiguous) (h : Follows q b s) (hw : target.IsWord)
    {limit n root : Nat} {d : Draft}
    (hrun : columnWithin catalog limit n b target {} = .ok (root, d)) :
    Sound q catalog d ∧ Stands q d root (.column s target) := by
  obtain ⟨-, hfinished⟩ := finished_of_run (hereditary_legible hq) ⟨⟨s, h⟩, hw⟩ hrun
  obtain ⟨p, hp, hk⟩ := find?_of_columnWithin hrun
  exact ⟨sound_of_finished hq hfinished, h.at_spot, hw, p.key, Spot.key_of_plans
    h.opened.place_eq h.opened.body_eq (PlacedBody.plans_of_plan hp), hk⟩

end drafts

end ColumnLineage
