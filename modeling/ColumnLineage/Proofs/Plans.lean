import ColumnLineage.Proofs.BuilderWalk
import ColumnLineage.Proofs.Drafts

/-!
# What a column of a body is made of

Whatever a body is, a column of it becomes a node that is known by a key, and the sources of the
node are looked for one after another. Each of them is a column that is known by its name only, or
a column of a body that is entered. The plan of a column says all of this in advance.
-/

namespace ColumnLineage

/-! ## Sources one after another -/

/-- What is looked for on the way to a node. -/
inductive Wanted
  /-- A column that is known by its name only. -/
  | leaf (name : String) (origin : Origin)
  | column (body : PlacedBody) (target : Target)

/-- A node is put behind those that were found. If each is wanted only once, it may be there
already. -/
def insertFound (once : Bool) (found : List Nat) (id : Nat) : List Nat :=
  if once && found.contains id then found else found ++ [id]

theorem mem_insertFound {once : Bool} {found : List Nat} {id i : Nat} :
    i ∈ insertFound once found id ↔ i ∈ found ∨ i = id := by
  unfold insertFound
  split
  · rename_i hc
    have hid : id ∈ found := by simp_all
    constructor
    · exact Or.inl
    · rintro (hi | rfl)
      · exact hi
      · exact hid
  · simp

theorem nodup_insertFound {found : List Nat} (h : found.Nodup) (id : Nat) :
    (insertFound true found id).Nodup := by
  unfold insertFound
  split
  · exact h
  · rename_i hnew
    have hid : id ∉ found := by simpa using hnew
    refine List.nodup_append.mpr ⟨h, by simp, fun i hi j hj he => hid ?_⟩
    rwa [← List.mem_singleton.mp hj, ← he]

namespace Wanted

/-- The node that is found at a place. -/
def run (deeper : Deeper) (place : Place) : Wanted → Build Nat
  | .leaf name origin => Draft.node (.leaf place name) name origin (return [])
  | .column b target => deeper b target

/-- The nodes that are found one after another, behind others. -/
def runAll (deeper : Deeper) (place : Place) (once : Bool) :
    List Nat → List Wanted → Build (List Nat)
  | found, [] => return found
  | found, w :: rest => do
    let id ← w.run deeper place
    runAll deeper place once (insertFound once found id) rest

variable {deeper : Deeper} {place : Place} {once : Bool}

theorem runAll_congr {deeper' : Deeper} : (wanted : List Wanted) → (found : List Nat) →
    (∀ b t, .column b t ∈ wanted → deeper b t = deeper' b t) →
      runAll deeper place once found wanted = runAll deeper' place once found wanted
  | [], _, _ => rfl
  | w :: rest, found, h => by
      have hfirst : w.run deeper place = w.run deeper' place := by
        cases w with
        | leaf name origin => rfl
        | column b t => exact h b t List.mem_cons_self
      rw [runAll, runAll, hfirst]
      congr 1
      funext id
      exact runAll_congr rest _ fun b t ht => h b t (List.mem_cons_of_mem _ ht)

/-- What was found before is kept, and nothing is there twice. -/
theorem subset_runAll : (wanted : List Wanted) → {found ids : List Nat} → {d d' : Draft} →
    runAll deeper place once found wanted d = .ok (ids, d') →
      found ⊆ ids ∧ (once → found.Nodup → ids.Nodup)
  | [], _, _, _, _, h => by
      obtain ⟨rfl, -⟩ := pure_run_eq_ok.mp h
      exact ⟨fun _ hi => hi, fun _ hn => hn⟩
  | w :: rest, found, ids, d, d', h => by
      obtain ⟨id, d₁, -, h₂⟩ := bind_run_eq_ok.mp h
      obtain ⟨hsub, hnodup⟩ := subset_runAll rest h₂
      refine ⟨fun i hi => hsub (mem_insertFound.mpr (.inl hi)), fun honce hn => hnodup honce ?_⟩
      subst honce
      exact nodup_insertFound hn id

theorem assembles_runAll {Asks : Key → String → Origin → Build (List Nat) → Prop} :
    (wanted : List Wanted) → (found : List Nat) →
      (∀ w ∈ wanted, Assembles Asks (fun id => [id]) (w.run deeper place)) →
      Assembles Asks id (runAll deeper place once found wanted)
  | [], found, _ => .pure _ found
  | w :: rest, found, h => by
      refine .bind (h w List.mem_cons_self) (fun id => ?_) fun {id ids d d'} hrun => ?_
      · exact assembles_runAll rest _ fun w' hw' => h w' (List.mem_cons_of_mem _ hw')
      · refine List.cons_subset.mpr ⟨?_, List.nil_subset _⟩
        exact (subset_runAll rest hrun).1 (mem_insertFound.mpr (.inr rfl))

theorem steady_run (hd : ∀ b t, Steady (deeper b t)) (w : Wanted) : Steady (w.run deeper place) := by
  cases w with
  | leaf name origin => exact steady_node (.leaf place name) name origin (steady_pure [])
  | column b t => exact hd b t

theorem find?_of_leaf {name : String} {origin : Origin} {d d' : Draft} {id : Nat}
    (h : (leaf name origin).run deeper place d = .ok (id, d')) :
    d'.find? (.leaf place name) = some id := by
  change Draft.node (.leaf place name) name origin (return []) d = _ at h
  exact find?_of_node (steady_pure []) h

theorem steady_runAll (hd : ∀ b t, Steady (deeper b t)) : (wanted : List Wanted) →
    (found : List Nat) → Steady (runAll deeper place once found wanted)
  | [], found => steady_pure found
  | w :: rest, _ => (steady_run hd w).bind fun _ => steady_runAll hd rest _

/-- The nodes that were found are found again one by one, and there are no others. -/
theorem mem_runAll (hs : ∀ b t, Steady (deeper b t)) {later : Draft} : (wanted : List Wanted) →
    {found : List Nat} → {d d' : Draft} → {ids : List Nat} →
      runAll deeper place once found wanted d = .ok (ids, d') → d'.KnownIn later →
      (∀ w ∈ wanted, ∃ id, w.run deeper place later = .ok (id, later)) ∧
      ∀ id, id ∈ ids ↔ id ∈ found ∨ ∃ w ∈ wanted, w.run deeper place later = .ok (id, later)
  | [], _, _, _, _, h, _ => by
      obtain ⟨rfl, -⟩ := pure_run_eq_ok.mp h
      simp
  | w :: rest, found, d, d', ids, h, hlater => by
      obtain ⟨id₁, d₁, h₁, h₂⟩ := bind_run_eq_ok.mp h
      have hgrows := (steady_runAll hs rest _).grows h₂
      have hfirst : w.run deeper place later = .ok (id₁, later) :=
        (steady_run hs w).settles h₁ fun _ _ hk => hlater (hgrows.keys hk)
      have hsame : ∀ id, id = id₁ ↔ w.run deeper place later = .ok (id, later) := by
        intro id
        rw [hfirst, ok_eq_ok, Prod.mk.injEq, and_iff_left rfl]
      obtain ⟨hall, hmem⟩ := mem_runAll hs rest h₂ hlater
      refine ⟨List.forall_mem_cons.mpr ⟨⟨id₁, hfirst⟩, hall⟩, fun id => ?_⟩
      rw [hmem, mem_insertFound, or_assoc, hsame, List.exists_mem_cons_iff]

end Wanted

/-! ## Columns of a select -/

/-- The column of a query whose column names are declared. -/
def declaredTarget (declared : List String) (column : String) : Target :=
  match declared.findIdx? (Text.equalIgnoringCase · column) with
  | some i => .index i
  | none => .name column

/-- The node that the reference at a position among those of an item leads to. -/
def referenceSource (catalog : Catalog) (deeper : Deeper) (v : SelectView) (item k : Nat) :
    Reference → Build Nat
  | .column qualifier name => columnSource catalog deeper v qualifier name
  | .scalar q => deeper (q.placed (.scalar item k :: v.place) v.ctes) (.index 0)

variable {qualifier : Option String}

namespace SelectView

/-- The source that a column of a select is read from. -/
def sourceOf? (v : SelectView) (catalog : Catalog) (qualifier : Option String)
    (column : String) : Option (String × SelectSource) :=
  match qualifier with
  | some q => v.sources.get? (Text.toLower q)
  | none => soleOwner? catalog v.sources column

/-- What a column of a select leads to. -/
def wanted (v : SelectView) (catalog : Catalog) (qualifier : Option String) (column : String) :
    Wanted :=
  match v.sourceOf? catalog qualifier column with
  | some (label, .table r) => .leaf (dotted label column) (.table r)
  | some (_, .query body declared) => .column body (declaredTarget declared column)
  | some (label, .function) => .leaf (dotted label column) .placeholder
  | none =>
    .leaf (match qualifier with
      | some q => dotted q column
      | none => column) .placeholder

/-- What the reference at a position among those of an item leads to. -/
def wantedReference (v : SelectView) (catalog : Catalog) (item k : Nat) : Reference → Wanted
  | .column qualifier name => v.wanted catalog qualifier name
  | .scalar q => .column (q.placed (.scalar item k :: v.place) v.ctes) (.index 0)

/-- What references lead to, the first at the given position. -/
def wantedReferences (v : SelectView) (catalog : Catalog) (item : Nat) :
    Nat → List Reference → List Wanted
  | _, [] => []
  | k, r :: rest => v.wantedReference catalog item k r :: v.wantedReferences catalog item (k + 1) rest

variable {v : SelectView} {catalog : Catalog}

theorem mem_of_sourceOf? {column label : String} {source : SelectSource}
    (h : v.sourceOf? catalog qualifier column = some (label, source)) :
    ∃ key, (key, label, source) ∈ v.sources.entries := by
  cases qualifier with
  | some q => exact ⟨_, OrderedMap.mem_of_get?_eq_some h⟩
  | none => exact OrderedMap.exists_mem_of_mem_values (mem_of_soleOwner? h)

theorem mem_of_wanted {column : String} {b : PlacedBody} {t : Target}
    (h : v.wanted catalog qualifier column = .column b t) : ∃ key label declared,
      (key, label, .query b declared) ∈ v.sources.entries ∧ t = declaredTarget declared column := by
  unfold wanted at h
  split at h <;> cases h
  obtain ⟨key, hm⟩ := mem_of_sourceOf? ‹_›
  exact ⟨key, _, _, hm, rfl⟩

theorem mem_wantedReferences {item : Nat} {w : Wanted} : {references : List Reference} → {k : Nat} →
    (w ∈ v.wantedReferences catalog item k references ↔
      ∃ j r, references[j]? = some r ∧ w = v.wantedReference catalog item (k + j) r)
  | [], _ => by simp [wantedReferences]
  | r :: rest, k => by
      rw [wantedReferences, List.mem_cons, mem_wantedReferences]
      constructor
      · rintro (rfl | ⟨j, r', hj, rfl⟩)
        · exact ⟨0, r, rfl, rfl⟩
        · exact ⟨j + 1, r', hj, by rw [Nat.add_right_comm, Nat.add_assoc]⟩
      · rintro ⟨j, r', hj, rfl⟩
        cases j with
        | zero =>
          cases hj
          exact Or.inl rfl
        | succ j => exact Or.inr ⟨j, r', hj, by rw [Nat.add_right_comm, Nat.add_assoc]⟩

end SelectView

section selects

variable (catalog : Catalog) (deeper : Deeper) (v : SelectView)

theorem columnSource_eq (qualifier : Option String) (column : String) :
    columnSource catalog deeper v qualifier column =
      (v.wanted catalog qualifier column).run deeper v.place := by
  cases qualifier with
  | some q =>
    unfold columnSource SelectView.wanted SelectView.sourceOf?
    dsimp only
    rcases v.sources.get? (Text.toLower q) with _ | ⟨label, source⟩
    · rfl
    · cases source <;> rfl
  | none =>
    unfold columnSource SelectView.wanted SelectView.sourceOf?
    dsimp only
    rcases soleOwner? catalog v.sources column with _ | ⟨label, source⟩
    · rfl
    · cases source <;> rfl

theorem referenceSource_eq (item k : Nat) (r : Reference) :
    referenceSource catalog deeper v item k r =
      (v.wantedReference catalog item k r).run deeper v.place := by
  cases r with
  | column qualifier name => exact columnSource_eq catalog deeper v qualifier name
  | scalar q => rfl

theorem referenceSources_eq (item : Nat) : (references : List Reference) → (k : Nat) →
    (found : List Nat) → referenceSources catalog deeper v item k found references =
      Wanted.runAll deeper v.place true found (v.wantedReferences catalog item k references)
  | [], _, _ => rfl
  | r :: rest, k, found => by
      rw [SelectView.wantedReferences, Wanted.runAll, ← referenceSource_eq]
      have hstep : referenceSources catalog deeper v item k found (r :: rest) =
          referenceSource catalog deeper v item k r >>= fun id => referenceSources catalog deeper v
            item (k + 1) (insertFound true found id) rest := by
        cases r <;> rfl
      rw [hstep]
      congr 1
      funext id
      exact referenceSources_eq item rest (k + 1) _

end selects

/-- What a column of a select is: one of its items, or a column that a star gives. -/
inductive SelectPick
  | item (index : Nat) (item : SelectItem)
  /-- A column that the first star gives, which may have a qualifier. -/
  | star (qualifier : Option String) (column : String)

namespace Select

/-- The item at a position of a select. -/
def itemAt (s : Select) (i : Nat) : Except GraphError SelectPick :=
  match s.items[i]? with
  | some item => .ok (.item i item)
  | none => .error (.indexOutOfRange i)

def pick (s : Select) : Target → Except GraphError SelectPick
  | .index i => s.itemAt i
  | .name column =>
    match position? s.outputNames column with
    | some i => s.itemAt i
    | none =>
      match firstStar? s.items with
      | none => .error (.columnNotFound column)
      | some qualifier => .ok (.star qualifier column)

variable {s : Select} {target : Target}

theorem mem_of_itemAt {i : Nat} {pick : SelectPick} (h : s.itemAt i = .ok pick) :
    ∃ item, pick = .item i item ∧ s.items[i]? = some item := by
  unfold itemAt at h
  split at h <;> cases h
  exact ⟨_, rfl, ‹_›⟩

theorem mem_of_pick {i : Nat} {item : SelectItem} (h : s.pick target = .ok (.item i item)) :
    s.items[i]? = some item := by
  cases target with
  | index j =>
    obtain ⟨_, he, hi⟩ := mem_of_itemAt h
    cases he
    exact hi
  | name column =>
    simp only [pick] at h
    split at h
    · obtain ⟨_, he, hi⟩ := mem_of_itemAt h
      cases he
      exact hi
    · split at h <;> cases h

theorem star_of_pick {column : String} (h : s.pick target = .ok (.star qualifier column)) :
    target = .name column ∧ firstStar? s.items = some qualifier := by
  cases target with
  | index i =>
    obtain ⟨_, he, -⟩ := mem_of_itemAt h
    cases he
  | name c =>
    simp only [pick] at h
    split at h
    · obtain ⟨_, he, -⟩ := mem_of_itemAt h
      cases he
    · split at h <;> cases h
      exact ⟨rfl, ‹_›⟩

/-- A column is read by an item, or by the star that gives a column which is looked for. -/
def Reads (s : Select) (target : Target) (qualifier : Option String) (column : String) : Prop :=
  (∃ item ∈ s.items, .column qualifier column ∈ item.references) ∨
    target = .name column ∧ firstStar? s.items = some qualifier

end Select

/-- What a builder looks at in the select of a body. -/
def PlacedBody.view (b : PlacedBody) (s : Select) : SelectView :=
  ⟨b.opened.place, b.opened.ctes, sourceMap b.opened.place b.opened.ctes s⟩

/-! ## Plans -/

/-- The position of a column that is looked for by it. -/
def Target.index? : Target → Option Nat
  | .index i => some i
  | .name _ => none

/-- The position of a column of a set operation. -/
def positionOf (names : List (Option String)) : Target → Except GraphError Nat
  | .index i => .ok i
  | .name column =>
    match position? names column with
    | some i => .ok i
    | none => .error (.columnNotFound column)

/-- What a column is made of. -/
structure Plan where
  key : Key
  name : String
  origin : Origin
  /-- Whether each of its sources is wanted only once. -/
  once : Bool
  wanted : List Wanted

namespace Plan

def sources (p : Plan) (deeper : Deeper) : Build (List Nat) :=
  Wanted.runAll deeper p.key.place p.once [] p.wanted

def run (p : Plan) (deeper : Deeper) : Build Nat :=
  Draft.node p.key p.name p.origin (p.sources deeper)

def follow (deeper : Deeper) : Except GraphError Plan → Build Nat
  | .ok p => p.run deeper
  | .error e => throw e

def ofPick (catalog : Catalog) (v : SelectView) : SelectPick → Plan
  | .item i item =>
    ⟨.column v.place (some i), (item.outputName? i).getD (positionName i), .projection item.text,
      true, v.wantedReferences catalog i 0 item.references⟩
  | .star qualifier column =>
    ⟨.leaf v.place ("*" ++ Text.toLower column), column, .projection "*", true,
      [v.wanted catalog qualifier column]⟩

/-- The column of a set operation at a position. -/
def ofSides (b : PlacedBody) (left right : Body) (i : Nat) : Plan :=
  ⟨.column b.place (some i), (b.body.positionalNames[i]?.join).getD (positionName i),
    .setOperation i, false, [.column ⟨left, .left :: b.place, b.ctes⟩ (.index i),
      .column ⟨right, .right :: b.place, b.ctes⟩ (.index i)]⟩

/-- The column of a body that reads no columns. -/
def plain (b : PlacedBody) (target : Target) : Plan :=
  ⟨.column b.place target.index?,
    match target with
    | .index i => positionName i
    | .name column => column,
    .projection b.body.text, true, []⟩

end Plan

namespace PlacedBody

/-- What a column of a body is made of. -/
def plan (b : PlacedBody) (catalog : Catalog) (target : Target) : Except GraphError Plan :=
  match b.opened.body with
  | .select s => (s.pick target).map (Plan.ofPick catalog (b.view s))
  | .setOperation _ _ left right =>
    (positionOf b.opened.body.positionalNames target).map (Plan.ofSides b.opened left right)
  | _ => .ok (Plan.plain b.opened target)

/-- The plans of a body, by what it is. -/
inductive Plans (b : PlacedBody) (catalog : Catalog) (target : Target) : Plan → Prop
  | item {s : Select} {i : Nat} {item : SelectItem} (hb : b.opened.body = .select s)
    (hp : s.pick target = .ok (.item i item)) (hi : s.items[i]? = some item) :
    Plans b catalog target (.ofPick catalog (b.view s) (.item i item))
  | star {s : Select} {qualifier : Option String} {column : String}
    (hb : b.opened.body = .select s) (hp : s.pick target = .ok (.star qualifier column))
    (ht : target = .name column) (hs : firstStar? s.items = some qualifier) :
    Plans b catalog target (.ofPick catalog (b.view s) (.star qualifier column))
  | sides {op : SetOperator} {quantifier : SetQuantifier} {left right : Body} {i : Nat}
    (hb : b.opened.body = .setOperation op quantifier left right)
    (hi : positionOf b.opened.body.positionalNames target = .ok i) :
    Plans b catalog target (.ofSides b.opened left right i)
  | plain (hs : ∀ s, b.opened.body ≠ .select s)
    (ho : ∀ op quantifier left right, b.opened.body ≠ .setOperation op quantifier left right) :
    Plans b catalog target (.plain b.opened target)

/-- What is looked for on the way to a column of a body. -/
inductive Seeks (b : PlacedBody) (catalog : Catalog) (target : Target) : Wanted → Prop
  | read {s : Select} {qualifier : Option String} {column : String} {w : Wanted}
    (hb : b.opened.body = .select s) (hr : s.Reads target qualifier column)
    (hw : (b.view s).wanted catalog qualifier column = w) : Seeks b catalog target w
  | scalar {s : Select} {i k : Nat} {item : SelectItem} {q : Query} (hb : b.opened.body = .select s)
    (hi : s.items[i]? = some item) (hk : item.references[k]? = some (.scalar q)) :
    Seeks b catalog target (.column (q.placed (.scalar i k :: b.opened.place) b.opened.ctes)
      (.index 0))
  /-- The column of the left side of a set operation. -/
  | left {op : SetOperator} {quantifier : SetQuantifier} {left right : Body} {i : Nat}
    (hb : b.opened.body = .setOperation op quantifier left right)
    (hi : positionOf b.opened.body.positionalNames target = .ok i) :
    Seeks b catalog target (.column ⟨left, .left :: b.opened.place, b.opened.ctes⟩ (.index i))
  | right {op : SetOperator} {quantifier : SetQuantifier} {left right : Body} {i : Nat}
    (hb : b.opened.body = .setOperation op quantifier left right)
    (hi : positionOf b.opened.body.positionalNames target = .ok i) :
    Seeks b catalog target (.column ⟨right, .right :: b.opened.place, b.opened.ctes⟩ (.index i))

variable {b : PlacedBody} {catalog : Catalog} {target : Target} {p : Plan}

theorem plan_index {s : Select} (hb : b.opened.body = .select s) {i : Nat} {item : SelectItem}
    (hi : s.items[i]? = some item) (catalog : Catalog) :
    b.plan catalog (.index i) = .ok (.ofPick catalog (b.view s) (.item i item)) := by
  simp only [plan, hb, Select.pick, Select.itemAt, hi]
  rfl

theorem plans_of_plan (h : b.plan catalog target = .ok p) : b.Plans catalog target p := by
  unfold plan at h
  split at h
  · rename_i s hb
    obtain ⟨pick, hp, rfl⟩ := map_eq_ok.mp h
    cases pick with
    | item i item => exact .item hb hp (Select.mem_of_pick hp)
    | star qualifier column =>
      obtain ⟨ht, hs⟩ := Select.star_of_pick hp
      exact .star hb hp ht hs
  · rename_i hb
    obtain ⟨i, hi, rfl⟩ := map_eq_ok.mp h
    exact .sides hb hi
  · rename_i hs ho
    cases h
    exact .plain hs ho

theorem Plans.place_eq (h : b.Plans catalog target p) : p.key.place = b.opened.place := by
  cases h <;> rfl

theorem Plans.seeks (h : b.Plans catalog target p) {w : Wanted} (hw : w ∈ p.wanted) :
    b.Seeks catalog target w := by
  cases h with
  | @item s i item hb hp hi =>
    obtain ⟨k, r, hk, rfl⟩ := SelectView.mem_wantedReferences.mp hw
    cases r with
    | column qualifier column =>
      exact .read hb (.inl ⟨item, List.mem_of_getElem? hi, List.mem_of_getElem? hk⟩) rfl
    | scalar q =>
      rw [Nat.zero_add]
      exact .scalar hb hi hk
  | star hb hp ht hs =>
    exact .read hb (.inr ⟨ht, hs⟩) (List.mem_singleton.mp hw).symm
  | sides hb hi =>
    rcases List.mem_pair.mp hw with rfl | rfl
    · exact .left hb hi
    · exact .right hb hi
  | plain hs ho => cases hw

theorem Seeks.enters {b' : PlacedBody} {t : Target} (h : b.Seeks catalog target (.column b' t)) :
    b.Enters b' := by
  cases h with
  | read hb hr hw =>
    obtain ⟨key, label, declared, hm, -⟩ := SelectView.mem_of_wanted hw
    exact .source hb hm
  | scalar hb hi hk => exact .scalar hb hi hk
  | left hb hi => exact .left hb
  | right hb hi => exact .right hb

end PlacedBody

/-! ## The builder -/

section builder

variable (catalog : Catalog) (deeper : Deeper)

theorem selectColumn_eq (b : PlacedBody) (s : Select) (target : Target) :
    selectColumn catalog deeper b.opened.place b.opened.ctes s target =
      Plan.follow deeper ((s.pick target).map (Plan.ofPick catalog (b.view s))) := by
  have hindex : ∀ i, selectColumn catalog deeper b.opened.place b.opened.ctes s (.index i) =
      Plan.follow deeper ((s.pick (.index i)).map (Plan.ofPick catalog (b.view s))) := by
    intro i
    simp only [selectColumn, Select.pick, Select.itemAt]
    cases s.items[i]? with
    | some item =>
      simp only [itemColumn, referenceSources_eq]
      rfl
    | none => rfl
  cases target with
  | index i => exact hindex i
  | name column =>
    cases hi : position? s.outputNames column with
    | some i =>
      have hpick : s.pick (.name column) = s.pick (.index i) := by simp only [Select.pick, hi]
      rw [hpick, ← hindex]
      simp only [selectColumn, hi]
    | none =>
      simp only [selectColumn, Select.pick, hi, starColumn, columnSource_eq]
      cases firstStar? s.items <;> rfl

theorem setOperationColumn_eq (b : PlacedBody) (left right : Body) (target : Target) :
    setOperationColumn deeper b.place b.ctes b.body.positionalNames left right target =
      Plan.follow deeper
        ((positionOf b.body.positionalNames target).map (Plan.ofSides b left right)) := by
  cases target with
  | index i => rfl
  | name column =>
    simp only [setOperationColumn, positionOf]
    cases position? b.body.positionalNames column <;> rfl

theorem bodyColumn_eq (b : PlacedBody) (target : Target) :
    bodyColumn catalog deeper b target = Plan.follow deeper (b.plan catalog target) := by
  have hopened : b.body.opened b.place b.ctes = b.opened := rfl
  unfold bodyColumn PlacedBody.plan
  rw [hopened]
  dsimp only
  cases hb : b.opened.body with
  | select s => exact selectColumn_eq catalog deeper b s target
  | setOperation op quantifier left right =>
    have hsides := setOperationColumn_eq deeper b.opened left right target
    rw [hb] at hsides
    exact hsides
  | _ =>
    unfold Plan.plain
    rw [hb]
    cases target <;> rfl

variable {catalog deeper} {b : PlacedBody} {target : Target}

/-- A column of a body depends on no bodies but those that are entered. -/
theorem bodyColumn_congr {deeper' : Deeper} (h : ∀ b', b.Enters b' → deeper b' = deeper' b') :
    bodyColumn catalog deeper b target = bodyColumn catalog deeper' b target := by
  rw [bodyColumn_eq, bodyColumn_eq]
  cases hp : b.plan catalog target with
  | error e => rfl
  | ok p =>
    have hplans := PlacedBody.plans_of_plan hp
    refine congrArg (Draft.node p.key p.name p.origin) (Wanted.runAll_congr p.wanted [] ?_)
    exact fun b' t hw => congrFun (h b' (hplans.seeks hw).enters) t

/-- What a builder asks for on the way to certain columns of bodies: their nodes, and those of the
names that they read. -/
inductive Planned (catalog : Catalog) (limit : Nat) (V : PlacedBody → Target → Prop) :
    Key → String → Origin → Build (List Nat) → Prop
  | own {b : PlacedBody} {target : Target} {p : Plan} (n : Nat) (hv : V b target)
    (hp : b.Plans catalog target p) :
    Planned catalog limit V p.key p.name p.origin (p.sources (columnWithin catalog limit n))
  | leaf {b : PlacedBody} {target : Target} {p : Plan} {name : String} {origin : Origin}
    (hv : V b target) (hp : b.Plans catalog target p) (hw : .leaf name origin ∈ p.wanted) :
    Planned catalog limit V (.leaf p.key.place name) name origin (return [])

/-- The columns that are wanted for certain ones are among these. -/
def Hereditary (catalog : Catalog) (V : PlacedBody → Target → Prop) : Prop :=
  ∀ ⦃b : PlacedBody⦄ ⦃target : Target⦄ ⦃p : Plan⦄, V b target → b.Plans catalog target p →
    ∀ ⦃b' : PlacedBody⦄ ⦃t : Target⦄, .column b' t ∈ p.wanted → V b' t

theorem hereditary_visits (q : Query) : Hereditary catalog fun b _ => q.Visits b :=
  fun _ _ _ hv hp _ _ hw => hv.tail (hp.seeks hw).enters

variable {limit n : Nat} {V : PlacedBody → Target → Prop}

theorem assembles_planned (hV : Hereditary catalog V) : (n : Nat) → {b : PlacedBody} →
    {target : Target} → V b target →
      Assembles (Planned catalog limit V) (fun id => [id]) (columnWithin catalog limit n b target)
  | 0, _, _, _ => .throw _ _
  | n + 1, b, target, hv => by
      change Assembles _ _ (bodyColumn catalog (columnWithin catalog limit n) b target)
      rw [bodyColumn_eq]
      cases hp : b.plan catalog target with
      | error e => exact .throw _ e
      | ok p =>
        have hplans := PlacedBody.plans_of_plan hp
        refine .node (.own n hv hplans) (Wanted.assembles_runAll p.wanted [] fun w hw => ?_)
        cases w with
        | leaf name origin => exact Assembles.node (Planned.leaf hv hplans hw) (.pure _ [])
        | column b' t => exact assembles_planned hV n (hV hv hplans hw)

/-- A builder only adds to a draft, and finds again what it has found. -/
theorem steady_columnWithin (catalog : Catalog) (limit n : Nat) (b : PlacedBody) (target : Target) :
    Steady (columnWithin catalog limit n b target) :=
  (assembles_planned (V := fun _ _ => True) (fun _ _ _ _ _ _ _ _ => trivial) n trivial).steady

theorem Planned.steady {key : Key} {name : String} {origin : Origin} {sources : Build (List Nat)}
    (h : Planned catalog limit V key name origin sources) : Steady sources := by
  cases h with
  | own n hv hp => exact Wanted.steady_runAll (steady_columnWithin catalog limit n) _ _
  | leaf hv hp hw => exact steady_pure []

/-- In a finished draft, every key has a node that was planned, with the sources that are found for
it in that very draft. -/
theorem finished_of_run (hV : Hereditary catalog V) (hv : V b target) {root : Nat} {d : Draft}
    (h : columnWithin catalog limit n b target {} = .ok (root, d)) :
    d.Keyed ∧ ∀ {key : Key} {id : Nat}, d.find? key = some id →
      d.Finished (Planned catalog limit V) key id :=
  have hbuild := assembles_planned hV n hv
  ⟨hbuild.keyed Draft.keyed_empty h, fun {key _} hk =>
    hbuild.finished Planned.steady Draft.keyed_empty h (Draft.find?_empty key) hk⟩

theorem find?_of_columnWithin {d d' : Draft} {id : Nat}
    (h : columnWithin catalog limit n b target d = .ok (id, d')) :
    ∃ p, b.plan catalog target = .ok p ∧ d'.find? p.key = some id := by
  cases n with
  | zero => exact absurd h throw_run_ne_ok
  | succ n =>
    change bodyColumn catalog (columnWithin catalog limit n) b target d = _ at h
    rw [bodyColumn_eq] at h
    cases hp : b.plan catalog target with
    | error e =>
      rw [hp] at h
      exact absurd h throw_run_ne_ok
    | ok p =>
      rw [hp] at h
      exact ⟨p, rfl, find?_of_node (Wanted.steady_runAll (steady_columnWithin _ _ n) _ _) h⟩

end builder

end ColumnLineage
