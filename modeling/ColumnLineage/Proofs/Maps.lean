import ColumnLineage.OrderedMap
import Mathlib.Data.List.Forall2

/-!
# What maps hold
-/

namespace ColumnLineage

/-- What stands at a position of a list is related to what stands there in the other. -/
theorem forall₂_exists_left {α β : Type} {R : α → β → Prop} {as : List α} {bs : List β}
    (h : List.Forall₂ R as bs) {i : Nat} {b : β} (hb : bs[i]? = some b) :
    ∃ a, as[i]? = some a ∧ R a b := by
  induction h generalizing i with
  | nil => simp at hb
  | cons hab _ ih =>
    cases i with
    | zero =>
      cases hb
      exact ⟨_, rfl, hab⟩
    | succ i => exact ih hb

theorem forall₂_exists_right {α β : Type} {R : α → β → Prop} {as : List α} {bs : List β}
    (h : List.Forall₂ R as bs) {i : Nat} {a : α} (ha : as[i]? = some a) :
    ∃ b, bs[i]? = some b ∧ R a b :=
  forall₂_exists_left (List.Forall₂.flip (R := flip R) h) ha

theorem forall₂_of_mem_left {α β : Type} {R : α → β → Prop} {as : List α} {bs : List β}
    (h : List.Forall₂ R as bs) {a : α} (ha : a ∈ as) : ∃ b ∈ bs, R a b := by
  obtain ⟨i, hi⟩ := List.mem_iff_getElem?.mp ha
  obtain ⟨b, hb, hr⟩ := forall₂_exists_right h hi
  exact ⟨b, List.mem_of_getElem? hb, hr⟩

theorem forall₂_of_mem_right {α β : Type} {R : α → β → Prop} {as : List α} {bs : List β}
    (h : List.Forall₂ R as bs) {b : β} (hb : b ∈ bs) : ∃ a ∈ as, R a b :=
  forall₂_of_mem_left (List.Forall₂.flip (R := flip R) h) hb

/-- What two functions keep of one list is related if they are on its members. -/
theorem forall₂_filterMap {α β γ : Type} {R : β → γ → Prop} {f : α → Option β} {g : α → Option γ} :
    {as : List α} → (∀ a ∈ as, Option.Rel R (f a) (g a)) →
      List.Forall₂ R (as.filterMap f) (as.filterMap g)
  | [], _ => .nil
  | a :: as, h => by
      have hrest := forall₂_filterMap fun a' ha' => h a' (List.mem_cons_of_mem a ha')
      have ha := h a List.mem_cons_self
      rw [List.filterMap_cons, List.filterMap_cons]
      generalize f a = x at ha
      generalize g a = y at ha
      cases ha with
      | none => exact hrest
      | some hxy => exact .cons hxy hrest

section entries

variable {κ α β : Type}

/-- Entries under the same key with values that are related. -/
def EntryRel (R : α → β → Prop) (a : κ × α) (b : κ × β) : Prop :=
  a.1 = b.1 ∧ R a.2 b.2

variable [DecidableEq κ]

theorem mem_of_mem_putEntry {key : κ} {value : α} {e : κ × α} :
    {entries : List (κ × α)} → e ∈ putEntry key value entries → e = (key, value) ∨ e ∈ entries
  | [], h => Or.inl (by simpa [putEntry] using h)
  | (k, v) :: rest, h => by
      unfold putEntry at h
      split at h
      · rename_i hk
        rcases List.mem_cons.mp h with rfl | h
        · exact Or.inl (by rw [hk])
        · exact Or.inr (List.mem_cons_of_mem _ h)
      · rcases List.mem_cons.mp h with rfl | h
        · exact Or.inr List.mem_cons_self
        · rcases mem_of_mem_putEntry h with rfl | h
          · exact Or.inl rfl
          · exact Or.inr (List.mem_cons_of_mem _ h)

theorem mem_putEntry_of_ne {key : κ} {value : α} {e : κ × α} :
    {entries : List (κ × α)} → e ∈ entries → e.1 ≠ key → e ∈ putEntry key value entries
  | (k, v) :: rest, he, hne => by
      unfold putEntry
      split
      · rename_i hk
        rcases List.mem_cons.mp he with rfl | he
        · exact absurd hk hne
        · exact List.mem_cons_of_mem _ he
      · rcases List.mem_cons.mp he with rfl | he
        · exact List.mem_cons_self
        · exact List.mem_cons_of_mem _ (mem_putEntry_of_ne he hne)

theorem forall₂_putEntry {R : α → β → Prop} {key : κ} {a : α} {b : β} (hab : R a b)
    {as : List (κ × α)} {bs : List (κ × β)} (h : List.Forall₂ (EntryRel R) as bs) :
    List.Forall₂ (EntryRel R) (putEntry key a as) (putEntry key b bs) := by
  induction h with
  | nil => exact .cons ⟨rfl, hab⟩ .nil
  | @cons p q as bs hpq hrest ih =>
    obtain ⟨k, v⟩ := p
    obtain ⟨k', w⟩ := q
    obtain ⟨hk, hv⟩ := hpq
    dsimp only at hk hv
    subst hk
    unfold putEntry
    split
    · exact .cons ⟨rfl, hab⟩ hrest
    · exact .cons ⟨rfl, hv⟩ ih

end entries

namespace OrderedMap

variable {κ α β : Type}

variable {m : OrderedMap κ α} {value : α}

theorem exists_mem_of_mem_values (h : value ∈ m.values) : ∃ key, (key, value) ∈ m.entries := by
  obtain ⟨⟨key, value⟩, he, rfl⟩ := List.mem_map.mp h
  exact ⟨key, he⟩

/-- The values of maps that correspond are related one by one. -/
theorem forall₂_values {R : α → β → Prop} {n : OrderedMap κ β}
    (h : List.Forall₂ (EntryRel R) m.entries n.entries) : List.Forall₂ R m.values n.values := by
  unfold values
  rw [List.forall₂_map_left_iff, List.forall₂_map_right_iff]
  exact h.imp fun _ _ he => he.2

variable [DecidableEq κ]

variable {entries : List (κ × α)}

theorem mem_of_mem_insertAll {e : κ × α} (h : e ∈ (m.insertAll entries).entries) :
    e ∈ m.entries ∨ e ∈ entries := by
  induction entries generalizing m with
  | nil => exact Or.inl h
  | cons f rest ih =>
    rcases ih (m := m.insert f.1 f.2) h with h | h
    · rcases mem_of_mem_putEntry h with rfl | h
      · exact Or.inr List.mem_cons_self
      · exact Or.inl h
    · exact Or.inr (List.mem_cons_of_mem _ h)

theorem mem_of_mem_ofList {e : κ × α} (h : e ∈ (ofList entries).entries) : e ∈ entries := by
  rcases mem_of_mem_insertAll h with h | h
  · simp [empty] at h
  · exact h

variable {key : κ}

theorem putEntry_of_not_mem (h : key ∉ entries.map Prod.fst) :
    putEntry key value entries = entries ++ [(key, value)] := by
  induction entries with
  | nil => rfl
  | cons e entries ih =>
    obtain ⟨k, v⟩ := e
    rw [List.map_cons, List.mem_cons, not_or] at h
    rw [putEntry, if_neg fun hk => h.1 hk.symm, ih h.2]
    rfl

theorem entries_insertAll (h : ((m.entries ++ entries).map Prod.fst).Nodup) :
    (m.insertAll entries).entries = m.entries ++ entries := by
  induction entries generalizing m with
  | nil => exact (List.append_nil _).symm
  | cons e entries ih =>
    have hnew : e.1 ∉ m.entries.map Prod.fst := by
      intro hmem
      rw [List.map_append, List.nodup_append] at h
      exact h.2.2 e.1 hmem e.1 List.mem_cons_self rfl
    have hinsert : (m.insert e.1 e.2).entries = m.entries ++ [e] := putEntry_of_not_mem hnew
    have hmore := @ih (m.insert e.1 e.2) (by rw [hinsert, List.append_assoc]; exact h)
    rw [hinsert, List.append_assoc] at hmore
    exact hmore

theorem ofList_entries (m : OrderedMap κ α) : ofList m.entries = m :=
  eq_of_entries (entries_insertAll (m := empty) m.nodup)

theorem mem_of_get?_eq_some (h : m.get? key = some value) : (key, value) ∈ m.entries := by
  obtain ⟨e, he, rfl⟩ := Option.map_eq_some_iff.mp h
  have hk : e.1 = key := by simpa using List.find?_some he
  rw [← hk]
  exact List.mem_of_find?_eq_some he

theorem get?_of_mem (h : (key, value) ∈ m.entries) : m.get? key = some value := by
  obtain ⟨entries, nodup⟩ := m
  simp only [get?]
  dsimp only at h
  induction entries with
  | nil => simp at h
  | cons e rest ih =>
    obtain ⟨hnot, hrest⟩ := List.nodup_cons.mp nodup
    rcases List.mem_cons.mp h with rfl | h
    · simp
    · have hne : e.1 ≠ key := fun he =>
        hnot (he ▸ List.mem_map.mpr ⟨(key, value), h, rfl⟩)
      simpa only [List.find?_cons, hne, decide_false] using ih hrest h

theorem isSome_get?_insertAll (h : (m.get? key).isSome ∨ ∃ value, (key, value) ∈ entries) :
    ((m.insertAll entries).get? key).isSome := by
  induction entries generalizing m with
  | nil =>
    rcases h with h | ⟨value, h⟩
    · exact h
    · cases h
  | cons e rest ih =>
    apply ih (m := m.insert e.1 e.2)
    rw [get?_insert]
    rcases h with h | ⟨value, h⟩
    · left
      split
      · rfl
      · exact h
    · rcases List.mem_cons.mp h with rfl | h
      · left
        rw [if_pos rfl]
        rfl
      · exact Or.inr ⟨value, h⟩

/-- If all entries of a list under a key have one value, the map made from the list has it. -/
theorem get?_ofList_of_forall (hm : (key, value) ∈ entries)
    (h : ∀ e ∈ entries, e.1 = key → e.2 = value) : (ofList entries).get? key = some value := by
  obtain ⟨value', hget⟩ := Option.isSome_iff_exists.mp
    (isSome_get?_insertAll (m := empty) (Or.inr ⟨value, hm⟩))
  have hsame := h _ (mem_of_mem_ofList (mem_of_get?_eq_some hget)) rfl
  exact hget.trans (congrArg some hsame)

/-- The last entry under a key counts, or else what was there before. -/
theorem get?_insertAll :
    (m.insertAll entries).get? key =
      ((entries.reverse.find? fun e => e.1 = key).map Prod.snd).or (m.get? key) := by
  induction entries generalizing m with
  | nil => rfl
  | cons e rest ih =>
    have hstep := ih (m := m.insert e.1 e.2)
    rw [get?_insert] at hstep
    rw [List.reverse_cons, List.find?_append, Option.map_or, Option.or_assoc]
    refine hstep.trans (congrArg _ ?_)
    by_cases he : e.1 = key <;> simp [he]

/-- With the entries of another map, what it has under a key counts, or else what was there
before. -/
theorem get?_insertAll_entries (m n : OrderedMap κ α) (key : κ) :
    (m.insertAll n.entries).get? key = (n.get? key).or (m.get? key) := by
  rw [get?_insertAll]
  congr 1
  cases hlast : n.entries.reverse.find? fun e => e.1 = key with
  | none =>
    have hnone : n.entries.find? (fun e => e.1 = key) = none := by
      rw [List.find?_eq_none] at hlast ⊢
      exact fun e he => hlast e (List.mem_reverse.mpr he)
    rw [get?, hnone]
  | some e =>
    have hkey : e.1 = key := by simpa using List.find?_some hlast
    have hmem : (key, e.2) ∈ n.entries :=
      hkey ▸ List.mem_reverse.mp (List.mem_of_find?_eq_some hlast)
    exact (get?_of_mem hmem).symm

/-- What all entries under a key give is what its value gives. -/
theorem flatMap_entries {γ : Type} (m : OrderedMap κ α) (key : κ) (g : α → List γ) :
    (m.entries.flatMap fun e => if e.1 = key then g e.2 else []) =
      ((m.get? key).map g).getD [] := by
  obtain ⟨entries, nodup⟩ := m
  simp only [get?]
  induction entries with
  | nil => rfl
  | cons e rest ih =>
    obtain ⟨hnot, hrest⟩ := List.nodup_cons.mp nodup
    rw [List.flatMap_cons, List.find?_cons]
    by_cases he : e.1 = key
    · have hnone : (rest.flatMap fun e => if e.1 = key then g e.2 else []) = [] :=
        List.flatMap_eq_nil_iff.mpr fun e' he' => if_neg fun hk =>
          hnot (List.mem_map.mpr ⟨e', he', hk.trans he.symm⟩)
      simp [he, hnone]
    · simpa [he] using ih hrest

/-! ## Maps that correspond -/

theorem forall₂_insertAll {R : α → β → Prop} {as : List (κ × α)} {bs : List (κ × β)}
    (h : List.Forall₂ (EntryRel R) as bs) {n : OrderedMap κ β}
    (hmn : List.Forall₂ (EntryRel R) m.entries n.entries) :
    List.Forall₂ (EntryRel R) (m.insertAll as).entries (n.insertAll bs).entries := by
  induction h generalizing m n with
  | nil => exact hmn
  | @cons p q as bs hpq _ ih =>
    refine ih (m := m.insert p.1 p.2) (n := n.insert q.1 q.2) ?_
    obtain ⟨hk, hv⟩ := hpq
    simp only [insert, hk]
    exact forall₂_putEntry hv hmn

theorem forall₂_ofList {R : α → β → Prop} {as : List (κ × α)} {bs : List (κ × β)}
    (h : List.Forall₂ (EntryRel R) as bs) :
    List.Forall₂ (EntryRel R) (ofList as).entries (ofList bs).entries :=
  forall₂_insertAll h .nil

/-- Maps that correspond agree on which keys they hold, and their values are related. -/
theorem rel_get? {R : α → β → Prop} {n : OrderedMap κ β}
    (h : List.Forall₂ (EntryRel R) m.entries n.entries) (key : κ) :
    Option.Rel R (m.get? key) (n.get? key) := by
  obtain ⟨as, hm⟩ := m
  obtain ⟨bs, hn⟩ := n
  simp only [get?]
  dsimp only at h
  clear hm hn
  induction h with
  | nil => exact .none
  | @cons p q as bs hpq _ ih =>
    obtain ⟨hk, hv⟩ := hpq
    by_cases hp : p.1 = key
    · have hq : q.1 = key := hk ▸ hp
      simp only [List.find?_cons, hp, hq, decide_true, Option.map_some]
      exact .some hv
    · have hq : q.1 ≠ key := hk ▸ hp
      simpa only [List.find?_cons, hp, hq, decide_false] using ih

end OrderedMap

end ColumnLineage
