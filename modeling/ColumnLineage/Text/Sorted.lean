/-!
# Sorted lists

Lists in a given order, with every element once or as often as it is given. Texts are ordered by
their characters.
-/

namespace ColumnLineage.Text

/-! ## Without repetition -/

section sorted

variable {α : Type} [DecidableEq α]

/-- Puts an element before the first larger one, unless it is already there. -/
def insertSorted (less : α → α → Bool) (a : α) : List α → List α
  | [] => [a]
  | b :: rest =>
    if a = b then b :: rest
    else if less a b then a :: b :: rest
    else b :: insertSorted less a rest

def sortDistinct (less : α → α → Bool) (elements : List α) : List α :=
  elements.foldr (insertSorted less) []

/-- Insertion adds the element and nothing else. -/
@[simp] theorem mem_insertSorted {less : α → α → Bool} {a b : α} {elements : List α} :
    b ∈ insertSorted less a elements ↔ b = a ∨ b ∈ elements := by
  induction elements with
  | nil => simp [insertSorted]
  | cons c rest ih =>
    unfold insertSorted
    split
    · rename_i h
      subst h
      simp
    · split
      · simp
      · simp only [List.mem_cons, ih]
        constructor
        · rintro (h | h | h) <;> simp [h]
        · rintro (h | h | h) <;> simp [h]

/-- Sorting keeps the elements. -/
@[simp] theorem mem_sortDistinct {less : α → α → Bool} {b : α} {elements : List α} :
    b ∈ sortDistinct less elements ↔ b ∈ elements := by
  induction elements with
  | nil => simp [sortDistinct]
  | cons a rest ih =>
    simp only [sortDistinct, List.foldr_cons, mem_insertSorted, List.mem_cons] at ih ⊢
    rw [ih]

end sorted

/-! ## With repetition -/

section ordered

variable {α : Type}

/-- Puts an element before the first one that is not smaller. -/
def insertOrdered (less : α → α → Bool) (a : α) : List α → List α
  | [] => [a]
  | b :: rest => if less b a then b :: insertOrdered less a rest else a :: b :: rest

/-- The elements in order, each as often as it is given. -/
def sortWith (less : α → α → Bool) (elements : List α) : List α :=
  elements.foldr (insertOrdered less) []

/-- Insertion adds one element and keeps the others. -/
theorem insertOrdered_perm (less : α → α → Bool) (a : α) (elements : List α) :
    (insertOrdered less a elements).Perm (a :: elements) := by
  induction elements with
  | nil => exact List.Perm.refl _
  | cons b rest ih =>
    unfold insertOrdered
    split
    · exact (ih.cons b).trans (List.Perm.swap a b rest)
    · exact List.Perm.refl _

/-- Sorting keeps every element as often as it is given. -/
theorem sortWith_perm (less : α → α → Bool) (elements : List α) :
    (sortWith less elements).Perm elements := by
  induction elements with
  | nil => exact List.Perm.refl _
  | cons a rest ih => exact (insertOrdered_perm less a (sortWith less rest)).trans (ih.cons a)

theorem pairwise_insertOrdered {less : α → α → Bool} (hasymm : ∀ a b, less a b → ¬ less b a)
    (htrans : ∀ a b c, ¬ less b a → ¬ less c b → ¬ less c a) (a : α) {elements : List α}
    (h : elements.Pairwise fun a b => ¬ less b a) :
    (insertOrdered less a elements).Pairwise fun a b => ¬ less b a := by
  induction elements with
  | nil => exact List.pairwise_singleton _ _
  | cons b rest ih =>
    obtain ⟨hb, hrest⟩ := List.pairwise_cons.mp h
    unfold insertOrdered
    split
    · rename_i hba
      refine List.pairwise_cons.mpr ⟨fun c hc => ?_, ih hrest⟩
      rcases List.mem_cons.mp ((insertOrdered_perm less a rest).mem_iff.mp hc) with rfl | hc
      · exact hasymm b c hba
      · exact hb c hc
    · rename_i hba
      refine List.pairwise_cons.mpr ⟨fun c hc => ?_, h⟩
      rcases List.mem_cons.mp hc with rfl | hc
      · exact hba
      · exact htrans a b c hba (hb c hc)

/-- Sorting puts no element behind a larger one. -/
theorem pairwise_sortWith {less : α → α → Bool} (hasymm : ∀ a b, less a b → ¬ less b a)
    (htrans : ∀ a b c, ¬ less b a → ¬ less c b → ¬ less c a) (elements : List α) :
    (sortWith less elements).Pairwise fun a b => ¬ less b a := by
  induction elements with
  | nil => exact .nil
  | cons a rest ih => exact pairwise_insertOrdered hasymm htrans a ih

end ordered

/-! ## Texts -/

/-- The order of texts by their characters. -/
def less (a b : String) : Bool :=
  decide (a < b)

/-- The texts in order, each as often as it is given. -/
def ordered (texts : List String) : List String :=
  sortWith less texts

def sorted (texts : List String) : List String :=
  sortDistinct less texts

end ColumnLineage.Text
