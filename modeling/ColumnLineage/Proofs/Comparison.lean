import ColumnLineage.Proofs.Steps

/-!
# Runs side by side

Two computations pass on a state and may fail. Run side by side, they agree if both succeed with
values and states that correspond, or both fail with failures that correspond. The first run may
also be cut short; then nothing is asked of the second.
-/

namespace ColumnLineage

/-- What is compared when two computations run side by side. -/
structure Comparison (σ σ' ε ε' : Type) where
  state : σ → σ' → Prop
  failure : ε → ε' → Prop
  /-- The failures that cut the first run short. -/
  cut : ε → Prop

namespace Comparison

def uncut {ε : Type} (_ : ε) : Prop :=
  False

variable {σ σ' ε ε' α α' β β' : Type} {x : Comparison σ σ' ε ε'} {R : α → α' → Prop}
  {Q : β → β' → Prop}

/-- The outcomes of two runs agree. -/
inductive Agree (x : Comparison σ σ' ε ε') (R : α → α' → Prop) :
    Except ε (α × σ) → Except ε' (α' × σ') → Prop
  | ok {a : α} {a' : α'} {s : σ} {s' : σ'} (ha : R a a') (hs : x.state s s') :
    Agree x R (.ok (a, s)) (.ok (a', s'))
  | error {e : ε} {e' : ε'} (he : x.failure e e') : Agree x R (.error e) (.error e')
  | cut {e : ε} {r : Except ε' (α' × σ')} (he : x.cut e) : Agree x R (.error e) r

/-- From states that correspond, two computations have outcomes that agree. -/
def Matches (x : Comparison σ σ' ε ε') (R : α → α' → Prop) (m : StateT σ (Except ε) α)
    (m' : StateT σ' (Except ε') α') : Prop :=
  ∀ ⦃s : σ⦄ ⦃s' : σ'⦄, x.state s s' → x.Agree R (m s) (m' s')

theorem matches_pure {a : α} {a' : α'} (h : R a a') : x.Matches R (pure a) (pure a') :=
  fun _ _ hs => .ok h hs

theorem matches_throw {e : ε} {e' : ε'} (h : x.failure e e') :
    x.Matches R (throw e) (throw e') :=
  fun _ _ _ => .error h

theorem matches_of_cut {e : ε} (h : x.cut e) (m' : StateT σ' (Except ε') α') :
    x.Matches R (throw e) m' :=
  fun _ _ _ => .cut h

theorem matches_modify {g : σ → σ} {g' : σ' → σ'}
    (h : ∀ s s', x.state s s' → x.state (g s) (g' s')) :
    x.Matches (fun _ _ => True) (modify g : StateT σ (Except ε) PUnit)
      (modify g' : StateT σ' (Except ε') PUnit) :=
  fun s s' hs => .ok trivial (h s s' hs)

/-- If the steps of two computations match, the computations do. -/
theorem Matches.bind {m : StateT σ (Except ε) α} {m' : StateT σ' (Except ε') α'}
    {f : α → StateT σ (Except ε) β} {f' : α' → StateT σ' (Except ε') β'} (hm : x.Matches R m m')
    (hf : ∀ a a', R a a' → x.Matches Q (f a) (f' a')) : x.Matches Q (m >>= f) (m' >>= f') := by
  intro s s' hs
  have hagree := hm hs
  change x.Agree Q (m s >>= fun p => f p.1 p.2) (m' s' >>= fun p => f' p.1 p.2)
  generalize m s = r at hagree ⊢
  generalize m' s' = r' at hagree ⊢
  cases hagree with
  | ok ha hs => exact hf _ _ ha hs
  | error he => exact .error he
  | cut he => exact .cut he

/-! ## Levels -/

/-- Both runs have as many levels left, or the second one has more and the failure at the last level
cuts the first one short. -/
def Levels (x : Comparison σ σ' ε ε') (last : ε) (n n' : Nat) : Prop :=
  n = n' ∨ n ≤ n' ∧ x.cut last

variable {last : ε} {n n' : Nat}

theorem levels_refl (x : Comparison σ σ' ε ε') (last : ε) (n : Nat) : x.Levels last n n :=
  Or.inl rfl

theorem levels_of_le (h : n ≤ n') (hcut : x.cut last) : x.Levels last n n' :=
  Or.inr ⟨h, hcut⟩

theorem levels_succ_iff : x.Levels last (n + 1) (n' + 1) ↔ x.Levels last n n' := by
  unfold Levels
  rw [Nat.add_right_cancel_iff, Nat.add_le_add_iff_right]

theorem Levels.cut (h : x.Levels last 0 (n + 1)) : x.cut last := by
  rcases h with h | h
  · cases h
  · exact h.2

theorem not_levels_zero : ¬ x.Levels last (n + 1) 0 := by
  rintro (h | h)
  · cases h
  · exact absurd h.1 (Nat.not_succ_le_zero n)

end Comparison

end ColumnLineage
