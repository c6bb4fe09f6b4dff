import ColumnLineage.Lineage.Builder

/-!
# Steps that may fail

A computation that may fail succeeds exactly if each of its steps does. These equivalences take
a successful run apart, with and without a state that the steps pass on.
-/

namespace ColumnLineage

/-! ## Without a state -/

section failing

variable {ε α β : Type}

theorem bind_eq_ok {step : Except ε α} {next : α → Except ε β} {b : β} :
    (step >>= next) = .ok b ↔ ∃ a, step = .ok a ∧ next a = .ok b := by
  change step.bind next = .ok b ↔ _
  unfold Except.bind
  split <;> simp

theorem ok_eq_ok {a b : α} : (.ok a : Except ε α) = .ok b ↔ b = a := by
  rw [Except.ok.injEq, eq_comm]

theorem pure_eq_ok {a b : α} : (pure a : Except ε α) = .ok b ↔ b = a :=
  ok_eq_ok

theorem bind_of_ok {step : Except ε α} {a : α} (h : step = .ok a) (next : α → Except ε β) :
    (step >>= next) = next a := by
  rw [h]
  rfl

variable {m : Except ε α}

theorem map_eq_ok {f : α → β} {b : β} : m.map f = .ok b ↔ ∃ a, m = .ok a ∧ f a = b := by
  cases m with
  | error e => simp [Except.map]
  | ok a => simp [Except.map]

theorem map_eq_error {f : α → β} {e : ε} : m.map f = .error e ↔ m = .error e := by
  cases m with
  | error e' => simp [Except.map]
  | ok a => simp [Except.map]

theorem eq_ok_getD {a : α} (h : m.isOk) : m = .ok (m.toOption.getD a) := by
  cases m with
  | error e => cases h
  | ok b => rfl

theorem eq_ok_of_toOption {a : α} (h : m.toOption = some a) : m = .ok a := by
  cases m with
  | error e => cases h
  | ok b => exact congrArg Except.ok (Option.some.inj h)

end failing

/-! ## With a state -/

section stateful

variable {σ ε α β : Type}

theorem bind_run_eq_ok {m : StateT σ (Except ε) α} {f : α → StateT σ (Except ε) β} {s : σ}
    {r : β × σ} :
    (m >>= f) s = .ok r ↔ ∃ a t, m s = .ok (a, t) ∧ f a t = .ok r := by
  change (m s >>= fun p => f p.1 p.2) = .ok r ↔ _
  rw [bind_eq_ok]
  exact Prod.exists

theorem pure_run_eq_ok {a b : α} {s t : σ} :
    (pure a : StateT σ (Except ε) α) s = .ok (b, t) ↔ b = a ∧ t = s := by
  change Except.ok (a, s) = .ok (b, t) ↔ _
  rw [ok_eq_ok, Prod.mk.injEq]

theorem modify_run_eq_ok {g : σ → σ} {s u : σ} {a : PUnit} :
    (modify g : StateT σ (Except ε) PUnit) s = .ok (a, u) ↔ u = g s := by
  change Except.ok (PUnit.unit, g s) = .ok (a, u) ↔ _
  rw [ok_eq_ok, Prod.mk.injEq]
  simp

theorem throw_run_ne_ok {e : ε} {s : σ} {r : α × σ} :
    (throw e : StateT σ (Except ε) α) s ≠ .ok r := by
  intro h
  cases h

end stateful

end ColumnLineage
