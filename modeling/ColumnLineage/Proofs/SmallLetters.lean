import ColumnLineage.Proofs.Texts

/-!
# Small letters stay small

The small letter of a capital is no capital of another letter, so a text in small letters is its own
text in small letters. Letters come in runs, and it is enough to compare the runs with each other.
-/

namespace ColumnLineage.Text

/-! ## Runs -/

namespace CaseRun

/-- The small letter of a capital of a run. -/
def small (r : CaseRun) (n : Nat) : Nat :=
  Int.toNat (n + r.offset)

def capitals (r : CaseRun) : List Nat :=
  (List.range ((r.last - r.first) / r.step + 1)).map fun k => r.first + k * r.step

/-- The small letters of a run are no capitals of another one. Runs that lie apart need no look at
their letters. -/
def avoids (r other : CaseRun) : Bool :=
  Nat.blt (r.small r.last) other.first || (Nat.blt other.last (r.small r.first) ||
    r.capitals.all fun n => !other.covers (r.small n))

theorem covers_iff {r : CaseRun} {n : Nat} :
    r.covers n = true ↔ r.first ≤ n ∧ n ≤ r.last ∧ (n - r.first) % r.step = 0 := by
  simp [covers, and_assoc]

theorem mem_capitals {r : CaseRun} {n : Nat} (h : r.covers n = true) : n ∈ r.capitals := by
  obtain ⟨hfirst, hlast, hstep⟩ := covers_iff.mp h
  have hdiv : (n - r.first) / r.step * r.step = n - r.first := by
    have hsplit := Nat.div_add_mod (n - r.first) r.step
    rw [hstep, Nat.add_zero, Nat.mul_comm] at hsplit
    exact hsplit
  refine List.mem_map.mpr ⟨(n - r.first) / r.step, ?_, ?_⟩
  · have hle : (n - r.first) / r.step ≤ (r.last - r.first) / r.step :=
      Nat.div_le_div_right (by omega)
    exact List.mem_range.mpr (by omega)
  · rw [hdiv]
    omega

theorem small_mono (r : CaseRun) {m n : Nat} (h : m ≤ n) : r.small m ≤ r.small n := by
  unfold small
  omega

/-- Where runs avoid each other, a small letter of the one is no capital of the other. -/
theorem not_covers_of_avoids {r other : CaseRun} (h : r.avoids other = true) {n : Nat}
    (hn : r.covers n = true) : other.covers (r.small n) = false := by
  obtain ⟨hfirst, hlast, -⟩ := covers_iff.mp hn
  have hlow := r.small_mono hfirst
  have hhigh := r.small_mono hlast
  rw [← Bool.not_eq_true, covers_iff]
  rintro ⟨hge, hle, hstep⟩
  unfold avoids at h
  rcases (Bool.or_eq_true _ _).mp h with h | h
  · have hlt := Nat.blt_eq.mp h
    omega
  · rcases (Bool.or_eq_true _ _).mp h with h | h
    · have hlt := Nat.blt_eq.mp h
      omega
    · have hnot := List.all_eq_true.mp h n (mem_capitals hn)
      rw [Bool.not_eq_true', ← Bool.not_eq_true, covers_iff] at hnot
      exact hnot ⟨hge, hle, hstep⟩

end CaseRun

/-- All capitals: those of ASCII, the dotted I, the sigma and those of the table. -/
def allRuns : List CaseRun :=
  ⟨65, 90, 1, 32⟩ :: ⟨304, 304, 1, -199⟩ :: ⟨931, 931, 1, 32⟩ :: caseRuns

/-! ## Characters -/

/-- A character that is its own small letter, whatever stands around it. -/
structure IsSmall (c : Char) : Prop where
  /-- It is no capital sigma, which has two small letters. -/
  not_sigma : c.toNat ≠ 931
  lower : lowerChar c = [c]

instance (c : Char) : Decidable (IsSmall c) :=
  decidable_of_iff (c.toNat ≠ 931 ∧ lowerChar c = [c]) ⟨fun ⟨s, l⟩ => ⟨s, l⟩, fun ⟨s, l⟩ => ⟨s, l⟩⟩

theorem isSmall_of_not_covers {c : Char} (h : ∀ r ∈ allRuns, r.covers c.toNat = false) :
    IsSmall c := by
  have hone : ∀ {first last : Nat} {offset : Int}, ⟨first, last, 1, offset⟩ ∈ allRuns →
      ¬ (first ≤ c.toNat ∧ c.toNat ≤ last) := by
    intro first last offset hr hc
    have hnot := h _ hr
    rw [← Bool.not_eq_true, CaseRun.covers_iff] at hnot
    exact hnot ⟨hc.1, hc.2, Nat.mod_one _⟩
  have hascii : ¬ (65 ≤ c.toNat ∧ c.toNat ≤ 90) := hone (List.mem_cons_self)
  have hdotted : ¬ (304 ≤ c.toNat ∧ c.toNat ≤ 304) := hone (.tail _ (.head _))
  have hsigma : ¬ (931 ≤ c.toNat ∧ c.toNat ≤ 931) := hone (.tail _ (.tail _ (.head _)))
  refine ⟨by omega, ?_⟩
  unfold lowerChar
  split
  · rw [toLower_of_not_capital hascii]
  · rw [if_neg (by omega)]
    split
    · rename_i r hr
      have hcovers := h r (.tail _ (.tail _ (.tail _ (List.mem_of_find?_eq_some hr))))
      have hfound := List.find?_some hr
      exact absurd hfound (by rw [hcovers]; exact Bool.false_ne_true)
    · rfl

/-- The small letters that no run of the table gives, and the null character. -/
def singleSmall : List Nat :=
  [0, 'i'.toNat, 775, 962, 963]

theorem allRuns_avoid_singleSmall :
    (singleSmall.all fun n => allRuns.all fun r => !r.covers (Char.ofNat n).toNat) = true := by
  decide

theorem isSmall_of_single {n : Nat} (h : n ∈ singleSmall) : IsSmall (Char.ofNat n) := by
  refine isSmall_of_not_covers fun r hr => ?_
  have hnot := List.all_eq_true.mp (List.all_eq_true.mp allRuns_avoid_singleSmall n h) r hr
  rwa [Bool.not_eq_true'] at hnot

theorem isSmall_ascii : ∀ n < 128, IsSmall (Char.ofNat n).toLower := by
  decide

/-- A number that is no code point stands for the null character. -/
theorem ofNat_cases (n : Nat) : (Char.ofNat n).toNat = n ∨ Char.ofNat n = Char.ofNat 0 := by
  by_cases hvalid : Nat.isValidChar n
  · left
    unfold Char.ofNat
    rw [dif_pos hvalid]
    rfl
  · right
    unfold Char.ofNat
    rw [dif_neg hvalid]
    rfl

theorem caseRuns_avoid : (caseRuns.all fun r => allRuns.all r.avoids) = true := by
  decide +kernel

theorem isSmall_of_run {r : CaseRun} (hr : r ∈ caseRuns) {n : Nat} (hn : r.covers n = true) :
    IsSmall (Char.ofNat (r.small n)) := by
  rcases ofNat_cases (r.small n) with hnat | hnull
  · refine isSmall_of_not_covers fun other hother => ?_
    have havoids := List.all_eq_true.mp (List.all_eq_true.mp caseRuns_avoid r hr) other hother
    rw [hnat]
    exact CaseRun.not_covers_of_avoids havoids hn
  · rw [hnull]
    exact isSmall_of_single (by simp [singleSmall])

theorem isSmall_lowerChar {c : Char} (hc : c.toNat ≠ 931) : ∀ d ∈ lowerChar c, IsSmall d := by
  intro d hd
  by_cases hascii : c.toNat < 128
  · have hsmall := isSmall_ascii c.toNat hascii
    rw [Char.ofNat_toNat] at hsmall
    rw [lowerChar, if_pos hascii] at hd
    exact List.mem_singleton.mp hd ▸ hsmall
  by_cases hdotted : c.toNat = 304
  · rw [lowerChar, if_neg hascii, if_pos hdotted] at hd
    rcases List.mem_pair.mp hd with rfl | rfl
    · exact isSmall_of_single (n := 'i'.toNat) (by simp [singleSmall])
    · exact isSmall_of_single (by simp [singleSmall])
  cases hr : caseRuns.find? (·.covers c.toNat) with
  | some r =>
    have hcovers : r.covers c.toNat = true :=
      List.find?_some (p := fun r : CaseRun => r.covers c.toNat) hr
    rw [lowerChar, if_neg hascii, if_neg hdotted, hr] at hd
    exact List.mem_singleton.mp hd ▸ isSmall_of_run (List.mem_of_find?_eq_some hr) hcovers
  | none =>
    have hsame : lowerChar c = [c] := by rw [lowerChar, if_neg hascii, if_neg hdotted, hr]
    rw [hsame] at hd
    exact List.mem_singleton.mp hd ▸ ⟨hc, hsame⟩

/-! ## Texts -/

theorem lowerFrom_small (before cs : List Char) : ∀ d ∈ lowerFrom before cs, IsSmall d := by
  induction cs generalizing before with
  | nil =>
    intro d hd
    cases hd
  | cons c rest ih =>
    intro d hd
    rw [lowerFrom] at hd
    rcases List.mem_append.mp hd with hd | hd
    · split at hd
      · obtain rfl := List.mem_singleton.mp hd
        split
        · exact isSmall_of_single (by simp [singleSmall])
        · exact isSmall_of_single (by simp [singleSmall])
      · rename_i hc
        exact isSmall_lowerChar hc d hd
    · exact ih (c :: before) d hd

theorem lowerFrom_of_small {before cs : List Char} (h : ∀ c ∈ cs, IsSmall c) :
    lowerFrom before cs = cs := by
  induction cs generalizing before with
  | nil => rfl
  | cons c rest ih =>
    have hc := h c List.mem_cons_self
    have hrest : lowerFrom (c :: before) rest = rest :=
      ih fun c' hc' => h c' (List.mem_cons_of_mem _ hc')
    rw [lowerFrom, if_neg hc.not_sigma, hc.lower, hrest]
    rfl

theorem toLower_toLower (s : String) : toLower (toLower s) = toLower s := by
  unfold toLower
  rw [String.toList_ofList, lowerFrom_of_small (lowerFrom_small [] s.toList)]

/-! ## Dots -/

theorem caseRuns_above_dot : (caseRuns.all fun r => Nat.blt '.'.toNat (r.small r.first)) = true := by
  decide

theorem eq_dot_of_ascii : ∀ n < 128, (Char.ofNat n).toLower = '.' → Char.ofNat n = '.' := by
  decide

theorem eq_dot_of_mem_lowerChar {c : Char} (h : '.' ∈ lowerChar c) : c = '.' := by
  by_cases hascii : c.toNat < 128
  · rw [lowerChar, if_pos hascii] at h
    have hdot := eq_dot_of_ascii c.toNat hascii
    rw [Char.ofNat_toNat] at hdot
    exact hdot (List.mem_singleton.mp h).symm
  by_cases hdotted : c.toNat = 304
  · have hnot : '.' ∉ ['i', Char.ofNat 775] := by decide
    rw [lowerChar, if_neg hascii, if_pos hdotted] at h
    exact absurd h hnot
  cases hr : caseRuns.find? (·.covers c.toNat) with
  | some r =>
    have hcovers : r.covers c.toNat = true :=
      List.find?_some (p := fun r : CaseRun => r.covers c.toNat) hr
    rw [lowerChar, if_neg hascii, if_neg hdotted, hr] at h
    have habove : '.'.toNat < r.small c.toNat :=
      Nat.lt_of_lt_of_le
        (Nat.blt_eq.mp (List.all_eq_true.mp caseRuns_above_dot r (List.mem_of_find?_eq_some hr)))
        (r.small_mono (CaseRun.covers_iff.mp hcovers).1)
    have hchar : Char.ofNat (r.small c.toNat) = '.' := (List.mem_singleton.mp h).symm
    rcases ofNat_cases (r.small c.toNat) with hnat | hnull
    · rw [hchar] at hnat
      omega
    · rw [hchar] at hnull
      cases hnull
  | none =>
    rw [lowerChar, if_neg hascii, if_neg hdotted, hr] at h
    exact (List.mem_singleton.mp h).symm

theorem dot_mem_of_mem_lowerFrom {before cs : List Char} (h : '.' ∈ lowerFrom before cs) :
    '.' ∈ cs := by
  induction cs generalizing before with
  | nil => cases h
  | cons c rest ih =>
    rw [lowerFrom] at h
    rcases List.mem_append.mp h with h | h
    · split at h
      · have hsigma : ∀ n ∈ [962, 963], '.' ≠ Char.ofNat n := by decide
        have hdot := List.mem_singleton.mp h
        split at hdot
        · exact absurd hdot (hsigma 962 (by simp))
        · exact absurd hdot (hsigma 963 (by simp))
      · rw [eq_dot_of_mem_lowerChar h]
        exact List.mem_cons_self
    · exact List.mem_cons_of_mem _ (ih h)

theorem dot_mem_of_mem_toLower {s : String} (h : '.' ∈ (toLower s).toList) : '.' ∈ s.toList := by
  rw [toLower, String.toList_ofList] at h
  exact dot_mem_of_mem_lowerFrom h

end ColumnLineage.Text
