import ColumnLineage.Lineage.Trace
import Mathlib.Data.List.TakeWhile
import Mathlib.Data.String.Basic

/-!
# Small letters and dots
-/

namespace ColumnLineage

/-! ## Small letters -/

namespace Text

theorem toLower_of_not_capital {c : Char} (h : ¬ (65 ≤ c.toNat ∧ c.toNat ≤ 90)) :
    c.toLower = c := by
  unfold Char.toLower
  split
  · rename_i hc
    exact absurd ⟨UInt32.le_iff_toNat_le.mp hc.1, UInt32.le_iff_toNat_le.mp hc.2⟩ h
  · rfl

/-- The letters that have a small one of the same alphabet, the 26 of ASCII. -/
def largeLetters : List Char :=
  (List.range 26).map fun n => Char.ofNat (65 + n)

/-- What is so for capital letters is so for all characters, since no other one has a small one. -/
theorem eq_toLower_of_capitals {β : Type} [DecidableEq β] {p : Char → β}
    (h : (largeLetters.all fun c => p c.toLower = p c) = true) (c : Char) :
    p c.toLower = p c := by
  by_cases hc : 65 ≤ c.toNat ∧ c.toNat ≤ 90
  · have hmem : c ∈ largeLetters := by
      refine List.mem_map.mpr ⟨c.toNat - 65, List.mem_range.mpr (by omega), ?_⟩
      rw [show 65 + (c.toNat - 65) = c.toNat by omega, Char.ofNat_toNat]
    exact of_decide_eq_true (List.all_eq_true.mp h c hmem)
  · rw [toLower_of_not_capital hc]

/-- All that lower-casing asks of a character. -/
def caseData (c : Char) : List Char × Bool × Bool × Bool :=
  (lowerChar c, inRanges casedRanges c.toNat, inRanges caseIgnorableRanges c.toNat,
    decide (c.toNat = 931))

theorem caseData_toLower (c : Char) : caseData c.toLower = caseData c :=
  eq_toLower_of_capitals (by decide +kernel) c

theorem lowerChar_toLower (c : Char) : lowerChar c.toLower = lowerChar c :=
  congrArg (·.1) (caseData_toLower c)

theorem cased_toLower (c : Char) :
    inRanges casedRanges c.toLower.toNat = inRanges casedRanges c.toNat :=
  congrArg (·.2.1) (caseData_toLower c)

theorem caseIgnorable_toLower (c : Char) :
    inRanges caseIgnorableRanges c.toLower.toNat = inRanges caseIgnorableRanges c.toNat :=
  congrArg (·.2.2.1) (caseData_toLower c)

theorem sigma_toLower (c : Char) : c.toLower.toNat = 931 ↔ c.toNat = 931 :=
  decide_eq_decide.mp (congrArg (·.2.2.2) (caseData_toLower c))

theorem meetsCased_toLower (cs : List Char) : meetsCased (cs.map Char.toLower) = meetsCased cs := by
  unfold meetsCased
  induction cs with
  | nil => rfl
  | cons c rest ih =>
    rw [List.map_cons, List.dropWhile_cons, List.dropWhile_cons, caseIgnorable_toLower]
    by_cases hc : inRanges caseIgnorableRanges c.toNat
    · simpa only [hc, if_true] using ih
    · simpa only [hc, Bool.false_eq_true, if_false] using cased_toLower c

theorem lowerFrom_toLower (cs before : List Char) :
    lowerFrom (before.map Char.toLower) (cs.map Char.toLower) = lowerFrom before cs := by
  induction cs generalizing before with
  | nil => rfl
  | cons c rest ih =>
    have hrest := ih (c :: before)
    rw [List.map_cons] at hrest
    simp only [List.map_cons, lowerFrom, sigma_toLower, meetsCased_toLower, lowerChar_toLower, hrest]

/-- Texts that differ in the case of ASCII letters only have the same small letters. -/
theorem toLower_eq_of_equalIgnoringCase {s t : String} (h : equalIgnoringCase s t = true) :
    toLower s = toLower t := by
  have hm : s.toList.map Char.toLower = t.toList.map Char.toLower := by
    simpa [equalIgnoringCase] using h
  unfold toLower
  rw [← lowerFrom_toLower s.toList [], hm, List.map_nil, ← lowerFrom_toLower t.toList [],
    List.map_nil]

end Text

/-! ## Dots -/

/-- A name behind a dot is found again if it has no dot of its own. -/
theorem splitLastDot?_dotted (label : String) {column : String} (h : '.' ∉ column.toList) :
    splitLastDot? (dotted label column) = some (label, column) := by
  have hlist : (dotted label column).toList.reverse =
      column.toList.reverse ++ '.' :: label.toList.reverse := by
    simp [dotted]
  have hbehind : (dotted label column).toList.reverse.takeWhile (· ≠ '.') =
      column.toList.reverse := by
    rw [hlist, List.takeWhile_append_of_pos]
    · simp
    · intro c hc
      have hc' : c ∈ column.toList := List.mem_reverse.mp hc
      simp only [ne_eq, decide_not, Bool.not_eq_true', decide_eq_false_iff_not]
      rintro rfl
      exact h hc'
  unfold splitLastDot?
  dsimp only
  rw [hbehind, hlist, List.drop_left']
  · simp
  · rfl

theorem splitLastDot?_eq_none {s : String} (h : '.' ∉ s.toList) : splitLastDot? s = none := by
  have hall : s.toList.reverse.takeWhile (· ≠ '.') = s.toList.reverse := by
    rw [List.takeWhile_eq_self_iff]
    intro c hc
    have hc' : c ∈ s.toList := List.mem_reverse.mp hc
    simp only [ne_eq, decide_not, Bool.not_eq_true', decide_eq_false_iff_not]
    rintro rfl
    exact h hc'
  unfold splitLastDot?
  dsimp only
  rw [hall, List.drop_length]

theorem behindLastDot_dotted (label : String) {column : String} (h : '.' ∉ column.toList) :
    behindLastDot (dotted label column) = column := by
  rw [behindLastDot, splitLastDot?_dotted label h]

/-! ## Words -/

/-- A text in small letters without dots and stars. -/
structure PlainWord (s : String) : Prop where
  lower : Text.toLower s = s
  dotless : '.' ∉ s.toList
  starless : '*' ∉ s.toList

instance (s : String) : Decidable (PlainWord s) :=
  decidable_of_iff (Text.toLower s = s ∧ '.' ∉ s.toList ∧ '*' ∉ s.toList)
    ⟨fun ⟨l, d, st⟩ => ⟨l, d, st⟩, fun ⟨l, d, st⟩ => ⟨l, d, st⟩⟩

end ColumnLineage
