/-!
# Ranges of code points

A property of characters is given by the ranges of code points that have it. Long tables give the
distances between the ends of ranges.
-/

namespace ColumnLineage.Text

/-- The closed ranges whose first numbers and last numbers, each by its distance from the number
before it, are given by turns. -/
def rangesFrom (last : Nat) : List Nat → List (Nat × Nat)
  | gap :: length :: rest =>
    (last + gap, last + gap + length) :: rangesFrom (last + gap + length) rest
  | _ => []

/-- Whether `n` lies in one of the closed ranges. -/
def inRanges (ranges : List (Nat × Nat)) (n : Nat) : Bool :=
  ranges.any fun (first, last) => first ≤ n && n ≤ last

/-- A number lies in the ranges exactly if one of them holds it. -/
theorem inRanges_iff {ranges : List (Nat × Nat)} {n : Nat} :
    inRanges ranges n = true ↔ ∃ r ∈ ranges, r.1 ≤ n ∧ n ≤ r.2 := by
  simp [inRanges]

end ColumnLineage.Text
