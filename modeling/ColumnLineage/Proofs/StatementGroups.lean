import ColumnLineage.Proofs.Clauses

/-!
# Scripts one behind the other

A script is cut at its semicolons outside parentheses, and at no other place. If a script closes
what it opens, another one can be put behind it with a semicolon between them: what the two hold is
read one after the other.

* `Script.ofTokens_append`: the statements of two scripts with a semicolon between them.
-/

namespace ColumnLineage.Script

/-! ## Pieces -/

/-- The pieces of a script between its semicolons outside parentheses; `depth` parentheses are open
before it. -/
inductive Pieces : Nat → List Token → List (List Token) → Prop
  /-- No semicolon cuts the rest of the script. -/
  | last {depth : Nat} {piece : List Token}
    (uncut : ∀ t ∈ outside depth piece, t.isSymbol ";" = false) : Pieces depth piece [piece]
  /-- A piece ends at the first semicolon that stands outside parentheses. -/
  | next {depth : Nat} {piece rest : List Token} {pieces : List (List Token)}
    (uncut : ∀ t ∈ outside depth piece, t.isSymbol ";" = false)
    (closed : depthBehind depth piece = 0) (behind : Pieces 0 rest pieces) :
    Pieces depth (piece ++ .symbol ";" :: rest) (piece :: pieces)

theorem cut_ne_nil (depth : Nat) (tokens : List Token) : cut depth tokens ≠ [] := by
  cases tokens with
  | nil => simp [cut]
  | cons t rest =>
    unfold cut
    split
    · simp
    · split <;> simp

variable {depth : Nat}

/-- A token that does not cut stands at the head of the first piece. -/
theorem cut_cons {t : Token} (h : depth = 0 → t.isSymbol ";" = false) (rest : List Token) :
    cut depth (t :: rest) = (cut (depthAfter depth t) rest).modifyHead (t :: ·) := by
  have hkeeps : ¬ (t.isSymbol ";" && depth = 0) = true := by
    intro hcuts
    obtain ⟨ht, hzero⟩ := Bool.and_eq_true_iff.mp hcuts
    rw [h (of_decide_eq_true hzero)] at ht
    cases ht
  rw [cut, if_neg hkeeps]
  split
  · rename_i hnil
    exact absurd hnil (cut_ne_nil _ _)
  · rename_i group groups hcut
    rw [hcut, List.modifyHead_cons]

theorem cut_append {piece : List Token} (h : ∀ t ∈ outside depth piece, t.isSymbol ";" = false)
    (rest : List Token) :
    cut depth (piece ++ rest) = (cut (depthBehind depth piece) rest).modifyHead (piece ++ ·) := by
  induction piece generalizing depth with
  | nil => exact (List.modifyHead_id ▸ rfl)
  | cons t piece ih =>
    have hfirst : depth = 0 → t.isSymbol ";" = false :=
      fun hzero => h t (mem_outside_cons.mpr (Or.inl ⟨hzero, rfl⟩))
    have hmore := @ih (depthAfter depth t) fun u hu => h u (mem_outside_cons.mpr (Or.inr hu))
    rw [List.cons_append, cut_cons hfirst, hmore, List.modifyHead_modifyHead]
    rfl

variable {pieces : List (List Token)}

theorem Pieces.cut_eq {tokens : List Token} (h : Pieces depth tokens pieces) :
    cut depth tokens = pieces := by
  induction h with
  | @last depth piece uncut =>
    have hcut := cut_append uncut []
    simpa [cut] using hcut
  | @next depth piece rest pieces uncut closed _ ih =>
    rw [cut_append uncut, closed, cut, if_pos (by decide), ih, List.modifyHead_cons,
      List.append_nil]

theorem Pieces.cons {t : Token} {rest : List Token} (h : depth = 0 → t.isSymbol ";" = false)
    (hrest : Pieces (depthAfter depth t) rest pieces) :
    Pieces depth (t :: rest) (pieces.modifyHead (t :: ·)) := by
  have huncut : ∀ piece, (∀ u ∈ outside (depthAfter depth t) piece, u.isSymbol ";" = false) →
      ∀ u ∈ outside depth (t :: piece), u.isSymbol ";" = false := by
    intro piece hpiece u hu
    rcases mem_outside_cons.mp hu with ⟨hzero, rfl⟩ | hu
    · exact h hzero
    · exact hpiece u hu
  cases hrest with
  | last uncut => exact .last (huncut _ uncut)
  | next uncut closed behind => exact .next (huncut _ uncut) closed behind

theorem pieces_cut (depth : Nat) (tokens : List Token) :
    Pieces depth tokens (cut depth tokens) := by
  induction tokens generalizing depth with
  | nil => exact .last fun t ht => nomatch ht
  | cons t rest ih =>
    by_cases h : depth = 0 → t.isSymbol ";" = false
    · rw [cut_cons h]
      exact .cons h (ih _)
    · obtain ⟨hzero, ht⟩ := Classical.not_imp.mp h
      have ht : t = .symbol ";" := of_decide_eq_true (Bool.not_eq_false _ ▸ ht)
      subst hzero ht
      exact @Pieces.next 0 [] rest _ (fun t ht => nomatch ht) rfl (ih 0)

theorem Pieces.append {front back : List Token} {more : List (List Token)}
    (hfront : Pieces depth front pieces) (hclosed : depthBehind depth front = 0)
    (hback : Pieces 0 back more) :
    Pieces depth (front ++ .symbol ";" :: back) (pieces ++ more) := by
  induction hfront with
  | last uncut => exact .next uncut hclosed hback
  | @next depth piece rest pieces uncut closed _ ih =>
    rw [depthBehind_append, closed] at hclosed
    rw [List.append_assoc]
    exact .next uncut closed (ih hclosed)

/-! ## Statements -/

theorem groups_append_semicolon {front : List Token} (h : depthBehind 0 front = 0)
    (back : List Token) :
    groups (front ++ .symbol ";" :: back) = groups front ++ groups back := by
  have hcut := ((pieces_cut 0 front).append h (pieces_cut 0 back)).cut_eq
  unfold groups
  rw [hcut, List.filter_append]

theorem readGroups_append (dialect : Dialect) (front back : List (List Token)) :
    readGroups dialect (front ++ back) = (do
      let first ← readGroups dialect front
      let more ← readGroups dialect back
      return first ++ more) := by
  induction front with
  | nil => exact (bind_pure _).symm
  | cons group front ih =>
    rw [List.cons_append, readGroups, ih, readGroups]
    simp only [bind_assoc, pure_bind, List.append_assoc]

/-- A script that closes what it opens is read before what stands behind its semicolon: the
statements of both, or the first failure. The groups that are read are the pieces of the script,
without those that hold only blanks. -/
theorem ofTokens_append (dialect : Dialect) {front : List Token} (h : depthBehind 0 front = 0)
    (back : List Token) :
    (∀ first more, ofTokens dialect front = .ok first → ofTokens dialect back = .ok more →
      ofTokens dialect (front ++ .symbol ";" :: back) = .ok (first ++ more)) ∧
    (∀ e, ofTokens dialect front = .error e →
      ofTokens dialect (front ++ .symbol ";" :: back) = .error e) ∧
    (∀ first e, ofTokens dialect front = .ok first → ofTokens dialect back = .error e →
      ofTokens dialect (front ++ .symbol ";" :: back) = .error e) ∧
    groups (front ++ .symbol ";" :: back) = groups front ++ groups back ∧
    ∀ tokens, ∃ pieces, Pieces 0 tokens pieces ∧
      groups tokens = pieces.filter fun piece => !piece.all Token.isBlank := by
  have hgroups := groups_append_semicolon h back
  have hread : ofTokens dialect (front ++ .symbol ";" :: back) = (do
      let first ← ofTokens dialect front
      let more ← ofTokens dialect back
      return first ++ more) := by
    unfold ofTokens
    rw [hgroups, readGroups_append]
  refine ⟨?_, ?_, ?_, hgroups, fun tokens => ⟨cut 0 tokens, pieces_cut 0 tokens, rfl⟩⟩
  · intro first more hfirst hmore
    rw [hread, hfirst, hmore]
    rfl
  · intro e hfront
    rw [hread, hfront]
    rfl
  · intro first e hfirst hback
    rw [hread, hfirst, hback]
    rfl

/-- A semicolon in parentheses does not cut, and a parenthesis that closes nothing does not count. -/
theorem ofTokens_append_of_parentheses :
    depthBehind 0 [.symbol ")", .symbol "(", .symbol ";", .symbol ")"] = 0 ∧
      groups ([.symbol ")", .symbol "(", .symbol ";", .symbol ")"] ++
          .symbol ";" :: [.blank, .symbol ";", .symbol "*"]) =
        [[.symbol ")", .symbol "(", .symbol ";", .symbol ")"], [.symbol "*"]] :=
  ⟨rfl, (ofTokens_append .postgresql rfl _).2.2.2.1⟩

end ColumnLineage.Script
