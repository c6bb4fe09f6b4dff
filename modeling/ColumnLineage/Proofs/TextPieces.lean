import ColumnLineage.Proofs.TokenBoundaries

/-!
# Texts in pieces

A text that is put together from pieces with separators between them is cut into the tokens of the
pieces. That a piece is cut so need only be known of the piece with a semicolon behind it.
-/

namespace ColumnLineage.Token

variable {c : Char}

/-! ## What a token says about its text -/

variable {cs : List Char}

/-- Whether the token is a word without quotes. -/
def isPlain : Token → Bool
  | .word w => !w.quoted
  | _ => false

/-- Whether the token is a semicolon or a word without quotes. -/
def isSpecial : Token → Bool
  | .symbol s => s = ";"
  | t => t.isPlain

/-- What is read as a semicolon is the first character, and what is read as a word without quotes
starts like one. -/
def Tells (x : Char) (cs : List Char) (read : Except FaultBefore (Token × List Char)) : Prop :=
  ∀ t left, read = .ok (t, left) → (t = .symbol ";" → x = ';' ∧ left = cs) ∧
    (t.isPlain = true →
      Text.isBlank x = false ∧ startsName x = true ∧ startsText x.toLower cs = false)

theorem Tells.ite {x : Char} {p : Prop} [Decidable p]
    {read other : Except FaultBefore (Token × List Char)} (h : p → Tells x cs read)
    (hother : ¬ p → Tells x cs other) : Tells x cs (if p then read else other) := by
  by_cases hp : p
  · rw [if_pos hp]
    exact h hp
  · rw [if_neg hp]
    exact hother hp

theorem tells_of_ne {x : Char} {read : Except FaultBefore (Token × List Char)}
    (h : ∀ t left, read.toOption = some (t, left) → t.isSpecial = false) : Tells x cs read := by
  intro t left hread
  have hspecial := h t left (congrArg Except.toOption hread)
  cases t <;> simp_all [isSpecial, isPlain]

theorem tells_symbol {x : Char} {s : String} {left : List Char}
    (h : s = ";" → x = ';' ∧ left = cs) :
    Tells x cs (.ok (.symbol s, left)) := by
  intro t left' hread
  cases hread
  exact ⟨fun ht => h (Token.symbol.inj ht), nofun⟩

theorem symbolToken_tells (x : Char) (cs : List Char) : Tells x cs (.ok (symbolToken x cs)) := by
  unfold symbolToken
  split
  · rename_i spelling after hlongest
    refine tells_symbol fun hspelling => ?_
    obtain ⟨found, hfound, heq⟩ := Option.map_eq_some_iff.mp hlongest
    have hmem := List.mem_of_find?_eq_some hfound
    rw [(Prod.mk.inj heq).1, hspelling] at hmem
    exact absurd hmem (by decide)
  · refine tells_symbol fun hspelling => ?_
    have hx : x = ';' := List.singleton_inj.mp (String.ofList_injective (hspelling.trans rfl))
    subst hx
    exact ⟨rfl, rfl⟩

theorem isSpecial_quotedText {l y : Char} {body left : List Char} {t : Token}
    (h : quotedText l y body = some (t, left)) : t.isSpecial = false := by
  have hmarked : ∀ {kind found}, markedText kind found = some (t, left) → t.isSpecial = false := by
    intro kind found h
    obtain ⟨read, -, heq⟩ := Option.map_eq_some_iff.mp h
    obtain ⟨rfl, -⟩ := Prod.mk.inj heq
    rfl
  unfold quotedText at h
  split_ifs at h
  · exact hmarked h
  · exact hmarked h
  · exact hmarked h
  · exact hmarked h
  · exact hmarked h
  · obtain ⟨z, -, h⟩ := Option.bind_eq_some_iff.mp h
    split_ifs at h
    exact hmarked h

theorem isSpecial_numberToken {x : Char} (hx : x.isDigit || x = '.') (cs : List Char) :
    (numberToken (x :: cs)).1.isSpecial = false := by
  by_cases hhex : x = '0' ∧ cs.head? = some 'x'
  · have heq := numberToken_eq hx cs
    rw [if_pos hhex] at heq
    rw [Option.some.inj heq]
    rfl
  · rcases hread : numberToken (x :: cs) with ⟨t, r⟩
    obtain ⟨digits, -, -, ⟨rfl, -⟩ | rfl⟩ := numberToken_digits hx hhex hread <;> rfl

theorem isSpecial_dollarToken {left : List Char} {t : Token}
    (h : (dollarToken cs).toOption = some (t, left)) : t.isSpecial = false := by
  rw [dollarToken_eq] at h
  obtain ⟨e, -, h⟩ := Option.bind_eq_some_iff.mp h
  split at h
  · obtain ⟨read, -, heq⟩ := Option.map_eq_some_iff.mp h
    obtain ⟨rfl, -⟩ := Prod.mk.inj heq
    rfl
  · cases h
    rfl

theorem scanOne_tells (x : Char) (cs : List Char) : Tells x cs (scanOne x cs) := by
  unfold scanOne
  refine .ite (fun _ => tells_of_ne fun t left h => ?_) fun hblank => ?_
  · cases h
    rfl
  refine .ite (fun hname => ?_) fun _ => ?_
  · by_cases htext : startsText x.toLower cs = true
    · refine tells_of_ne fun t left h => ?_
      have hread := (word_toOption x cs).symm.trans h
      rw [if_pos htext] at hread
      obtain ⟨y, -, hread⟩ := Option.bind_eq_some_iff.mp hread
      exact isSpecial_quotedText hread
    · intro t left h
      have hread := (word_toOption x cs).symm.trans (congrArg Except.toOption h)
      rw [if_neg htext] at hread
      cases hread
      exact ⟨nofun, fun _ =>
        ⟨Bool.eq_false_iff.mpr hblank, hname, Bool.eq_false_iff.mpr htext⟩⟩
  refine .ite (fun _ => tells_of_ne fun t left h => ?_) fun _ => ?_
  · split at h <;> cases h
    rfl
  refine .ite (fun _ => tells_of_ne fun t left h => ?_) fun _ => ?_
  · split at h <;> cases h
    rfl
  refine .ite (fun hx => tells_of_ne fun t left h => ?_) fun _ => ?_
  · rw [← isSpecial_numberToken hx cs, Option.some.inj h]
  refine .ite (fun _ => tells_of_ne fun t left h => isSpecial_dollarToken h) fun _ => ?_
  refine .ite (fun _ => tells_of_ne fun t left h => ?_) fun _ => ?_
  · cases h
    rfl
  refine .ite (fun _ => tells_of_ne fun t left h => ?_) fun _ => ?_
  · split at h <;> cases h
    rfl
  refine .ite (fun _ => tells_symbol fun h => absurd h (by decide)) fun _ => ?_
  refine .ite (fun hstart => tells_symbol fun hspelling => ?_) fun _ => symbolToken_tells x cs
  have hx : x = ';' := (List.cons.inj (String.ofList_injective (hspelling.trans rfl))).1
  rw [hx] at hstart
  exact absurd hstart (by decide)

theorem keepsOn_separator (t : Token) {c : Char} (hc : c ∈ separators) (rest : List Char) :
    KeepsOn t [';'] (c :: rest) := by
  intro d hd
  have hnot : d ∉ separators := by
    cases t with
    | number s =>
      rcases Bool.or_eq_true_iff.mp hd with hlong | hmark
      · exact of_decide_eq_true hlong ▸ by decide
      · exact of_decide_eq_true (Bool.and_eq_true_iff.mp hmark).2 ▸ by decide
    | _ => cases hd
  exact ⟨fun h => absurd (Option.some.inj h ▸ by decide) hnot,
    fun h => absurd (Option.some.inj h ▸ hc) hnot⟩

/-! ## Token by token -/

/-- The tokens of a text, one after another; none of them is empty. -/
inductive Reads : List Char → List Token → Prop
  | nil : Reads [] []
  | cons {x : Char} {cs left : List Char} {t : Token} {ts : List Token}
      (h : scanOne x cs = .ok (t, left)) (hle : left.length ≤ cs.length) (hrest : Reads left ts) :
      Reads (x :: cs) (t :: ts)

variable {ts : List Token}

theorem Reads.scanAt (h : Reads cs ts) {n : Nat} (hn : cs.length ≤ n) : scanAt n cs = .ok ts := by
  induction h generalizing n with
  | nil => cases n <;> rfl
  | cons h hle _ ih =>
    obtain ⟨n, rfl⟩ : ∃ m, n = m + 1 := ⟨n - 1, by simp at hn; omega⟩
    rw [Token.scanAt, h]
    dsimp only
    rw [ih (Nat.le_trans hle (Nat.le_of_succ_le_succ hn))]

theorem Reads.scan {s : String} (h : Reads s.toList ts) : scan s = .ok ts := by
  unfold Token.scan
  rw [h.scanAt (Nat.le_refl _)]

/-- The text is cut into the tokens, whatever separator follows it. -/
def Cuts (a : List Char) (ts : List Token) : Prop :=
  ∀ c ∈ separators, ∀ rest us, Reads (c :: rest) us → Reads (a ++ c :: rest) (ts ++ us)

theorem scanAt_cons_eq_ok {n : Nat} {x : Char} :
    scanAt (n + 1) (x :: cs) = .ok ts ↔
      ∃ t left more, scanOne x cs = .ok (t, left) ∧ scanAt n left = .ok more ∧ ts = t :: more := by
  rw [scanAt]
  cases scanOne x cs with
  | error e => simp
  | ok read =>
    obtain ⟨t, left⟩ := read
    dsimp only
    constructor
    · intro h
      cases hmore : scanAt n left with
      | error e =>
        rw [hmore] at h
        cases h
      | ok more =>
        rw [hmore] at h
        exact ⟨t, left, more, rfl, hmore, (Except.ok.inj h).symm⟩
    · rintro ⟨_, _, more, hone, hmore, rfl⟩
      cases hone
      rw [hmore]

/-- A text that is cut right before a semicolon is cut right before any separator. -/
theorem reads_of_scanAt {c : Char} {rest : List Char} {us : List Token} (hc : c ∈ separators)
    (hrest : Reads (c :: rest) us) {n : Nat} {a : List Char} (hn : a.length < n)
    (h : scanAt n (a ++ [';']) = .ok (ts ++ [.symbol ";"])) :
    Reads (a ++ c :: rest) (ts ++ us) := by
  induction n generalizing a ts with
  | zero => exact absurd hn (Nat.not_lt_zero _)
  | succ n ih =>
    cases a with
    | nil =>
      obtain ⟨t, left, more, hone, hmore, hts⟩ := scanAt_cons_eq_ok.mp h
      have hsemicolon : scanOne ';' [] = .ok (.symbol ";", []) := by rfl
      obtain ⟨rfl, rfl⟩ := Prod.mk.inj (Except.ok.inj (hsemicolon.symm.trans hone))
      have hnil : more = [] := by cases n <;> cases hmore <;> rfl
      rw [hnil] at hts
      rw [List.append_left_eq_self.mp hts]
      exact hrest
    | cons x a =>
      obtain ⟨t, left, more, hone, hmore, hts⟩ := scanAt_cons_eq_ok.mp h
      have hend := scanOne_end (.stop hc rest) x a (fun t _ _ => t.keepsOn_separator hc rest) t left
        (congrArg Except.toOption hone)
      cases ts with
      | nil =>
        -- the text would be read as one semicolon, and another one would follow it
        obtain ⟨rfl, rfl⟩ := List.cons.inj hts
        obtain ⟨rfl, rfl⟩ := (scanOne_tells x _ _ _ hone).1 rfl
        obtain ⟨n, rfl⟩ : ∃ m, n = m + 1 := ⟨n - 1, by simp at hn; omega⟩
        cases a <;> obtain ⟨_, _, _, -, -, hnil⟩ := scanAt_cons_eq_ok.mp hmore <;> cases hnil
      | cons t' ts =>
        obtain ⟨rfl, rfl⟩ := List.cons.inj hts
        rcases hend with hnil | ⟨after, rfl, hle, hread⟩
        · rw [List.length_eq_zero_iff.mp (Nat.lt_one_iff.mp hnil)] at hmore
          cases n <;> simp [scanAt] at hmore
        · have hread := eq_ok_of_toOption hread
          exact .cons hread (by simp; omega)
            (ih (Nat.lt_of_le_of_lt hle (Nat.lt_of_succ_lt_succ hn)) hmore)

theorem cuts_of_scan {a : String} (h : scan (a ++ ";") = .ok (ts ++ [.symbol ";"])) :
    Cuts a.toList ts := by
  intro c hc rest us hrest
  unfold scan at h
  split at h
  · rename_i found hfound
    rw [Except.ok.inj h, String.toList_append] at hfound
    exact reads_of_scanAt hc hrest (by simp) hfound
  · cases h

/-! ## Pieces of a text -/

/-- A character that is a token by itself, whatever follows it. -/
def lone? (c : Char) : Option Token :=
  if c = ' ' || c = '\n' then some .blank
  else if c = ';' || c = ',' || c = '(' || c = ')' then some (.symbol c.toString)
  else none

theorem scanOne_lone {t : Token} (h : lone? c = some t) (cs : List Char) :
    scanOne c cs = .ok (t, cs) := by
  have hcases : c = ' ' ∨ c = '\n' ∨ c = ';' ∨ c = ',' ∨ c = '(' ∨ c = ')' := by
    unfold lone? at h
    simp only [Bool.or_eq_true, decide_eq_true_eq] at h
    split at h
    · rename_i hblank
      exact hblank.imp_right Or.inl
    · split at h
      · rename_i hsymbol
        simpa [or_assoc] using Or.inr (Or.inr hsymbol)
      · cases h
  rcases hcases with rfl | rfl | rfl | rfl | rfl | rfl <;> cases h <;> rfl

theorem Reads.lone {t : Token} (h : lone? c = some t) (hrest : Reads cs ts) :
    Reads (c :: cs) (t :: ts) :=
  .cons (scanOne_lone h cs) (Nat.le_refl _) hrest

theorem Cuts.nil : Cuts [] [] :=
  fun _ _ _ _ hrest => hrest

theorem Cuts.cons {a : List Char} {t : Token} (h : lone? c = some t) (ha : Cuts a ts) :
    Cuts (c :: a) (t :: ts) :=
  fun d hd rest us hrest => .lone h (ha d hd rest us hrest)

theorem Cuts.append {a b : List Char} {t : Token} {us : List Token} (ha : Cuts a ts)
    (hc : c ∈ separators) (h : lone? c = some t) (hb : Cuts b us) :
    Cuts (a ++ c :: b) (ts ++ t :: us) := by
  intro d hd rest vs hrest
  have hread := ha c hc _ _ (.lone h (hb d hd rest vs hrest))
  rw [List.append_assoc, List.append_assoc]
  exact hread

end ColumnLineage.Token
