import ColumnLineage.Proofs.TextBoundaries
import Mathlib.Data.List.Find

/-!
# Where tokens end

No reader of a token looks at what follows the token, but for the tests whether it goes on. So a
token that is read before one end of a text is read before every end that looks alike; only a number
must be told from a letter that goes on with it in one case and not in the other.
-/

namespace ColumnLineage.Token

variable {left left' : List Char}

/-! ## Comments -/

theorem afterComment_lt {depth : Nat} {last : Char} {cs r : List Char}
    (h : afterComment depth last cs = some r) : r.length < cs.length := by
  fun_induction afterComment depth last cs <;> grind

theorem afterComment_local (depth : Nat) (last : Char) :
    Local fun cs => (afterComment depth last cs).map (Token.blank, ·) := by
  intro left left' h a
  dsimp only
  induction a generalizing depth last with
  | nil =>
    intro t r hr
    obtain ⟨s, hs, heq⟩ := Option.map_eq_some_iff.mp hr
    obtain ⟨-, rfl⟩ := Prod.mk.inj heq
    exact Or.inl (afterComment_lt hs)
  | cons x a ih =>
    have hle : a.length ≤ (x :: a).length := Nat.le_succ _
    rw [List.cons_append, List.cons_append, afterComment.eq_def, afterComment.eq_def depth]
    dsimp only
    by_cases hopen : last = '/' && x = '*'
    · rw [if_pos hopen, if_pos hopen]
      exact (ih (depth + 1) x).mono hle
    · rw [if_neg hopen, if_neg hopen]
      by_cases hclose : last = '*' && x = '/'
      · rw [if_pos hclose, if_pos hclose]
        cases depth with
        | zero => exact sameEnd_some Token.blank hle
        | succ n => exact (ih n x).mono hle
      · rw [if_neg hclose, if_neg hclose]
        exact (ih depth x).mono hle

theorem afterLine_local : Local fun cs => some (Token.blank, afterLine cs) := by
  have hblind : Blind fun c => decide (c ≠ '\n') := blind_of_isBlind (by decide)
  intro left left' h a
  exact (run_local hblind h a).chain (fun r => some (Token.blank, r.2.drop 1))
    (fun _ _ _ _ hs => (drop_local Token.blank 1).length_le hs)
    fun _ after hle => (drop_local Token.blank 1 h after).mono hle

/-! ## Numbers -/

/-- A character of a kind at the front of a text, if there is one, and what follows. -/
def takeIf (p : Char → Bool) (cs : List Char) : Option (List Char × List Char) :=
  if cs.head?.any p then some (cs.take 1, cs.tail) else some ([], cs)

theorem takeIf_end {p : Char → Bool} (hp : left.head?.any p = left'.head?.any p) (a : List Char) :
    SameEnd left left' a.length (takeIf p (a ++ left)) (takeIf p (a ++ left')) := by
  unfold takeIf
  cases a with
  | nil =>
    refine .ite (by rw [List.nil_append, List.nil_append, hp]) (fun hhead => ?_) fun _ =>
      sameEnd_some [] (a := []) (Nat.le_refl 0)
    cases left with
    | nil => cases hhead
    | cons c rest => exact sameEnd_short (Nat.lt_succ_self _)
  | cons x a =>
    exact .ite Iff.rfl (fun _ => sameEnd_some _ (Nat.le_succ _)) fun _ =>
      sameEnd_some [] (a := x :: a) (Nat.le_refl _)

theorem Near.any (h : Near left left') {p : Char → Bool} (hp : Blind p) :
    left.head?.any p = left'.head?.any p := by
  rcases h.heads with ⟨rfl, rfl⟩ | ⟨c, rest, c', rest', rfl, rfl, hc⟩
  · rfl
  · exact hc hp

theorem takeIf_local {p : Char → Bool} (hp : Blind p) : Local (takeIf p) :=
  fun _ _ h => takeIf_end (h.any hp)

theorem takeIf_append {p : Char → Bool} {cs x r : List Char} (h : takeIf p cs = some (x, r)) :
    x ++ r = cs := by
  unfold takeIf at h
  split at h <;> cases h
  · cases cs <;> rfl
  · rfl

theorem blind_digit : Blind Char.isDigit :=
  blind_of_isBlind (by decide)

def isExponent (c : Char) : Bool :=
  c = 'e' || c = 'E'

def isSign (c : Char) : Bool :=
  c = '+' || c = '-'

/-- What stands behind the mark `e` of an exponent: a sign that may be missing, and digits. -/
def exponent (e : Char) (cs : List Char) : Option (List Char × List Char) :=
  (takeIf isSign cs).bind fun s => (run Char.isDigit s.2).map fun r => (e :: s.1 ++ r.1, r.2)

/-- Whether an exponent with at least one digit starts here. -/
def startsExponent (cs : List Char) : Bool :=
  cs.head?.any isExponent && ((takeIf isSign cs.tail).bind (·.2.head?)).any Char.isDigit

theorem takeExponent_eq (cs : List Char) :
    some (takeExponent cs) =
      if startsExponent cs then cs.head?.bind fun e => exponent e cs.tail else some ([], cs) := by
  cases cs with
  | nil => rfl
  | cons e rest =>
    by_cases he : isExponent e
    · cases rest with
      | nil => simp_all [takeExponent, startsExponent, isExponent, takeIf]
      | cons s more =>
        by_cases hs : isSign s
        · cases more with
          | nil => simp_all [takeExponent, startsExponent, isExponent, isSign, takeIf]
          | cons d more =>
            by_cases hd : d.isDigit <;>
              simp_all [takeExponent, startsExponent, exponent, isExponent, isSign, takeIf, run]
        · by_cases hd : s.isDigit <;>
            simp_all [takeExponent, startsExponent, exponent, isExponent, isSign, takeIf, run]
    · simp_all [takeExponent, startsExponent, isExponent]

theorem Near.startsExponent (h : Near left left') : startsExponent left = startsExponent left' := by
  have hmark : Blind isExponent := blind_of_isBlind (by decide)
  have hsign : Blind isSign := blind_of_isBlind (by decide)
  have hdigits : ∀ {cs cs' : List Char}, Near cs cs' →
      ((takeIf isSign cs).bind (·.2.head?)).any Char.isDigit =
        ((takeIf isSign cs').bind (·.2.head?)).any Char.isDigit := by
    intro cs cs' h
    have hcs := h.any hsign
    have hcs' := h.any blind_digit
    unfold takeIf
    cases h with
    | nil => rfl
    | @cons c c' _ _ _ hrest =>
      have hrest := hrest.any blind_digit
      cases hc : isSign c' <;> simp_all
    | stop => simp_all [isSign]
  have hhead := h.any hmark
  unfold Token.startsExponent
  cases h with
  | nil => rfl
  | cons _ hrest => rw [hhead, List.tail_cons, List.tail_cons, hdigits hrest]
  | stop => rw [← hhead]; rfl

theorem exponent_local (e : Char) : Local (exponent e) := by
  have hsign : Blind isSign := blind_of_isBlind (by decide)
  intro left left' h a
  refine (takeIf_local hsign h a).bind (fun s r x r' hr => ?_) fun s after _ hle =>
    ((run_local blind_digit h after).mono hle).map (f := fun ds => e :: s ++ ds) fun _ _ => rfl
  cases hr
  exact length_dropWhile_le _ _

theorem takeExponent_local : Local fun cs => some (takeExponent cs) := by
  intro left left' h a
  dsimp only
  rw [takeExponent_eq, takeExponent_eq]
  exact .ite (by rw [(h.append a).startsExponent]) (fun _ => head_local exponent_local h a) fun _ =>
    sameEnd_some [] (Nat.le_refl _)

theorem takeExponent_append (cs : List Char) : (takeExponent cs).1 ++ (takeExponent cs).2 = cs := by
  have h := takeExponent_eq cs
  split at h
  · obtain ⟨e, he, h⟩ := Option.bind_eq_some_iff.mp h.symm
    obtain ⟨s, hs, h⟩ := Option.bind_eq_some_iff.mp h
    obtain ⟨rest, rfl⟩ := List.head?_eq_some_iff.mp he
    rw [← Option.some.inj h]
    simp [takeIf_append hs]
  · rw [Option.some.inj h]
    rfl

/-- The digits of a number and its point. -/
def numeralBody (cs : List Char) : Option (List Char × List Char) :=
  (run Char.isDigit cs).bind fun w => (takeIf (· = '.') w.2).bind fun p =>
    (run Char.isDigit p.2).map fun r => (w.1 ++ p.1 ++ r.1, r.2)

/-- What may follow these: an exponent, and the letter `L`. -/
def numeral (body cs : List Char) : Option (List Char × List Char) :=
  (some (takeExponent cs)).bind fun e =>
    (takeIf (· = 'L') e.2).map fun r => (body ++ e.1 ++ r.1, r.2)

theorem takeNumber_eq (cs : List Char) :
    some (takeNumber cs) =
      (numeralBody cs).bind fun b => if b.1 = ['.'] then some b else numeral b.1 b.2 := by
  have hnot : ∀ {d : Char} {cs : List Char}, (∀ rest, cs = d :: rest → False) →
      takeIf (· = d) cs = some ([], cs) := by
    intro d cs h
    refine if_neg ?_
    cases cs with
    | nil => simp
    | cons c rest => simpa using fun hc => h rest (by rw [hc])
  unfold takeNumber numeralBody run
  dsimp only
  -- First the point, then the letter behind the exponent.
  split
  case' h_1 behind hbehind =>
    rw [hbehind, Option.bind_some,
      show takeIf (· = '.') ('.' :: behind) = some (['.'], behind) from rfl]
  case' h_2 hbehind =>
    rw [Option.bind_some, hnot hbehind]
  all_goals
    refine ((apply_ite some _ _ _).trans ?_)
    refine ite_congr rfl (fun _ => rfl) fun _ => ?_
    dsimp only [numeral, Option.bind_some]
    split
    · rename_i left hleft
      rw [hleft]
      rfl
    · rename_i hleft
      rw [hnot hleft]
      rfl

section numbers

variable {x : Char} {cs rest body r : List Char}

theorem numeralBody_append (h : numeralBody cs = some (body, r)) : body ++ r = cs := by
  obtain ⟨w, hw, h⟩ := Option.bind_eq_some_iff.mp h
  obtain rfl := Option.some.inj hw
  obtain ⟨p, hp, heq⟩ := Option.bind_eq_some_iff.mp h
  obtain ⟨rfl, rfl⟩ := Prod.mk.inj (Option.some.inj heq)
  have hbehind : p.1 ++ p.2 = cs.dropWhile Char.isDigit := takeIf_append hp
  simp [hbehind]

theorem numeralBody_ne_nil (hx : x.isDigit || x = '.')
    (h : numeralBody (x :: rest) = some (body, r)) : body ≠ [] := by
  by_cases hdigit : x.isDigit
  · obtain ⟨w, hw, h⟩ := Option.bind_eq_some_iff.mp h
    obtain rfl := Option.some.inj hw
    obtain ⟨p, -, heq⟩ := Option.bind_eq_some_iff.mp h
    obtain ⟨rfl, -⟩ := Prod.mk.inj (Option.some.inj heq)
    simp [hdigit]
  · obtain rfl : x = '.' := by simpa [hdigit] using hx
    cases h
    simp

theorem numeral_append {digits : List Char} (h : numeral body cs = some (digits, r)) :
    digits ++ r = body ++ cs := by
  obtain ⟨l, hl, heq⟩ := Option.map_eq_some_iff.mp h
  obtain ⟨rfl, rfl⟩ := Prod.mk.inj heq
  rw [List.append_assoc, takeIf_append hl, List.append_assoc, takeExponent_append]

theorem body_prefix_numeral {digits : List Char} (h : numeral body cs = some (digits, r)) :
    body <+: digits := by
  obtain ⟨l, hl, heq⟩ := Option.map_eq_some_iff.mp h
  obtain ⟨rfl, rfl⟩ := Prod.mk.inj heq
  exact ⟨_, (List.append_assoc ..).symm⟩

/-- A digit of a number in base sixteen. -/
def isHexDigit (c : Char) : Bool :=
  (hexDigit? c).isSome

theorem numberToken_eq (hx : x.isDigit || x = '.') (rest : List Char) :
    some (numberToken (x :: rest)) =
      if x = '0' ∧ rest.head? = some 'x' then
        (run isHexDigit rest.tail).map fun r => (.marked .hex (String.ofList r.1), r.2)
      else (numeralBody (x :: rest)).bind fun b =>
        if b.1 = ['.'] then some (.symbol ".", b.2)
        else (numeral b.1 b.2).map fun r => (.number (String.ofList r.1), r.2) := by
  unfold numberToken
  split
  · rename_i heq
    cases heq
    rfl
  · rename_i hnot
    rw [if_neg]
    · obtain ⟨b, hb, htake⟩ := Option.bind_eq_some_iff.mp (takeNumber_eq (x :: rest)).symm
      rw [hb, Option.bind_some]
      generalize takeNumber (x :: rest) = found at htake
      obtain ⟨digits, after⟩ := found
      by_cases hpoint : b.1 = ['.']
      · rw [if_pos hpoint] at htake ⊢
        cases htake
        cases hpoint
        rfl
      · rw [if_neg hpoint] at htake ⊢
        rw [htake]
        split
        · rename_i heq
          cases heq
          have hprefix := body_prefix_numeral htake
          rcases List.prefix_cons_iff.mp hprefix with hnil | ⟨t, ht, htail⟩
          · exact absurd hnil (numeralBody_ne_nil hx hb)
          · exact absurd (List.prefix_nil.mp htail ▸ ht) hpoint
        · rename_i heq
          cases heq
          rfl
    · rintro ⟨rfl, hmark⟩
      obtain ⟨tail, rfl⟩ := List.head?_eq_some_iff.mp hmark
      exact hnot tail rfl

/-- A letter that goes on with a number, if it stands right behind it. -/
def goesOn : Token → Char → Bool
  | .number s, c => c = 'L' || (s = "0" && c = 'x')
  | _, _ => false

/-- No letter that goes on with the token is there in one text only. -/
def KeepsOn (t : Token) (left left' : List Char) : Prop :=
  ∀ c, t.goesOn c = true → (left.head? = some c ↔ left'.head? = some c)

theorem numberToken_digits {t : Token} (hx : x.isDigit || x = '.')
    (hhex : ¬ (x = '0' ∧ rest.head? = some 'x')) (h : numberToken (x :: rest) = (t, r)) :
    ∃ digits, digits ≠ [] ∧ digits ++ r = x :: rest ∧
      (t = .symbol "." ∧ digits = ['.'] ∨ t = .number (String.ofList digits)) := by
  have heq := numberToken_eq hx rest
  rw [if_neg hhex, h] at heq
  obtain ⟨⟨body, behind⟩, hbody, heq⟩ := Option.bind_eq_some_iff.mp heq.symm
  have hnil := numeralBody_ne_nil hx hbody
  have happend := numeralBody_append hbody
  dsimp only at heq
  split at heq
  · rename_i hpoint
    cases heq
    exact ⟨body, hnil, happend, Or.inl ⟨rfl, hpoint⟩⟩
  · obtain ⟨⟨digits, after⟩, hdigits, heq⟩ := Option.map_eq_some_iff.mp heq
    cases heq
    refine ⟨digits, fun hdigits' => ?_, (numeral_append hdigits).trans happend, Or.inr rfl⟩
    exact hnil (List.prefix_nil.mp (hdigits' ▸ body_prefix_numeral hdigits))

theorem numeralBody_local : Local numeralBody := by
  have hpoint : Blind fun c => decide (c = '.') := blind_of_isBlind (by decide)
  intro left left' h a
  refine (run_local blind_digit h a).bind (fun w r b s hs => ?_) fun w after _ hle =>
    ((takeIf_local hpoint h after).mono hle).bind (fun p r b s hs => ?_) fun p after _ hle =>
      ((run_local blind_digit h after).mono hle).map (f := fun ds => w ++ p ++ ds) fun _ _ => rfl
  · obtain ⟨p, hp, heq⟩ := Option.bind_eq_some_iff.mp hs
    cases heq
    exact Nat.le_trans (length_dropWhile_le _ _) ((takeIf_local hpoint).length_le hp)
  · cases hs
    exact length_dropWhile_le _ _

/-- Two readings of a number, if neither is one in base sixteen. -/
theorem numberToken_end_decimal (h : Near left left') (hx : x.isDigit || x = '.') {a : List Char}
    (hkeeps : KeepsOn (numberToken (x :: (a ++ left))).1 left left')
    (hhex : ¬ (x = '0' ∧ (a ++ left).head? = some 'x'))
    (hhex' : ¬ (x = '0' ∧ (a ++ left').head? = some 'x')) :
    SameEnd left left' a.length (some (numberToken (x :: (a ++ left))))
      (some (numberToken (x :: (a ++ left')))) := by
  have hsame : SameEnd left left' (x :: a).length (some (numberToken (x :: (a ++ left))))
      (some (numberToken (x :: (a ++ left')))) := by
    have heq := numberToken_eq hx (a ++ left)
    rw [if_neg hhex] at heq
    rw [heq, numberToken_eq hx, if_neg hhex']
    refine (numeralBody_local h (x :: a)).bind (fun body r t s hs => ?_) fun body after hbody hle =>
      .ite Iff.rfl (fun _ => sameEnd_some _ hle) fun hpoint => ?_
    · dsimp only at hs
      split at hs
      · cases hs
        exact Nat.le_refl _
      · obtain ⟨digits, hdigits⟩ := exists_of_map (fun _ _ => rfl) hs
        have hlength := congrArg List.length (numeral_append hdigits)
        have hle := (body_prefix_numeral hdigits).length_le
        simp at hlength
        omega
    · -- the token is a number, so that the letter `L` follows in both texts or in none
      have hbody : numeralBody (x :: (a ++ left)) = some (body, after ++ left) := hbody
      rw [hbody, Option.bind_some, if_neg hpoint] at heq
      obtain ⟨digits, -, htoken⟩ := Option.map_eq_some_iff.mp heq.symm
      have hlong := hkeeps 'L' (by rw [← htoken]; rfl)
      have hlong : left.head?.any (· = 'L') = left'.head?.any (· = 'L') := by
        cases hleft : left.head? <;> cases hleft' : left'.head? <;> simp_all
      refine SameEnd.map (f := fun digits => .number (String.ofList digits)) ?_ fun _ _ => rfl
      refine ((takeExponent_local h after).mono hle).bind (fun e r d s hs => ?_)
        fun e after _ hle =>
        ((takeIf_end hlong after).mono hle).map (f := fun l => body ++ e ++ l) fun _ _ => rfl
      obtain ⟨l, hl⟩ := exists_of_map (fun _ _ => rfl) hs
      have hlength := congrArg List.length (takeIf_append hl)
      simp at hlength
      omega
  intro t r hr
  refine (hsame t r hr).imp_right ?_
  rintro ⟨after, rfl, -, hfound⟩
  obtain ⟨digits, hnil, happend, -⟩ := numberToken_digits hx hhex (Option.some.inj hr)
  refine ⟨after, rfl, ?_, hfound⟩
  have hlength := congrArg List.length happend
  have hpos := List.length_pos_iff.mpr hnil
  simp at hlength
  omega

theorem numberToken_end (h : Near left left') (hx : x.isDigit || x = '.') (a : List Char)
    (hkeeps : KeepsOn (numberToken (x :: (a ++ left))).1 left left') :
    SameEnd left left' a.length (some (numberToken (x :: (a ++ left))))
      (some (numberToken (x :: (a ++ left')))) := by
  have hblind : Blind isHexDigit := blind_of_isBlind (by decide)
  by_cases hhex : x = '0' ∧ (a ++ left).head? = some 'x'
  · rw [numberToken_eq hx, if_pos hhex]
    cases a with
    | nil =>
      obtain ⟨tail, rfl⟩ := List.head?_eq_some_iff.mp hhex.2
      exact sameEnd_short (Nat.lt_succ_of_le (length_dropWhile_le _ _))
    | cons y a =>
      have hhex' : x = '0' ∧ (y :: a ++ left').head? = some 'x' := hhex
      rw [numberToken_eq hx, if_pos hhex']
      exact ((run_local hblind h a).mono (Nat.le_succ _)).map
        (f := fun ds => .marked .hex (String.ofList ds)) fun _ _ => rfl
  · by_cases hhex' : x = '0' ∧ (a ++ left').head? = some 'x'
    · cases a with
      | nil =>
        -- the token before is a lone zero, unless it reaches into what follows
        obtain ⟨rfl, hmark⟩ := hhex'
        intro t r hr
        by_contra hlong
        have hle : ¬ r.length < left.length := fun hlt => hlong (Or.inl hlt)
        have hr := Option.some.inj hr
        obtain ⟨digits, hnil, happend, hcases⟩ := numberToken_digits hx hhex hr
        obtain ⟨d, ds, rfl⟩ := List.exists_cons_of_ne_nil hnil
        obtain rfl := (List.cons.inj happend).1
        have hlength := congrArg List.length happend
        simp only [List.cons_append, List.length_cons, List.length_append, List.nil_append]
          at hlength
        obtain rfl : ds = [] := List.length_eq_zero_iff.mp (by omega)
        obtain rfl : t = .number "0" := by simpa using hcases
        rw [hr] at hkeeps
        exact hhex ⟨rfl, (hkeeps 'x' rfl).mpr hmark⟩
      | cons y a => exact absurd hhex' hhex
    · exact numberToken_end_decimal h hx hkeeps hhex hhex'

end numbers

/-! ## Operators -/

theorem Near.isPrefixOf (h : Near left left') {s : List Char}
    (hs : ∀ d ∈ s, Blind fun c => decide (c = d)) : s.isPrefixOf left = s.isPrefixOf left' := by
  induction s generalizing left left' with
  | nil => simp
  | cons d s ih =>
    have hd := hs d List.mem_cons_self
    have hhead := h.starts hd
    cases h with
    | nil => rfl
    | @cons c c' _ _ _ hrest =>
      have hbeq : (d == c) = (d == c') := by
        rw [Bool.eq_iff_iff, beq_iff_eq, beq_iff_eq]
        exact ⟨fun e => (Option.some.inj (hhead.mp (congrArg some e.symm))).symm,
          fun e => (Option.some.inj (hhead.mpr (congrArg some e.symm))).symm⟩
      have hrest := ih hrest fun e he => hs e (List.mem_cons_of_mem d he)
      rw [List.isPrefixOf, List.isPrefixOf, hbeq, hrest]
    | @stop c =>
      have hne : ';' ≠ d := by
        rintro rfl
        exact absurd (hd.separator ' ' (by decide)) (by decide)
      have hne' : c ≠ d := by
        simpa [hne] using hhead
      simp only [List.isPrefixOf, beq_false_of_ne hne.symm, beq_false_of_ne hne'.symm,
        Bool.false_and]

/-- The spellings that more than one character of a text are compared with. -/
theorem blind_spelling : ∀ s ∈ fixedOperators ++ ["--", "/*", "!="], ∀ d ∈ s.toList,
    Blind fun c => decide (c = d) := by
  have hall : ((fixedOperators ++ ["--", "/*", "!="]).all fun s =>
      s.toList.all fun d => isBlind fun c => decide (c = d)) = true := by
    decide
  intro s hs d hd
  exact blind_of_isBlind (List.all_eq_true.mp (List.all_eq_true.mp hall s hs) d hd)

theorem symbolToken_local (x : Char) : Local fun cs => some (symbolToken x cs) := by
  intro left left' h a
  dsimp only
  have hfind : ∀ s ∈ fixedOperators, s.toList.isPrefixOf (x :: (a ++ left)) =
      s.toList.isPrefixOf (x :: (a ++ left')) := fun s hs =>
    Near.isPrefixOf (.cons rfl (h.append a)) (blind_spelling s (List.mem_append_left _ hs))
  unfold symbolToken longestOf
  rw [← List.find?_congr hfind]
  cases hfound : fixedOperators.find? _ with
  | some s =>
    obtain ⟨k, hk⟩ : ∃ k, s.length = k + 1 := by
      have hpos : ∀ s ∈ fixedOperators, s.length ≠ 0 := by decide
      exact Nat.exists_eq_succ_of_ne_zero (hpos s (List.mem_of_find?_eq_some hfound))
    simp only [Option.map_some, hk, List.drop_succ_cons]
    exact drop_local _ k h a
  | none =>
    by_cases hx : x = '?'
    · simp only [Option.map_none, if_pos hx]
      exact drop_local _ 1 h a
    · simp only [Option.map_none, if_neg hx]
      exact sameEnd_some _ (Nat.le_refl _)

/-! ## Strings with a letter before them -/

theorem toOption_map {ε α β : Type} (m : Except ε α) (f : α → β) :
    (m.map f).toOption = m.toOption.map f := by
  cases m <;> rfl

/-- Whether a small letter and what follows it start a string. -/
def startsText (l : Char) (rest : List Char) : Bool :=
  rest.head? = some '\'' && (l = 'b' || l = 'n' || l = 'x' || l = 'e') ||
    rest.head? = some '"' && l = 'b' ||
    rest.head? = some '&' && rest.tail.head? = some '\'' && l = 'u'

theorem isSome_letteredText? (x : Char) (rest : List Char) :
    (letteredText? x rest).isSome = startsText x.toLower rest := by
  unfold letteredText? startsText
  generalize x.toLower = l
  split
  · rfl
  · rfl
  · rfl
  · rfl
  · rfl
  · rfl
  · rename_i hu
    rcases rest with _ | ⟨y, _ | ⟨z, rest⟩⟩
    · rfl
    · simp_all
      grind
    · have hu := hu rest
      simp_all
      grind

theorem blind_quote : Blind fun c => decide (c = '\'') :=
  blind_of_isBlind (by decide)

theorem blind_doubleQuote : Blind fun c => decide (c = '"') :=
  blind_of_isBlind (by decide)

theorem Near.startsText (h : Near left left') (l : Char) :
    startsText l left = startsText l left' := by
  have hmark : Blind fun c => decide (c = '&') := blind_of_isBlind (by decide)
  have hquote := h.starts blind_quote
  have hdouble := h.starts blind_doubleQuote
  have hand := h.starts hmark
  unfold Token.startsText
  cases h with
  | nil => rfl
  | @cons c c' rest rest' _ hrest =>
    have htail : (c :: rest).tail.head? = some '\'' ↔ (c' :: rest').tail.head? = some '\'' :=
      hrest.starts blind_quote
    rw [decide_eq_decide.mpr hquote, decide_eq_decide.mpr hdouble, decide_eq_decide.mpr hand,
      decide_eq_decide.mpr htail]
  | stop => simp_all

theorem quotedBody_local {q : Char} (hq : Blind fun c => decide (c = q)) :
    Local (quotedBody q) := by
  intro left left' h a
  rw [quotedBody_eq (Nat.le_refl _), quotedBody_eq (Nat.le_refl _)]
  exact textBody_length_local hq (fun _ _ _ _ => sameEnd_some _ (Nat.le_refl _)) h a

theorem backslashedBody_local : Local backslashedBody := by
  intro left left' h a
  rw [backslashedBody_eq (Nat.le_refl _), backslashedBody_eq (Nat.le_refl _)]
  refine textBody_length_local blind_quote
    (head_local (f := fun d cs => some (backslashed d, cs)) fun _ _ _ _ _ => ?_) h a
  exact sameEnd_some _ (Nat.le_refl _)

theorem escapedBody_local : Local fun cs => escapedBody cs.length cs := by
  intro left left' h a
  dsimp only
  rw [escapedBody_eq, escapedBody_eq]
  exact textBody_length_local blind_quote (head_local escapeChar?_local) h a

theorem unicodeBody_local : Local fun cs => (unicodeBody cs.length cs).toOption := by
  intro left left' h a
  dsimp only
  rw [unicodeBody_eq, unicodeBody_eq]
  exact textBody_length_local blind_quote unicodeChar_local h a

/-- The token of a text that has been read. -/
def markedText (kind : TextKind) (found : Option (List Char × List Char)) :
    Option (Token × List Char) :=
  found.map fun r => (.marked kind (String.ofList r.1), r.2)

/-- The string that the small letter `l` and the character `y` behind it start. -/
def quotedText (l y : Char) (body : List Char) : Option (Token × List Char) :=
  if y = '\'' then
    if l = 'b' then markedText .bits (quotedBody '\'' body)
    else if l = 'n' then markedText .national (backslashedBody body)
    else if l = 'x' then markedText .hex (backslashedBody body)
    else if l = 'e' then markedText .escaped (escapedBody body.length body)
    else none
  else if y = '"' ∧ l = 'b' then markedText .doubleBits (quotedBody '"' body)
  else if y = '&' ∧ l = 'u' then
    body.head?.bind fun z =>
      if z = '\'' then
        markedText .unicode (unicodeBody body.tail.length body.tail).toOption
      else none
  else none

theorem letteredText?_eq (x : Char) (rest : List Char) :
    (letteredText? x rest).bind Except.toOption =
      rest.head?.bind fun y => quotedText x.toLower y rest.tail := by
  have hmarked : ∀ kind fault found,
      (markedToken kind fault found).toOption = markedText kind found := by
    intro kind fault found
    cases found <;> rfl
  unfold letteredText? quotedText
  generalize x.toLower = l
  split
  · exact hmarked _ _ _
  · exact hmarked _ _ _
  · exact hmarked _ _ _
  · exact hmarked _ _ _
  · exact hmarked _ _ _
  · exact toOption_map _ _
  · rename_i hu
    rcases rest with _ | ⟨y, _ | ⟨z, rest⟩⟩
    · rfl
    · simp_all
      grind
    · have hu := hu rest
      simp_all
      grind

theorem quotedText_local (l y : Char) : Local (quotedText l y) := by
  have hmark : ∀ {left left' : List Char} {n : Nat} {found found' : Option (List Char × List Char)}
      (kind : TextKind), SameEnd left left' n found found' →
        SameEnd left left' n (markedText kind found) (markedText kind found') :=
    fun kind h => h.map (f := fun body => .marked kind (String.ofList body)) fun _ _ => rfl
  have hunicode : ∀ z, Local fun cs =>
      if z = '\'' then markedText .unicode (unicodeBody cs.length cs).toOption else none :=
    fun z _ _ h a => .ite Iff.rfl (fun _ => hmark _ (unicodeBody_local h a)) fun _ => sameEnd_none
  intro left left' h a
  exact .ite Iff.rfl (fun _ =>
      .ite Iff.rfl (fun _ => hmark _ (quotedBody_local blind_quote h a)) fun _ =>
      .ite Iff.rfl (fun _ => hmark _ (backslashedBody_local h a)) fun _ =>
      .ite Iff.rfl (fun _ => hmark _ (backslashedBody_local h a)) fun _ =>
      .ite Iff.rfl (fun _ => hmark _ (escapedBody_local h a)) fun _ => sameEnd_none) fun _ =>
    .ite Iff.rfl (fun _ => hmark _ (quotedBody_local blind_doubleQuote h a)) fun _ =>
    .ite Iff.rfl (fun _ => head_local hunicode h a) fun _ => sameEnd_none

/-! ## One token -/

theorem SameEnd.congr {α : Type} {n : Nat} {found found' read read' : Option (α × List Char)}
    (hfound : found = read) (hfound' : found' = read') (h : SameEnd left left' n read read') :
    SameEnd left left' n found found' := by
  rwa [hfound, hfound']

theorem quoted_toOption (f : List Char → Token) (e : FaultBefore)
    (found : Option (List Char × List Char)) :
    (match found with
      | some (body, after) => Except.ok (f body, after)
      | none => Except.error e : Except FaultBefore (Token × List Char)).toOption =
      found.map fun r => (f r.1, r.2) := by
  cases found <;> rfl

theorem comment_toOption (found : Option (List Char)) :
    (match found with
      | some after => Except.ok (.blank, after)
      | none => Except.error (.comment, []) : Except FaultBefore (Token × List Char)).toOption =
      found.map (Token.blank, ·) := by
  cases found <;> rfl

theorem word_toOption (x : Char) (rest : List Char) :
    (match letteredText? x rest with
      | some result => result
      | none => .ok (plainWord (x :: rest.takeWhile continuesName), rest.dropWhile continuesName) :
      Except FaultBefore (Token × List Char)).toOption =
      if startsText x.toLower rest then rest.head?.bind fun y => quotedText x.toLower y rest.tail
      else (run continuesName rest).map fun r => (plainWord (x :: r.1), r.2) := by
  rw [← isSome_letteredText?, ← letteredText?_eq]
  cases letteredText? x rest <;> rfl

theorem blind_name : Blind continuesName :=
  blind_of_isBlind (by decide)

theorem scanOne_end (h : Near left left') (x : Char) (a : List Char)
    (hkeeps : ∀ t r, scanOne x (a ++ left) = .ok (t, r) → KeepsOn t left left') :
    SameEnd left left' a.length (scanOne x (a ++ left)).toOption
      (scanOne x (a ++ left')).toOption := by
  have hoperator : Blind isOperatorChar := blind_of_isBlind (by decide)
  have hstarts : ∀ s ∈ ["--", "/*", "!="], s.toList.isPrefixOf (x :: (a ++ left)) =
      s.toList.isPrefixOf (x :: (a ++ left')) := fun s hs =>
    Near.isPrefixOf (.cons rfl (h.append a)) (blind_spelling s (List.mem_append_right _ hs))
  unfold scanOne at hkeeps ⊢
  simp only [apply_ite Except.toOption, hstarts "--" (by decide), hstarts "/*" (by decide),
    hstarts "!=" (by decide)]
  -- Both texts take the same branch, since no test sees more than the characters they share.
  refine .ite Iff.rfl (fun _ => sameEnd_some _ (Nat.le_refl _)) fun hblank => ?_
  refine .ite Iff.rfl (fun _ => ?_) fun hname => ?_
  · refine .congr (word_toOption x _) (word_toOption x _) ?_
    exact .ite (by rw [(h.append a).startsText]) (fun _ => head_local (quotedText_local _) h a)
      fun _ => (run_local blind_name h a).map (f := fun cs => plainWord (x :: cs)) fun _ _ => rfl
  refine .ite Iff.rfl (fun hx => ?_) fun hquote => ?_
  · subst hx
    refine .congr (quoted_toOption _ _ _) (quoted_toOption _ _ _) ?_
    exact (quotedBody_local blind_quote h a).map (f := fun body => .text (String.ofList body))
      fun _ _ => rfl
  refine .ite Iff.rfl (fun hx => ?_) fun hdouble => ?_
  · subst hx
    refine .congr (quoted_toOption (fun body => .word ⟨String.ofList body, true, ""⟩) _ _)
      (quoted_toOption _ _ _) ?_
    exact (quotedBody_local blind_doubleQuote h a).map
      (f := fun body => .word ⟨String.ofList body, true, ""⟩) fun _ _ => rfl
  refine .ite Iff.rfl (fun hx => ?_) fun _ => ?_
  · rw [if_neg hblank, if_neg hname, if_neg hquote, if_neg hdouble, if_pos hx] at hkeeps
    exact numberToken_end h hx a (hkeeps _ _ rfl)
  refine .ite Iff.rfl (fun _ => dollarToken_local h a) fun _ => ?_
  refine .ite Iff.rfl (fun _ => afterLine_local h a) fun _ => ?_
  refine .ite Iff.rfl (fun _ => ?_) fun _ => ?_
  · refine .congr (comment_toOption _) (comment_toOption _) ?_
    exact (drop_local () 1 h a).chain (fun r => (afterComment 0 ' ' r.2).map (Token.blank, ·))
      (fun _ _ _ _ hs => (afterComment_local 0 ' ').length_le hs)
      fun _ after hle => (afterComment_local 0 ' ' h after).mono hle
  refine .ite Iff.rfl (fun _ => drop_local _ 1 h a) fun _ => ?_
  refine .ite Iff.rfl (fun _ => ?_) fun _ => symbolToken_local x h a
  exact (run_local hoperator h a).map (f := fun cs => Token.symbol (String.ofList (x :: cs)))
    (g := fun r => (.symbol (String.ofList (x :: r.1)), r.2)) fun _ _ => rfl

end ColumnLineage.Token
