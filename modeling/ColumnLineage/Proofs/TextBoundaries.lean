import ColumnLineage.Proofs.Steps
import ColumnLineage.Proofs.Texts
import ColumnLineage.Token.Scan

/-!
# Where texts between quotes end

A reader that leaves the end of a text has not looked at it, or only to see that its token is over.
So it reads the same if an end follows that looks alike: one in other small and capital letters, or
any separator in place of a semicolon. This module has that law for strings with their escapes, for
characters by number and for text between dollar signs.
-/

namespace ColumnLineage.Token

/-! ## Texts that look alike -/

/-- The characters that stand behind a piece of a printed script: they end every token. -/
def separators : List Char :=
  [' ', ';', ',', ')']

/-- Two texts that are not told apart by a reader whose token ends before them. -/
inductive Near : List Char → List Char → Prop
  | nil : Near [] []
  | cons {c c' : Char} {rest rest' : List Char} (h : c.toLower = c'.toLower)
    (hrest : Near rest rest') : Near (c :: rest) (c' :: rest')
  | stop {c : Char} (hc : c ∈ separators) (rest : List Char) : Near [';'] (c :: rest)

/-- A test that sees neither the case of a letter nor which of the separators it is given. -/
structure Blind {β : Type} (p : Char → β) : Prop where
  letter : ∀ c : Char, p c.toLower = p c
  separator : ∀ c ∈ separators, p c = p ';'

/-- Whether a test is blind, which is tried with the capital letters and the separators. -/
def isBlind {β : Type} [DecidableEq β] (p : Char → β) : Bool :=
  (Text.largeLetters.all fun c => p c.toLower = p c) && separators.all fun c => p c = p ';'

theorem blind_of_isBlind {β : Type} [DecidableEq β] {p : Char → β} (h : isBlind p = true) :
    Blind p := by
  obtain ⟨hletter, hseparator⟩ := Bool.and_eq_true_iff.mp h
  refine ⟨Text.eq_toLower_of_capitals hletter, fun c hc => ?_⟩
  exact of_decide_eq_true (List.all_eq_true.mp hseparator c hc)

section near

variable {cs cs' : List Char}

theorem Near.refl : ∀ cs : List Char, Near cs cs
  | [] => .nil
  | _ :: rest => .cons rfl (refl rest)

theorem Near.append (h : Near cs cs') : ∀ a : List Char, Near (a ++ cs) (a ++ cs')
  | [] => h
  | _ :: a => .cons rfl (append h a)

theorem Near.length_le (h : Near cs cs') : cs.length ≤ cs'.length := by
  induction h with
  | nil => exact Nat.le_refl 0
  | cons _ _ ih => exact Nat.succ_le_succ ih
  | stop => exact Nat.succ_le_succ (Nat.zero_le _)

theorem Near.heads (h : Near cs cs') : cs = [] ∧ cs' = [] ∨ ∃ c rest c' rest',
    cs = c :: rest ∧ cs' = c' :: rest' ∧ ∀ {β : Type} {p : Char → β}, Blind p → p c = p c' := by
  cases h with
  | nil => exact Or.inl ⟨rfl, rfl⟩
  | cons h =>
    refine Or.inr ⟨_, _, _, _, rfl, rfl, fun hp => ?_⟩
    rw [← hp.letter, h, hp.letter]
  | stop hc => exact Or.inr ⟨_, _, _, _, rfl, rfl, fun hp => (hp.separator _ hc).symm⟩

theorem Near.starts (h : Near cs cs') {d : Char} (hd : Blind fun c => decide (c = d)) :
    cs.head? = some d ↔ cs'.head? = some d := by
  rcases h.heads with ⟨rfl, rfl⟩ | ⟨c, rest, c', rest', rfl, rfl, hc⟩
  · exact Iff.rfl
  · simpa using hc hd

theorem blind_dollar : Blind fun c => decide (c = '$') :=
  blind_of_isBlind (by decide)

end near

theorem length_dropWhile_le {α : Type} (p : α → Bool) (a : List α) :
    (a.dropWhile p).length ≤ a.length :=
  (List.dropWhile_suffix p).length_le

/-! ## Readers that end alike -/

/-- Two readers of a text, with the end `left` for the first and `left'` for the second. If the
first leaves all of its end, it leaves no more than `n` characters before it, and the second reads
the same. -/
def SameEnd {α : Type} (left left' : List Char) (n : Nat)
    (found found' : Option (α × List Char)) : Prop :=
  ∀ x r, found = some (x, r) → r.length < left.length ∨
    ∃ after, r = after ++ left ∧ after.length ≤ n ∧ found' = some (x, after ++ left')

section readers

variable {α β : Type} {left left' : List Char} {n m : Nat} {found found' : Option (α × List Char)}

theorem sameEnd_none : SameEnd left left' n none found' := by
  intro x r h
  cases h

theorem sameEnd_short {x : α} {r : List Char} (h : r.length < left.length) :
    SameEnd left left' n (some (x, r)) found' := by
  intro y s hs
  cases hs
  exact Or.inl h

theorem sameEnd_some (x : α) {a : List Char} (h : a.length ≤ n) :
    SameEnd left left' n (some (x, a ++ left)) (some (x, a ++ left')) := by
  intro y r hr
  cases hr
  exact Or.inr ⟨a, rfl, h, rfl⟩

theorem SameEnd.mono (h : SameEnd left left' n found found') (hn : n ≤ m) :
    SameEnd left left' m found found' := by
  intro x r hr
  refine (h x r hr).imp_right ?_
  rintro ⟨after, hafter, hle, hfound⟩
  exact ⟨after, hafter, Nat.le_trans hle hn, hfound⟩

theorem SameEnd.ite {p p' : Prop} [Decidable p] [Decidable p']
    {other other' : Option (α × List Char)} (hp : p ↔ p')
    (h : p → SameEnd left left' n found found') (hother : ¬ p → SameEnd left left' n other other') :
    SameEnd left left' n (if p then found else other) (if p' then found' else other') := by
  by_cases h' : p
  · rw [if_pos h', if_pos (hp.mp h')]
    exact h h'
  · rw [if_neg h', if_neg (h' ∘ hp.mpr)]
    exact hother h'

theorem SameEnd.bind {next next' : α × List Char → Option (β × List Char)}
    (h : SameEnd left left' n found found')
    (hle : ∀ x r y s, next (x, r) = some (y, s) → s.length ≤ r.length)
    (hnext : ∀ x after, found = some (x, after ++ left) → after.length ≤ n →
      SameEnd left left' n (next (x, after ++ left)) (next' (x, after ++ left'))) :
    SameEnd left left' n (found.bind next) (found'.bind next') := by
  intro y s hs
  obtain ⟨⟨x, r⟩, hfound, hs⟩ := Option.bind_eq_some_iff.mp hs
  rcases h x r hfound with hshort | ⟨after, rfl, hn, hfound'⟩
  · exact Or.inl (Nat.lt_of_le_of_lt (hle x r y s hs) hshort)
  · rw [hfound']
    exact hnext x after hfound hn y s hs

theorem SameEnd.chain (h : SameEnd left left' n found found')
    (next : α × List Char → Option (β × List Char))
    (hle : ∀ x r y s, next (x, r) = some (y, s) → s.length ≤ r.length)
    (hnext : ∀ x after, after.length ≤ n →
      SameEnd left left' n (next (x, after ++ left)) (next (x, after ++ left'))) :
    SameEnd left left' n (found.bind next) (found'.bind next) :=
  h.bind hle fun x after _ => hnext x after

theorem SameEnd.map {f : α → β} {g : α × List Char → β × List Char}
    (h : SameEnd left left' n found found') (hg : ∀ x r, g (x, r) = (f x, r)) :
    SameEnd left left' n (found.map g) (found'.map g) := by
  rw [Option.map_eq_bind, Option.map_eq_bind]
  refine h.bind (fun x r y s hs => ?_) fun x after _ hle => ?_
  · rw [Function.comp, hg] at hs
    cases hs
    exact Nat.le_refl _
  · rw [Function.comp, Function.comp, hg, hg]
    exact sameEnd_some (f x) hle

theorem exists_of_map {g : α × List Char → β × List Char} (hg : ∀ x r, (g (x, r)).2 = r) {y : β}
    {r : List Char} (h : found.map g = some (y, r)) : ∃ x, found = some (x, r) := by
  obtain ⟨⟨x, s⟩, hfound, heq⟩ := Option.map_eq_some_iff.mp h
  rw [← hg x s, heq] at hfound
  exact ⟨x, hfound⟩

/-- Two readers that end alike on all texts, such as one with fewer steps and one with more. -/
def EndAlike (f f' : List Char → Option (α × List Char)) : Prop :=
  ∀ ⦃left left'⦄, Near left left' → ∀ a,
    SameEnd left left' a.length (f (a ++ left)) (f' (a ++ left'))

/-- A reader that ends alike before texts that look alike. -/
def Local (f : List Char → Option (α × List Char)) : Prop :=
  EndAlike f f

theorem Local.length_le {f : List Char → Option (α × List Char)} (h : Local f) {cs r : List Char}
    {x : α} (hf : f cs = some (x, r)) : r.length ≤ cs.length := by
  rcases h .nil cs x r (by rwa [List.append_nil]) with hr | ⟨after, rfl, hle, -⟩
  · exact absurd hr (Nat.not_lt_zero _)
  · rwa [List.append_nil]

theorem drop_local (x : α) (k : Nat) :
    Local fun cs => some (x, cs.drop k) := by
  intro left left' h a
  dsimp only
  by_cases hle : k ≤ a.length
  · rw [List.drop_append_of_le_length hle, List.drop_append_of_le_length hle]
    exact sameEnd_some x (List.drop_suffix k a).length_le
  · rcases h.heads with ⟨rfl, rfl⟩ | ⟨c, rest, c', rest', rfl, rfl, -⟩
    · rw [List.append_nil, List.drop_of_length_le (by omega)]
      exact sameEnd_some x (a := []) (Nat.zero_le _)
    · exact sameEnd_short (by simp; omega)

/-- The characters of a kind at the front of a text, and what follows them. -/
def run (p : Char → Bool) (cs : List Char) : Option (List Char × List Char) :=
  some (cs.takeWhile p, cs.dropWhile p)

theorem run_local {p : Char → Bool} (hp : Blind p) : Local (run p) := by
  intro left left' h a
  unfold run
  induction a with
  | nil =>
    rw [List.nil_append, List.nil_append]
    rcases h.heads with ⟨rfl, rfl⟩ | ⟨c, rest, c', rest', rfl, rfl, hc⟩
    · exact sameEnd_some [] (a := []) (Nat.le_refl 0)
    · rw [List.takeWhile_cons, List.takeWhile_cons, List.dropWhile_cons, List.dropWhile_cons,
        ← hc hp]
      cases p c with
      | true => exact sameEnd_short (Nat.lt_succ_of_le (length_dropWhile_le p rest))
      | false => exact sameEnd_some [] (a := []) (Nat.le_refl 0)
  | cons x a ih =>
    rw [List.cons_append, List.cons_append, List.takeWhile_cons, List.takeWhile_cons,
      List.dropWhile_cons, List.dropWhile_cons]
    cases p x with
    | true => exact (ih.mono (Nat.le_succ _)).map (g := fun r => (x :: r.1, r.2)) fun _ _ => rfl
    | false => exact sameEnd_some [] (a := x :: a) (Nat.le_refl _)

end readers

/-! ## Texts -/

/-- The text up to the closing quote `q`, where a doubled quote stands for one, and what follows;
`escape` reads what a backslash starts. -/
def textBody (q : Char) (escape : List Char → Option (Char × List Char)) :
    Nat → List Char → Option (List Char × List Char)
  | 0, _ => none
  | _, [] => none
  | n + 1, c :: rest =>
    if c = q then
      if rest.head? = some q then (textBody q escape n rest.tail).map fun r => (q :: r.1, r.2)
      else some ([], rest)
    else if c = '\\' then
      (escape rest).bind fun e => (textBody q escape n e.2).map fun r => (e.1 :: r.1, r.2)
    else (textBody q escape n rest).map fun r => (c :: r.1, r.2)

section texts

variable {q : Char} {escape : List Char → Option (Char × List Char)}

theorem textBody_lt (hescape : Local escape) {n : Nat} {cs body r : List Char}
    (h : textBody q escape n cs = some (body, r)) : r.length < cs.length := by
  induction n generalizing cs body r with
  | zero => cases h
  | succ n ih =>
    cases cs with
    | nil => cases h
    | cons c rest =>
      rw [textBody] at h
      refine Nat.lt_succ_of_le ?_
      split at h
      · split at h
        · obtain ⟨_, hbody⟩ := exists_of_map (fun _ _ => rfl) h
          have hr := ih hbody
          rw [List.length_tail] at hr
          omega
        · cases h
          exact Nat.le_refl _
      · split at h
        · obtain ⟨e, he, h⟩ := Option.bind_eq_some_iff.mp h
          obtain ⟨_, hbody⟩ := exists_of_map (fun _ _ => rfl) h
          exact Nat.le_of_lt (Nat.lt_of_lt_of_le (ih hbody) (hescape.length_le he))
        · obtain ⟨_, hbody⟩ := exists_of_map (fun _ _ => rfl) h
          exact Nat.le_of_lt (ih hbody)

theorem textBody_local (hq : Blind fun c => decide (c = q)) (hescape : Local escape)
    {n m : Nat} (hnm : n ≤ m) : EndAlike (textBody q escape n) (textBody q escape m) := by
  induction n generalizing m with
  | zero => exact fun _ _ _ _ => sameEnd_none
  | succ n ih =>
    obtain ⟨m, rfl⟩ : ∃ k, m = k + 1 := ⟨m - 1, by omega⟩
    have ih := ih (Nat.le_of_succ_le_succ hnm)
    intro left left' h a
    cases a with
    | nil => exact fun body r hr => Or.inl (textBody_lt hescape hr)
    | cons x a =>
      have hle : a.length ≤ (x :: a).length := Nat.le_succ _
      rw [List.cons_append, List.cons_append, textBody, textBody]
      refine .ite Iff.rfl (fun _ => ?_) fun _ => .ite Iff.rfl (fun _ => ?_) fun _ => ?_
      · cases a with
        | nil =>
          refine .ite (h.starts hq) (fun _ => ?_) fun _ => sameEnd_some [] (a := []) (Nat.zero_le _)
          intro body r hr
          obtain ⟨_, hbody⟩ := exists_of_map (fun _ _ => rfl) hr
          have hlt := textBody_lt hescape hbody
          rw [List.nil_append, List.length_tail] at hlt
          exact Or.inl (by omega)
        | cons y a =>
          refine .ite Iff.rfl (fun _ => ?_) fun _ => sameEnd_some [] (a := y :: a) hle
          exact ((ih h a).mono (Nat.le_add_right _ 2)).map fun _ _ => rfl
      · refine ((hescape h a).mono hle).bind (fun e r body s hs => ?_) fun e after _ hafter => ?_
        · obtain ⟨_, hbody⟩ := exists_of_map (fun _ _ => rfl) hs
          exact Nat.le_of_lt (textBody_lt hescape hbody)
        · exact ((ih h after).mono hafter).map fun _ _ => rfl
      · exact ((ih h a).mono hle).map fun _ _ => rfl

theorem textBody_length_local (hq : Blind fun c => decide (c = q)) (hescape : Local escape) :
    Local fun cs => textBody q escape cs.length cs :=
  fun _ _ h a => textBody_local hq hescape (h.append a).length_le h a

theorem textBody_nil (n : Nat) : textBody q escape n [] = none := by
  cases n <;> rfl

theorem quotedBody_eq {cs : List Char} {n : Nat} (h : cs.length ≤ n) :
    quotedBody q cs = textBody q (fun rest => some ('\\', rest)) n cs := by
  fun_induction quotedBody q cs generalizing n with
  | case1 => rw [textBody_nil]
  | _ =>
    obtain ⟨n, rfl⟩ : ∃ k, n = k + 1 := ⟨n - 1, by grind⟩
    grind [textBody, textBody_nil]

theorem backslashedBody_eq {cs : List Char} {n : Nat} (h : cs.length ≤ n) :
    backslashedBody cs =
      textBody '\''
        (fun rest => rest.head?.bind fun d => some (backslashed d, rest.tail)) n cs := by
  fun_induction backslashedBody cs generalizing n with
  | case1 => rw [textBody_nil]
  | _ =>
    obtain ⟨n, rfl⟩ : ∃ k, n = k + 1 := ⟨n - 1, by grind⟩
    grind [textBody, textBody_nil]

theorem escapedBody_eq (n : Nat) (cs : List Char) :
    escapedBody n cs =
      textBody '\'' (fun rest => rest.head?.bind fun d => escapeChar? d rest.tail) n cs := by
  induction n generalizing cs with
  | zero => rfl
  | succ n ih =>
    cases cs with
    | nil => rfl
    | cons c rest =>
      rw [escapedBody.eq_def, textBody]
      dsimp only
      cases rest <;> grind

end texts

/-! ## Characters by number -/

theorem head_local {α : Type} {f : Char → List Char → Option (α × List Char)}
    (hf : ∀ d, Local (f d)) : Local fun cs => cs.head?.bind fun d => f d cs.tail := by
  intro left left' h a
  cases a with
  | nil =>
    cases left with
    | nil => exact sameEnd_none
    | cons c rest => exact fun x r hr => Or.inl (Nat.lt_succ_of_le ((hf c).length_le hr))
  | cons y a => exact (hf y h a).mono (Nat.le_succ _)

theorem takeDigits_local (base k : Nat) :
    Local fun cs => some (takeDigits base k cs, cs.drop (takeDigits base k cs).length) := by
  have hblind : Blind hexDigit? := blind_of_isBlind (by decide)
  intro left left' h a
  induction a generalizing k with
  | nil =>
    cases k with
    | zero => exact sameEnd_some [] (a := []) (Nat.le_refl 0)
    | succ k =>
      rcases h.heads with ⟨rfl, rfl⟩ | ⟨c, rest, c', rest', rfl, rfl, hc⟩
      · exact sameEnd_some [] (a := []) (Nat.le_refl 0)
      · simp only [List.nil_append, takeDigits, hc hblind]
        split
        · exact sameEnd_short (by simp +arith)
        · exact sameEnd_some [] (a := []) (Nat.le_refl 0)
  | cons x a ih =>
    cases k with
    | zero => exact sameEnd_some [] (a := x :: a) (Nat.le_refl _)
    | succ k =>
      simp only [List.cons_append, takeDigits]
      split
      · exact ((ih k).mono (Nat.le_succ _)).map (g := fun r => (x :: r.1, r.2)) fun _ _ => rfl
      · exact sameEnd_some [] (a := x :: a) (Nat.le_refl _)

/-- A character by its number in a fixed number of digits. -/
def wideChar? (n : Nat) (rest : List Char) : Option (Char × List Char) :=
  if (rest.take n).length = n then
    ((signedHexValue? (rest.take n)).bind charOf?).bind fun d =>
      if d.toNat = 0 then none else some (d, rest.drop n)
  else none

theorem wideChar?_local (n : Nat) : Local (wideChar? n) := by
  intro left left' h a
  unfold wideChar?
  by_cases hle : n ≤ a.length
  · rw [List.take_append_of_le_length hle, List.take_append_of_le_length hle]
    refine .ite Iff.rfl (fun _ => ?_) fun _ => sameEnd_none
    cases (signedHexValue? (a.take n)).bind charOf? with
    | none => exact sameEnd_none
    | some d => exact .ite Iff.rfl (fun _ => sameEnd_none) fun _ => drop_local d n h a
  · -- the digits reach into what follows
    intro x r hr
    refine Or.inl ?_
    split at hr
    · obtain ⟨d, -, hr⟩ := Option.bind_eq_some_iff.mp hr
      split at hr
      · cases hr
      · cases hr
        grind
    · cases hr

/-- A character by its number in at most two digits of a base. -/
def digitsChar? (base : Nat) (value : List Char → Option Char) (rest : List Char) :
    Option (Char × List Char) :=
  (value (takeDigits base 2 rest)).map (·, rest.drop (takeDigits base 2 rest).length)

theorem digitsChar?_local (base : Nat) (value : List Char → Option Char) :
    Local (digitsChar? base value) := by
  intro left left' h a
  refine (takeDigits_local base 2 h a).chain (fun r => (value r.1).map (·, r.2))
    (fun ds r x s hs => ?_) fun ds after hle => ?_
  · obtain ⟨_, -, heq⟩ := Option.map_eq_some_iff.mp hs
    exact Nat.le_of_eq (congrArg List.length (Prod.mk.inj heq).2.symm)
  · dsimp only
    cases value ds with
    | none => exact sameEnd_none
    | some d => exact sameEnd_some d hle

/-- The character of an escape that is a single letter. -/
def letterEscape? (d : Char) : Option Char :=
  if d = 'b' then some (Char.ofNat 8)
  else if d = 'f' then some (Char.ofNat 12)
  else if d = 'n' then some '\n'
  else if d = 'r' then some '\r'
  else if d = 't' then some '\t'
  else if d.toNat = 0 then none
  else some d

theorem escapeChar?_eq (d : Char) (rest : List Char) :
    escapeChar? d rest =
      if d = 'u' then wideChar? 4 rest
      else if d = 'U' then wideChar? 8 rest
      else if d = 'x' then
        digitsChar? 16 (fun ds => if ds = [] then some 'x' else byteChar? (digitsValue 16 ds)) rest
      else if '0' ≤ d && d ≤ '7' then
        digitsChar? 8 (fun ds => byteChar? (digitsValue 8 (d :: ds))) rest
      else (letterEscape? d).map (·, rest) := by
  unfold escapeChar?
  dsimp only
  split
  · rfl
  · rfl
  · rfl
  · rfl
  · rfl
  · rfl
  · rfl
  · split
    · rename_i h
      simp [digitsChar?, h]
    · rename_i h
      simp [digitsChar?, if_neg h]
  · simp_all [digitsChar?, letterEscape?]
    refine ite_congr rfl (fun _ => rfl) fun _ => ?_
    split <;> rfl

theorem escapeChar?_local (d : Char) : Local (escapeChar? d) := by
  intro left left' h a
  rw [escapeChar?_eq, escapeChar?_eq]
  refine .ite Iff.rfl (fun _ => wideChar?_local 4 h a) fun _ =>
    .ite Iff.rfl (fun _ => wideChar?_local 8 h a) fun _ =>
    .ite Iff.rfl (fun _ => digitsChar?_local 16 _ h a) fun _ =>
    .ite Iff.rfl (fun _ => digitsChar?_local 8 _ h a) fun _ => ?_
  cases letterEscape? d with
  | none => exact sameEnd_none
  | some e => exact sameEnd_some e (Nat.le_refl _)

theorem numberedChar_length {value n : Nat} {cs r : List Char} {x : Char}
    (h : numberedChar value n cs = .ok (x, r)) : r.length + n = cs.length := by
  fun_induction numberedChar value n cs <;> simp_all +arith

theorem numberedChar_local (value n : Nat) :
    Local fun cs => (numberedChar value n cs).toOption := by
  intro left left' h a
  dsimp only
  induction n generalizing value a with
  | zero =>
    simp only [numberedChar]
    cases charOf? value with
    | none => exact sameEnd_none
    | some d => exact sameEnd_some d (Nat.le_refl _)
  | succ n ih =>
    cases a with
    | nil =>
      intro x r hr
      have hlength := numberedChar_length (eq_ok_of_toOption hr)
      exact Or.inl (by simp at hlength; omega)
    | cons x a =>
      simp only [List.cons_append, numberedChar]
      cases hexDigit? x with
      | none => exact sameEnd_none
      | some d => exact (ih (value * 16 + d) a).mono (Nat.le_succ _)

/-- The character behind a backslash in a text that gives characters by their numbers. -/
def unicodeChar (rest : List Char) : Option (Char × List Char) :=
  if rest.head? = some '\\' then some ('\\', rest.tail)
  else if rest.head? = some '+' then (numberedChar 0 6 rest.tail).toOption
  else (numberedChar 0 4 rest).toOption

theorem unicodeChar_local : Local unicodeChar := by
  intro left left' h a
  unfold unicodeChar
  cases a with
  | nil =>
    intro x r hr
    cases left with
    | nil => cases hr
    | cons y rest =>
      refine Or.inl (Nat.lt_succ_of_le ?_)
      rw [List.nil_append] at hr
      split at hr
      · cases hr
        exact Nat.le_refl _
      · split at hr <;> have hlength := numberedChar_length (eq_ok_of_toOption hr) <;>
          simp at hlength <;> omega
  | cons y a =>
    have hle : a.length ≤ (y :: a).length := Nat.le_succ _
    exact .ite Iff.rfl (fun _ => sameEnd_some _ hle) fun _ =>
      .ite Iff.rfl (fun _ => (numberedChar_local 0 6 h a).mono hle) fun _ =>
      numberedChar_local 0 4 h (y :: a)

theorem unicodeBody_eq (n : Nat) (cs : List Char) :
    (unicodeBody n cs).toOption = textBody '\'' unicodeChar n cs := by
  have hmap : ∀ (d : Char) (found : Except FaultBefore (List Char × List Char)),
      (found.bind fun r => .ok (d :: r.1, r.2)).toOption =
        found.toOption.map fun r => (d :: r.1, r.2) := by
    intro d found
    cases found <;> rfl
  induction n generalizing cs with
  | zero => rfl
  | succ n ih =>
    cases cs with
    | nil => rfl
    | cons x rest =>
      have hchain : ∀ found : Except FaultBefore (Char × List Char),
          (found.bind fun e =>
            (unicodeBody n e.2).bind fun r => .ok (e.1 :: r.1, r.2)).toOption =
            found.toOption.bind fun e =>
              (textBody '\'' unicodeChar n e.2).map fun r => (e.1 :: r.1, r.2) := by
        intro found
        cases found with
        | error e => rfl
        | ok e => exact (hmap e.1 _).trans (by rw [ih]; rfl)
      rw [unicodeBody.eq_def, textBody]
      dsimp only
      by_cases hx : x = '\''
      · rw [if_pos hx, if_pos hx]
        split
        · exact (hmap '\'' _).trans (by rw [ih]; rfl)
        · rename_i hne
          rw [if_neg fun hhead => (List.head?_eq_some_iff.mp hhead).elim fun _ h => hne _ h]
          rfl
      · rw [if_neg hx, if_neg hx]
        by_cases hb : x = '\\'
        · rw [if_pos hb, if_pos hb]
          unfold unicodeChar
          split
          · exact hchain (.ok _)
          · exact hchain _
          · rename_i hback hplus
            rw [if_neg fun hhead => (List.head?_eq_some_iff.mp hhead).elim fun _ h => hback _ h,
              if_neg fun hhead => (List.head?_eq_some_iff.mp hhead).elim fun _ h => hplus _ h]
            exact hchain _
        · rw [if_neg hb, if_neg hb, ← ih]
          exact hmap x _

/-! ## Text between dollar signs -/

/-- A tag as far as it is there, whether it is there as a whole, and what follows. -/
def tagRead (tag cs : List Char) : Option ((List Char × Bool) × List Char) :=
  some (((alongTag tag cs).1, (alongTag tag cs).2.2), (alongTag tag cs).2.1)

theorem tagRead_local (tag : List Char) : Local (tagRead tag) := by
  induction tag with
  | nil => exact fun _ _ _ _ => sameEnd_some _ (Nat.le_refl _)
  | cons t tag ih =>
    intro left left' h a
    cases a with
    | nil =>
      rcases h.heads with ⟨rfl, rfl⟩ | ⟨c, rest, c', rest', rfl, rfl, -⟩
      · exact sameEnd_some _ (a := []) (Nat.le_refl 0)
      · refine sameEnd_short (Nat.lt_succ_of_le ?_)
        rw [List.nil_append, alongTag]
        split
        · exact ih.length_le (x := ((alongTag tag rest).1, (alongTag tag rest).2.2)) rfl
        · exact Nat.le_refl _
    | cons x a =>
      have hle : a.length ≤ (x :: a).length := Nat.le_succ _
      simp only [tagRead, List.cons_append, alongTag]
      split
      · exact ((ih h a).mono hle).map (f := fun e => (x :: e.1, e.2))
          (g := fun r => ((x :: r.1.1, r.1.2), r.2)) fun _ _ => rfl
      · exact sameEnd_some _ hle

theorem taggedBody_cons (tag : List Char) (n : Nat) (x : Char) (rest : List Char) :
    taggedBody tag (n + 1) (x :: rest) =
      if x = '$' then
        (tagRead tag rest).bind fun e =>
          if e.1.2 = true ∧ e.2.head? = some '$' then some ([], e.2.tail)
          else (taggedBody tag n e.2).map fun r => (x :: e.1.1 ++ r.1, r.2)
      else (taggedBody tag n rest).map fun r => (x :: r.1, r.2) := by
  rw [taggedBody, tagRead]
  obtain ⟨read, after, whole⟩ := alongTag tag rest
  refine ite_congr rfl (fun _ => ?_) fun _ => rfl
  split
  · rename_i heq
    cases heq
    rfl
  · rename_i hopen heq
    cases heq
    refine (if_neg ?_).symm
    rintro ⟨hwhole, hhead⟩
    obtain ⟨tail, htail⟩ := List.head?_eq_some_iff.mp hhead
    exact hopen tail htail hwhole

theorem taggedBody_lt {tag : List Char} {n : Nat} {cs body r : List Char}
    (h : taggedBody tag n cs = some (body, r)) : r.length < cs.length := by
  induction n generalizing cs body r with
  | zero => cases h
  | succ n ih =>
    cases cs with
    | nil => cases h
    | cons c rest =>
      rw [taggedBody_cons] at h
      refine Nat.lt_succ_of_le ?_
      split at h
      · obtain ⟨e, he, h⟩ := Option.bind_eq_some_iff.mp h
        have hle := (tagRead_local tag).length_le he
        split at h
        · cases h
          exact Nat.le_trans (by simp) hle
        · obtain ⟨_, hbody⟩ := exists_of_map (fun _ _ => rfl) h
          exact Nat.le_of_lt (Nat.lt_of_lt_of_le (ih hbody) hle)
      · obtain ⟨_, hbody⟩ := exists_of_map (fun _ _ => rfl) h
        exact Nat.le_of_lt (ih hbody)

theorem taggedBody_local (tag : List Char) {n m : Nat} (hnm : n ≤ m) :
    EndAlike (taggedBody tag n) (taggedBody tag m) := by
  induction n generalizing m with
  | zero => exact fun _ _ _ _ => sameEnd_none
  | succ n ih =>
    obtain ⟨m, rfl⟩ : ∃ k, m = k + 1 := ⟨m - 1, by omega⟩
    have ih := ih (Nat.le_of_succ_le_succ hnm)
    intro left left' h a
    cases a with
    | nil => exact fun body r hr => Or.inl (taggedBody_lt hr)
    | cons x a =>
      have hle : a.length ≤ (x :: a).length := Nat.le_succ _
      rw [List.cons_append, List.cons_append, taggedBody_cons, taggedBody_cons]
      refine .ite Iff.rfl (fun _ => ?_) fun _ => ((ih h a).mono hle).map fun _ _ => rfl
      refine ((tagRead_local tag h a).mono hle).bind (fun e r body s hs => ?_)
        fun e after _ hafter => ?_
      · dsimp only at hs
        split at hs
        · cases hs
          simp
        · obtain ⟨_, hbody⟩ := exists_of_map (fun _ _ => rfl) hs
          exact Nat.le_of_lt (taggedBody_lt hbody)
      · cases after with
        | nil =>
          refine .ite (and_congr_right fun _ => h.starts blind_dollar) (fun hclosed => ?_) fun _ =>
            ((ih h []).mono hafter).map fun _ _ => rfl
          obtain ⟨tail, rfl⟩ := List.head?_eq_some_iff.mp hclosed.2
          exact sameEnd_short (Nat.lt_succ_self _)
        | cons y after =>
          exact .ite Iff.rfl (fun _ => sameEnd_some [] (Nat.le_of_succ_le hafter)) fun _ =>
            ((ih h (y :: after)).mono hafter).map fun _ _ => rfl

/-- A character that may stand in a tag. -/
def inTag (c : Char) : Bool :=
  Text.isAlphabetic c || Text.isNumeric c || c = '_'

theorem dollarToken_eq (rest : List Char) :
    (dollarToken rest).toOption =
      (run inTag rest).bind fun e =>
        if e.2.head? = some '$' then
          (taggedBody e.1 e.2.tail.length e.2.tail).map fun r =>
            (.marked (.dollar (String.ofList e.1)) (String.ofList r.1), r.2)
        else some (.placeholder (String.ofList ('$' :: e.1)), e.2) := by
  unfold dollarToken
  change _ = if (rest.dropWhile inTag).head? = some '$' then _ else _
  dsimp only
  split
  · rename_i body hbody
    have hbody : rest.dropWhile inTag = '$' :: body := hbody
    rw [hbody, List.head?_cons, if_pos rfl, List.tail_cons]
    split <;> rename_i hfound <;>
      · have hfound : taggedBody (rest.takeWhile inTag) body.length body = _ := hfound
        rw [hfound]
        rfl
  · rename_i hnone
    refine (if_neg fun hhead => ?_).symm
    obtain ⟨body, hbody⟩ := List.head?_eq_some_iff.mp hhead
    exact hnone body hbody

theorem dollarToken_local : Local fun rest => (dollarToken rest).toOption := by
  have hblind : Blind inTag := blind_of_isBlind (by decide)
  intro left left' h a
  dsimp only
  rw [dollarToken_eq, dollarToken_eq]
  refine (run_local hblind h a).bind (fun tag r t s hs => ?_) fun tag after _ hle => ?_
  · dsimp only at hs
    split at hs
    · obtain ⟨_, hbody⟩ := exists_of_map (fun _ _ => rfl) hs
      have hlt := taggedBody_lt hbody
      rw [List.length_tail] at hlt
      omega
    · cases hs
      exact Nat.le_refl _
  · cases after with
    | nil =>
      refine .ite (h.starts blind_dollar) (fun _ t r hr => ?_) fun _ => sameEnd_some _ (a := []) hle
      obtain ⟨_, hbody⟩ := exists_of_map (fun _ _ => rfl) hr
      have hlt := taggedBody_lt hbody
      dsimp only at hlt
      rw [List.nil_append, List.length_tail] at hlt
      exact Or.inl (by omega)
    | cons y after =>
      refine .ite Iff.rfl (fun _ => ?_) fun _ => sameEnd_some _ (a := y :: after) hle
      have hlength : (after ++ left).length ≤ (after ++ left').length := (h.append after).length_le
      exact ((taggedBody_local tag hlength h after).mono (Nat.le_of_succ_le hle)).map
        (f := fun body => .marked (.dollar (String.ofList tag)) (String.ofList body)) fun _ _ => rfl

end ColumnLineage.Token
