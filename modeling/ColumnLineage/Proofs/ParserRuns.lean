import ColumnLineage.Parser.Statement

/-!
# Runs of parsers

A parser succeeds exactly if each of its steps does. From this follow the laws of repetition: what
one step keeps is kept by all of them, and lists with commas are read item by item.
-/

namespace ColumnLineage.Parser

variable {α β : Type}

/-! ## Single steps -/

variable {p : Parser α} {tokens rest : List Token}

theorem bind_eq_ok {f : α → Parser β} {b : β} :
    (p >>= f) tokens = .ok b rest ↔ ∃ a mid, p tokens = .ok a mid ∧ f a mid = .ok b rest := by
  change EStateM.bind p f tokens = .ok b rest ↔ _
  unfold EStateM.bind
  cases p tokens with
  | ok a mid =>
    constructor
    · exact fun h => ⟨a, mid, rfl, h⟩
    · rintro ⟨_, _, h, h'⟩
      cases h
      exact h'
  | error e mid => simp

theorem bind_of_ok {f : α → Parser β} {mid : List Token} {a : α} (h : p tokens = .ok a mid) :
    (p >>= f) tokens = f a mid := by
  change EStateM.bind p f tokens = _
  unfold EStateM.bind
  rw [h]

theorem pure_eq_ok {a b : α} : (pure a : Parser α) tokens = .ok b rest ↔ b = a ∧ rest = tokens := by
  change EStateM.Result.ok a tokens = .ok b rest ↔ _
  rw [EStateM.Result.ok.injEq, eq_comm, @eq_comm _ tokens]

theorem symbol?_of_symbol (s : String) (rest : List Token) :
    symbol? s (.symbol s :: rest) = .ok true rest := by
  change (if Token.isSymbol (.symbol s) s then _ else _ : Parser Bool) _ = _
  rw [if_pos (by simp [Token.isSymbol])]
  rfl

theorem symbol?_of_not {s : String} (h : ∀ t ∈ tokens.head?, t.isSymbol s = false) :
    symbol? s tokens = .ok false tokens := by
  cases tokens with
  | nil => rfl
  | cons t rest =>
    change (if t.isSymbol s then _ else _ : Parser Bool) _ = _
    rw [if_neg (by simp [h t rfl])]
    rfl

/-! ## Repetition -/

theorem iterate_keeps {step : α → Parser (Option α)} {P : α → Prop}
    (hstep : ∀ {a b tokens rest}, P a → step a tokens = .ok (some b) rest → P b) {n : Nat} {a b : α}
    (ha : P a) (h : iterate step n a tokens = .ok b rest) : P b := by
  induction n generalizing a tokens with
  | zero =>
    obtain ⟨rfl, -⟩ := pure_eq_ok.mp h
    exact ha
  | succ n ih =>
    obtain ⟨found, mid, hfound, h⟩ := bind_eq_ok.mp h
    cases found with
    | none =>
      obtain ⟨rfl, -⟩ := pure_eq_ok.mp h
      exact ha
    | some c => exact ih (hstep ha hfound) h

def commaStep (p : Parser α) (read : List α) : Parser (Option (List α)) := do
  if ← symbol? "," then return some ((← p) :: read) else return none

theorem commaList_eq (p : Parser α) :
    commaList p = do
      let first ← p
      let more ← loop (commaStep p) []
      return first :: more.reverse :=
  rfl

theorem commaStep_none {tail : List Token} (htail : ∀ t ∈ tail.head?, t.isSymbol "," = false)
    (read : List α) : commaStep p read tail = .ok none tail :=
  bind_of_ok (symbol?_of_not htail)

theorem commaStep_some {a : α} (h : p tokens = .ok a rest) (read : List α) :
    commaStep p read (.symbol "," :: tokens) = .ok (some (a :: read)) rest :=
  (bind_of_ok (symbol?_of_symbol "," tokens)).trans
    (bind_of_ok (f := fun a => pure (some (a :: read))) h)

def behindCommas (items : List (List Token × α)) : List Token :=
  items.flatMap fun e => .symbol "," :: e.1

/-- Whether an item may end before the given tokens: before a comma or before `tail`. -/
def EndsItem (tail rest : List Token) : Prop :=
  rest = tail ∨ rest.head? = some (.symbol ",")

theorem endsItem_behindCommas (items : List (List Token × α)) (tail : List Token) :
    EndsItem tail (behindCommas items ++ tail) := by
  cases items with
  | nil => exact Or.inl rfl
  | cons e items => exact Or.inr rfl

theorem length_le_behindCommas (items : List (List Token × α)) :
    items.length ≤ (behindCommas items).length := by
  induction items with
  | nil => exact Nat.le_refl 0
  | cons e items ih =>
    unfold behindCommas at ih ⊢
    rw [List.flatMap_cons, List.length_append, List.length_cons, List.length_cons]
    omega

/-- Items behind commas, each read up to what follows it, are read one after another. -/
theorem iterate_commaStep {tail : List Token} (htail : ∀ t ∈ tail.head?, t.isSymbol "," = false)
    {items : List (List Token × α)}
    (h : ∀ e ∈ items, ∀ rest, EndsItem tail rest → p (e.1 ++ rest) = .ok e.2 rest) {n : Nat}
    (hn : items.length ≤ n) (read : List α) :
    iterate (commaStep p) n read (behindCommas items ++ tail) =
      .ok ((items.map Prod.snd).reverse ++ read) tail := by
  induction items generalizing n read with
  | nil =>
    cases n with
    | zero => rfl
    | succ n => exact bind_of_ok (commaStep_none htail read)
  | cons e items ih =>
    obtain ⟨n, rfl⟩ : ∃ m, n = m + 1 := ⟨n - 1, by simp at hn; omega⟩
    have hstep := commaStep_some (h e List.mem_cons_self _ (endsItem_behindCommas items tail)) read
    have hmore := ih (fun e' he' => h e' (List.mem_cons_of_mem e he')) (Nat.le_of_succ_le_succ hn)
      (e.2 :: read)
    have htokens : behindCommas (e :: items) ++ tail =
        .symbol "," :: (e.1 ++ (behindCommas items ++ tail)) := by
      simp [behindCommas]
    rw [htokens, List.map_cons, List.reverse_cons, List.append_assoc]
    exact (bind_of_ok hstep).trans hmore

/-- Items that are each read up to a comma, or up to what follows the last one, are read as a
list. -/
theorem commaList_eq_ok {tail : List Token} (htail : ∀ t ∈ tail.head?, t.isSymbol "," = false)
    {first : List Token × α} {items : List (List Token × α)}
    (h : ∀ e ∈ first :: items, ∀ rest, EndsItem tail rest → p (e.1 ++ rest) = .ok e.2 rest) :
    commaList p (first.1 ++ (behindCommas items ++ tail)) =
      .ok ((first :: items).map Prod.snd) tail := by
  have hfirst := h first List.mem_cons_self _ (endsItem_behindCommas items tail)
  have hlength : items.length ≤ (behindCommas items ++ tail).length := by
    have hle := length_le_behindCommas items
    rw [List.length_append]
    omega
  have hmore := iterate_commaStep htail (fun e he => h e (List.mem_cons_of_mem first he)) hlength []
  rw [commaList_eq]
  refine (bind_of_ok hfirst).trans ((bind_of_ok (p := loop (commaStep p) []) hmore).trans ?_)
  rw [List.append_nil, List.reverse_reverse]
  rfl

/-! ## Statements -/

theorem semicolons_of_not {t : Token} (ht : t.isSymbol ";" = false) :
    semicolons (t :: tokens) = .ok false (t :: tokens) := by
  have hnone : symbol? ";" (t :: tokens) = .ok false (t :: tokens) :=
    symbol?_of_not fun u hu => by cases hu; exact ht
  have hstep : (do if ← symbol? ";" then return some true else return none : Parser (Option Bool))
      (t :: tokens) = .ok none (t :: tokens) := bind_of_ok hnone
  exact (bind_of_ok (p := get) rfl).trans (bind_of_ok hstep)

theorem nextStatement_ne_nil {p : Parser Statement} {a b : List Statement × Bool}
    (h : nextStatement p a tokens = .ok (some b) rest) : b.1 ≠ [] := by
  obtain ⟨separated, mid, -, h⟩ := bind_eq_ok.mp h
  obtain ⟨found, mid', -, h⟩ := bind_eq_ok.mp h
  cases found with
  | none => exact absurd (pure_eq_ok.mp h).1 (by simp)
  | some u =>
    dsimp only at h
    split at h
    · exact absurd (pure_eq_ok.mp h).1 (by simp)
    · split at h
      · obtain ⟨_, _, _, h⟩ := bind_eq_ok.mp h
        cases h
      · obtain ⟨s, _, -, h⟩ := bind_eq_ok.mp h
        obtain ⟨hb, -⟩ := pure_eq_ok.mp h
        cases hb
        exact List.cons_ne_nil s _

/-- The first step does not end the loop, unless at a semicolon. -/
theorem nextStatement_first {p : Parser Statement} {t : Token}
    {next : Option (List Statement × Bool)} (ht : t.isSymbol ";" = false)
    (h : nextStatement p ([], false) (t :: tokens) = .ok next rest) : ∃ b, next = some b := by
  obtain ⟨separated, _, hseparated, h⟩ := bind_eq_ok.mp h
  rw [semicolons_of_not ht] at hseparated
  cases hseparated
  obtain ⟨found, _, hfound, h⟩ := bind_eq_ok.mp h
  cases hfound.symm.trans (rfl : peek (t :: tokens) = .ok (some t) (t :: tokens))
  obtain ⟨s, _, -, h⟩ := bind_eq_ok.mp h
  exact ⟨([s], true), (pure_eq_ok.mp h).1⟩

/-- Tokens that do not start with a semicolon hold a statement, if they can be read at all. -/
theorem statementsOf_ne_nil {p : Parser Statement} {t : Token} {read : List Statement}
    (ht : t.isSymbol ";" = false) (h : statementsOf p (t :: tokens) = .ok read rest) :
    read ≠ [] := by
  obtain ⟨⟨found, openEnd⟩, mid, hloop, h⟩ := bind_eq_ok.mp h
  obtain ⟨rfl, -⟩ := pure_eq_ok.mp h
  change iterate (nextStatement p) (tokens.length + 1) ([], false) (t :: tokens) = _ at hloop
  obtain ⟨next, mid', hfirst, hloop⟩ := bind_eq_ok.mp hloop
  obtain ⟨b, rfl⟩ := nextStatement_first ht hfirst
  have hfound := iterate_keeps (P := fun a : List Statement × Bool => a.1 ≠ [])
    (fun _ hstep => nextStatement_ne_nil hstep) (nextStatement_ne_nil hfirst) hloop
  simpa using hfound

/-- Tokens whose first one, blanks apart, is no semicolon hold a statement, if they can be read at
all. -/
theorem parseStatements_ne_nil {t : Token} {read : List Statement}
    (ht : tokens.find? (fun t => !t.isBlank) = some t) (hsemicolon : t.isSymbol ";" = false)
    (h : parseStatements tokens = .ok read) : read ≠ [] := by
  have hhead : (tokens.filter fun t => !t.isBlank).head? = some t := by
    rw [List.head?_filter, ht]
  obtain ⟨rest, hrest⟩ := List.head?_eq_some_iff.mp hhead
  unfold parseStatements at h
  rw [hrest] at h
  split at h
  · rename_i read' rest' hread
    cases h
    exact statementsOf_ne_nil hsemicolon hread
  · cases h

end ColumnLineage.Parser
