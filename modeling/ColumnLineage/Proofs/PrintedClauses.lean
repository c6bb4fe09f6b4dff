import ColumnLineage.Proofs.PrintedScripts
import ColumnLineage.Proofs.StatementGroups

/-!
# Reading printed clauses

A printed script falls into the groups of its statements, since nothing in a group ends it, and
what stands behind the word that opens a clause is read as the clause again. Both rest on what the
pieces of the script hold outside parentheses.
-/

namespace ColumnLineage.Script

open ColumnLineage.Parser (EndsItem behindCommas)

/-! ## Small letters -/

/-- A token, in small letters if `folding` is set. -/
def foldIf (folding : Bool) (t : Token) : Token :=
  if folding then t.fold else t

@[simp] theorem foldIf_symbol (folding : Bool) (s : String) :
    foldIf folding (.symbol s) = .symbol s := by
  cases folding <;> rfl

@[simp] theorem foldIf_blank (folding : Bool) : foldIf folding .blank = .blank := by
  cases folding <;> rfl

@[simp] theorem isBlank_foldIf (folding : Bool) (t : Token) :
    (foldIf folding t).isBlank = t.isBlank := by
  cases folding with
  | false => rfl
  | true => exact Token.isBlank_fold t

theorem map_foldIf (folding : Bool) (tokens : List Token) :
    (if folding then tokens.map Token.fold else tokens) = tokens.map (foldIf folding) := by
  cases folding with
  | false => exact (List.map_id tokens).symm
  | true => rfl

def printed (folding : Bool) (text : String) : List Token :=
  (Token.before text).map (foldIf folding)

def solid (tokens : List Token) : List Token :=
  tokens.filter fun t => !t.isBlank

/-! ## What stands outside parentheses -/

/-- Parentheses are balanced, and what stands outside them has the property. -/
def Level (P : Token → Prop) (tokens : List Token) : Prop :=
  depthBehind 0 tokens = 0 ∧ ∀ t ∈ outside 0 tokens, P t

/-- A token that neither opens nor closes a parenthesis. -/
def Flat (t : Token) : Prop :=
  ∀ depth, depthAfter depth t = depth

variable {P : Token → Prop}

theorem level_nil : Level P [] :=
  ⟨rfl, fun _ h => absurd h List.not_mem_nil⟩

theorem Level.append {a b : List Token} (ha : Level P a) (hb : Level P b) : Level P (a ++ b) := by
  refine ⟨by rw [depthBehind_append, ha.1, hb.1], fun t ht => ?_⟩
  rw [outside_append, ha.1] at ht
  exact (List.mem_append.mp ht).elim (ha.2 t) (hb.2 t)

theorem Level.cons {t : Token} {a : List Token} (hflat : Flat t) (ht : P t) (ha : Level P a) :
    Level P (t :: a) := by
  refine ⟨by rw [depthBehind_cons, hflat, ha.1], fun u hu => ?_⟩
  rcases mem_outside_cons.mp hu with ⟨-, rfl⟩ | hu
  · exact ht
  · rw [hflat] at hu
    exact ha.2 u hu

variable {tokens : List Token}

theorem depthBehind_flat (h : ∀ t ∈ tokens, Flat t) (depth : Nat) :
    depthBehind depth tokens = depth := by
  induction tokens with
  | nil => rfl
  | cons t tokens ih =>
    rw [depthBehind_cons, h t List.mem_cons_self]
    exact ih fun u hu => h u (List.mem_cons_of_mem t hu)

theorem outside_flat (h : ∀ t ∈ tokens, Flat t) (depth : Nat) :
    outside (depth + 1) tokens = [] := by
  induction tokens with
  | nil => rfl
  | cons t tokens ih =>
    rw [outside, if_neg (Nat.succ_ne_zero depth), h t List.mem_cons_self]
    exact ih fun u hu => h u (List.mem_cons_of_mem t hu)

theorem level_parens (h : ∀ t ∈ tokens, Flat t) (hopen : P (.symbol "(")) :
    Level P (.symbol "(" :: (tokens ++ [.symbol ")"])) := by
  have hdepth : depthAfter 0 (.symbol "(") = 1 := by decide
  have hclose : depthAfter 1 (.symbol ")") = 0 := by decide
  refine ⟨?_, fun t ht => ?_⟩
  · rw [depthBehind_cons, hdepth, depthBehind_append, depthBehind_flat h, depthBehind_cons, hclose]
    rfl
  · rcases mem_outside_cons.mp ht with ⟨-, rfl⟩ | ht
    · exact hopen
    · rw [hdepth, outside_append, outside_flat h, depthBehind_flat h] at ht
      simp [outside] at ht

theorem flat_comma : Flat (.symbol ",") := fun _ => rfl

theorem flat_blank : Flat .blank := fun _ => rfl

theorem level_listed {items : List (List Token)} (h : ∀ item ∈ items, Level P item)
    (hcomma : P (.symbol ",")) (hblank : P .blank) : Level P (listed items) := by
  fun_induction listed items with
  | case1 => exact level_nil
  | case2 item => exact h item List.mem_cons_self
  | case3 item more _ ih =>
    refine (h item List.mem_cons_self).append (.cons flat_comma hcomma (.cons flat_blank hblank ?_))
    exact ih fun item' hitem' => h item' (List.mem_cons_of_mem item hitem')

/-! ## Groups -/

/-- A group that a semicolon ends, and that says something. -/
structure Separate (group : List Token) : Prop where
  level : Level (fun t => t.isSymbol ";" = false) group
  notBlank : group.all Token.isBlank = false

theorem Separate.cons_blank {group : List Token} (h : Separate group) :
    Separate (.blank :: group) :=
  ⟨.cons flat_blank (by decide) h.level, h.notBlank⟩

theorem groups_append {group : List Token} (h : Separate group) (rest : List Token) :
    groups (group ++ .symbol ";" :: rest) = group :: groups rest := by
  have hcut := (Pieces.next h.level.2 h.level.1 (pieces_cut 0 rest)).cut_eq
  unfold groups
  rw [hcut, List.filter_cons_of_pos (by rw [h.notBlank]; rfl)]

/-- The group of a printed statement. -/
def groupOf (folding : Bool) (s : ScriptStatement) : List Token :=
  (statementTokens s).map (foldIf folding)

/-- The groups of a printed script; a line break stands before each but the first. -/
def groupsOf (folding : Bool) : List ScriptStatement → List (List Token)
  | [] => []
  | s :: more => groupOf folding s :: more.map fun s => .blank :: groupOf folding s

variable {folding : Bool}

theorem groups_scriptTokens {statements : List ScriptStatement}
    (h : ∀ s ∈ statements, Separate (groupOf folding s)) :
    groups ((scriptTokens statements).map (foldIf folding)) = groupsOf folding statements := by
  have hmore : ∀ more : List ScriptStatement, (∀ s ∈ more, Separate (groupOf folding s)) →
      groups ((more.flatMap fun s => .blank :: (statementTokens s ++ [.symbol ";"])).map
        (foldIf folding)) = more.map fun s => .blank :: groupOf folding s := by
    intro more
    induction more with
    | nil => exact fun _ => rfl
    | cons s more ih =>
      intro hseparate
      have hrest := ih fun s' hs' => hseparate s' (List.mem_cons_of_mem s hs')
      have hfirst := groups_append (hseparate s List.mem_cons_self).cons_blank
        ((more.flatMap fun s => .blank :: (statementTokens s ++ [.symbol ";"])).map (foldIf folding))
      rw [hrest] at hfirst
      simpa [groupOf] using hfirst
  cases statements with
  | nil => rfl
  | cons s more =>
    have hfirst := groups_append (h s List.mem_cons_self)
      ((more.flatMap fun s => .blank :: (statementTokens s ++ [.symbol ";"])).map (foldIf folding))
    rw [hmore more fun s' hs' => h s' (List.mem_cons_of_mem s hs')] at hfirst
    simpa [groupOf, groupsOf, scriptTokens] using hfirst

/-! ## Reading a clause back -/

theorem eq_singleton_of_ident {c : Ident} (h : Parser.ident tokens = .ok c []) :
    ∃ t, tokens = [t] ∧ Flat t ∧ ∀ rest, Parser.ident (t :: rest) = .ok c rest := by
  cases tokens with
  | nil => cases h
  | cons t rest =>
    cases t with
    | word w =>
      cases h
      exact ⟨.word w, rfl, fun _ => rfl, fun _ => rfl⟩
    | text s =>
      cases h
      exact ⟨.text s, rfl, fun _ => rfl, fun _ => rfl⟩
    | _ => cases h

@[simp] theorem solid_nil : solid [] = [] := rfl

@[simp] theorem solid_blank (tokens : List Token) : solid (.blank :: tokens) = solid tokens := rfl

@[simp] theorem solid_symbol (s : String) (tokens : List Token) :
    solid (.symbol s :: tokens) = .symbol s :: solid tokens := rfl

theorem solid_of_not_blank {t : Token} (h : t.isBlank = false) (tokens : List Token) :
    solid (t :: tokens) = t :: solid tokens :=
  List.filter_cons_of_pos (by rw [h]; rfl)

theorem isBlank_clauseWord (folding : Bool) (s : String) :
    (foldIf folding (clauseWord s)).isBlank = false :=
  isBlank_foldIf folding (clauseWord s)

theorem solid_append (a b : List Token) : solid (a ++ b) = solid a ++ solid b :=
  List.filter_append ..

def withTokens {α : Type} (f : α → List Token) (items : List α) : List (List Token × α) :=
  items.map fun a => (solid (f a), a)

theorem solid_listed {α : Type} (f : α → List Token) (a : α) (more : List α) :
    solid (listed ((a :: more).map f)) = solid (f a) ++ behindCommas (withTokens f more) := by
  induction more generalizing a with
  | nil => simp [listed, withTokens, behindCommas]
  | cons b more ih =>
    have hunfold : listed ((a :: b :: more).map f) =
        f a ++ .symbol "," :: .blank :: listed ((b :: more).map f) := rfl
    have hcomma : ∀ tokens, solid (.symbol "," :: .blank :: tokens) = .symbol "," :: solid tokens :=
      fun _ => rfl
    rw [hunfold, solid_append, hcomma, ih b]
    simp [withTokens, behindCommas]

/-- Items that are each read up to a comma, or up to what follows the last one, are read back from
the printed list. -/
theorem commaList_listed {α : Type} {p : Parser α} {f : α → List Token} {items : List α}
    {tail : List Token} (hne : items ≠ []) (htail : ∀ t ∈ tail.head?, t.isSymbol "," = false)
    (h : ∀ a ∈ items, ∀ rest, EndsItem tail rest → p (solid (f a) ++ rest) = .ok a rest) :
    Parser.commaList p (solid (listed (items.map f)) ++ tail) = .ok items tail := by
  cases items with
  | nil => exact absurd rfl hne
  | cons a more =>
    have hitem : ∀ e ∈ withTokens f (a :: more), ∀ rest, EndsItem tail rest →
        p (e.1 ++ rest) = .ok e.2 rest := by
      intro e he rest hrest
      obtain ⟨b, hb, rfl⟩ := List.mem_map.mp he
      exact h b hb rest hrest
    have hread := Parser.commaList_eq_ok htail hitem
    have hback : (withTokens f (a :: more)).map Prod.snd = a :: more := by
      simp [withTokens, Function.comp_def]
    rw [solid_listed, List.append_assoc]
    exact hread.trans (congrArg (EStateM.Result.ok · tail) hback)

theorem columnNames_listed {f : Ident → List Token} {columns : List Ident} (hne : columns ≠ [])
    (h : ∀ c ∈ columns, Parser.ident (solid (f c)) = .ok c []) (rest : List Token) :
    Parser.columnNames (.symbol "(" :: (solid (listed (columns.map f)) ++ .symbol ")" :: rest)) =
      .ok columns rest := by
  have hcomma : ∀ t ∈ (Token.symbol ")" :: rest).head?, t.isSymbol "," = false := by
    intro t ht
    cases ht
    decide
  have hident : ∀ c ∈ columns, ∀ rest', EndsItem (.symbol ")" :: rest) rest' →
      Parser.ident (solid (f c) ++ rest') = .ok c rest' := by
    intro c hc rest' _
    obtain ⟨t, ht, -, hread⟩ := eq_singleton_of_ident (h c hc)
    rw [ht]
    exact hread rest'
  have hlist := commaList_listed hne hcomma hident
  have hopen : Parser.symbol "(" (.symbol "(" :: (solid (listed (columns.map f)) ++ .symbol ")" :: rest)) =
      .ok () (solid (listed (columns.map f)) ++ .symbol ")" :: rest) :=
    Parser.bind_of_ok (Parser.symbol?_of_symbol "(" _)
  have hclose : Parser.symbol ")" (.symbol ")" :: rest) = .ok () rest :=
    Parser.bind_of_ok (Parser.symbol?_of_symbol ")" rest)
  refine (Parser.bind_of_ok (p := Parser.atSymbol "(") (a := true) rfl).trans ?_
  refine (Parser.bind_of_ok hopen).trans ((Parser.bind_of_ok hlist).trans ?_)
  exact Parser.bind_of_ok hclose

theorem map_listed (folding : Bool) (items : List (List Token)) :
    (listed items).map (foldIf folding) = listed (items.map (List.map (foldIf folding))) := by
  fun_induction listed items with
  | case1 => rfl
  | case2 item => rfl
  | case3 item more hmore ih =>
    cases more with
    | nil => exact absurd rfl (hmore)
    | cons next more => simp [ih, listed]

theorem map_listed_columns (folding : Bool) (columns : List Ident) :
    (listed ((columns.map Ident.text).map Token.before)).map (foldIf folding) =
      listed (columns.map fun c => printed folding c.text) := by
  rw [map_listed, List.map_map, List.map_map]
  rfl

theorem map_listed_items (folding : Bool) (items : List OrderItem) :
    (listed ((OrderItem.texts items).map Token.before)).map (foldIf folding) =
      listed (items.map fun i => printed folding i.text) := by
  rw [map_listed, texts_eq_map, List.map_map, List.map_map]
  rfl

theorem clauseWords (folding : Bool) :
    OpensClause (foldIf folding (clauseWord "DISTRIBUTED")) ∧
    Distribution.isWord "RANDOMLY" (foldIf folding (clauseWord "RANDOMLY")) = true ∧
    (foldIf folding (clauseWord "RANDOMLY")).isKeyword "BY" = false ∧
    (foldIf folding (clauseWord "BY")).isKeyword "BY" = true ∧
    (foldIf folding (clauseWord "ORDER")).isKeyword "ORDER" = true := by
  unfold OpensClause
  cases folding <;> decide

theorem policy_printed {columns : Option (List Ident)} (hne : ∀ cs ∈ columns, cs ≠ [])
    (h : ∀ cs ∈ columns, ∀ c ∈ cs, Parser.ident (solid (printed folding c.text)) = .ok c [])
    (rest : List Token) :
    Distribution.policy (solid ((policyTokens columns).tail.map (foldIf folding)) ++ rest) =
      .ok (columns, rest) := by
  obtain ⟨-, hrandomly, hnotBy, hby, -⟩ := clauseWords folding
  cases columns with
  | none =>
    have hsolid : solid ((policyTokens none).tail.map (foldIf folding)) =
        [foldIf folding (clauseWord "RANDOMLY")] := by
      cases folding <;> decide
    rw [hsolid, List.singleton_append, Distribution.policy, if_neg (by rw [hnotBy]; decide),
      if_pos hrandomly]
  | some columns =>
    have hread := columnNames_listed (hne columns rfl) (h columns rfl) rest
    have hsolid : solid ((policyTokens (some columns)).tail.map (foldIf folding)) ++ rest =
        foldIf folding (clauseWord "BY") :: .symbol "(" ::
          (solid (listed (columns.map fun c => printed folding c.text)) ++ .symbol ")" :: rest) := by
      simp only [policyTokens, List.cons_append, List.nil_append, List.tail_cons, List.map_cons,
        List.map_append, List.map_nil, map_listed_columns, foldIf_blank, foldIf_symbol, solid_blank,
        solid_of_not_blank (isBlank_clauseWord folding _), solid_symbol, solid_append, solid_nil,
        List.append_assoc]
    rw [hsolid, Distribution.policy, if_pos hby, hread]

theorem keywords?_pair {a b : Token} {k l : String} (ha : a.isKeyword k) (hb : b.isKeyword l)
    (rest : List Token) : Parser.keywords? [k, l] (a :: b :: rest) = .ok true rest := by
  change (if _ then _ else _ : Parser Bool) (a :: b :: rest) = _
  rw [if_pos (by simp [ha, hb])]
  rfl

theorem order_printed {items : List OrderItem} (h : ∀ i ∈ items, ∀ rest, EndsItem [] rest →
      Parser.orderItem (Parser.grammar Parser.nestingLimit) (solid (printed folding i.text) ++ rest) =
        .ok i rest) :
    Distribution.order (solid ((orderTokens items).map (foldIf folding))) = .ok (items, []) := by
  obtain ⟨-, -, -, hby, horder⟩ := clauseWords folding
  cases items with
  | nil => rfl
  | cons i items =>
    have hread := commaList_listed (f := fun i : OrderItem => printed folding i.text)
      (List.cons_ne_nil i items) (fun t ht => by cases ht) h
    have hlisted := map_listed_items folding (i :: items)
    have hsolid : solid ((orderTokens (i :: items)).map (foldIf folding)) =
        foldIf folding (clauseWord "ORDER") :: foldIf folding (clauseWord "BY") ::
          (solid (listed ((i :: items).map fun i => printed folding i.text)) ++ []) := by
      simp only [orderTokens, List.cons_append, List.nil_append, List.map_cons, hlisted, foldIf_blank, solid_blank, solid_of_not_blank (isBlank_clauseWord folding _),
        List.append_nil]
    have hkeywords := keywords?_pair horder hby
      (solid (listed ((i :: items).map fun i => printed folding i.text)) ++ [])
    have hall : Parser.orderBy? (Parser.grammar Parser.nestingLimit) _ = .ok (i :: items) [] :=
      (Parser.bind_of_ok hkeywords).trans hread
    rw [hsolid]
    unfold Distribution.order
    rw [hall]

theorem ofTokens_printed {d : Distribution} (hne : ∀ cs ∈ d.columns, cs ≠ [])
    (hcolumns : ∀ cs ∈ d.columns, ∀ c ∈ cs,
      Parser.ident (solid (printed folding c.text)) = .ok c [])
    (hitems : ∀ i ∈ d.orderBy, ∀ rest, EndsItem [] rest →
      Parser.orderItem (Parser.grammar Parser.nestingLimit) (solid (printed folding i.text) ++ rest) =
        .ok i rest) :
    Distribution.ofTokens
      (((policyTokens d.columns).tail ++ orderTokens d.orderBy).map (foldIf folding)) = .ok d := by
  have hpolicy := policy_printed hne hcolumns (solid ((orderTokens d.orderBy).map (foldIf folding)))
  have horder := order_printed hitems
  change (Distribution.policy (solid _) >>= _) = _
  rw [List.map_append, solid_append, hpolicy]
  change (Distribution.order _ >>= _) = _
  rw [horder]
  rfl

/-! ## Reading statements back -/

/-- A token that neither ends a group nor opens a clause. -/
def Quiet (t : Token) : Prop :=
  t.isSymbol ";" = false ∧ ¬ OpensClause t

/-- A printed statement is read back, and nothing in it that stands outside parentheses ends a group
or opens a clause. -/
structure StatementBack (folding : Bool) (s : Statement) : Prop where
  closed : Token.Closed s.text
  level : Level Quiet (printed folding s.text)
  back : Parser.parseStatements (printed folding s.text) = .ok [s]

/-- The printed name of a column is read back. -/
structure ColumnBack (folding : Bool) (c : Ident) : Prop where
  closed : Token.Closed c.text
  back : Parser.ident (solid (printed folding c.text)) = .ok c []

/-- A printed item of an order is read back, also before a comma, and nothing in it that stands
outside parentheses ends a group or opens a clause. -/
structure ItemBack (folding : Bool) (i : OrderItem) : Prop where
  closed : Token.Closed i.text
  level : Level Quiet (printed folding i.text)
  back : ∀ rest, EndsItem [] rest →
    Parser.orderItem (Parser.grammar Parser.nestingLimit) (solid (printed folding i.text) ++ rest) =
      .ok i rest

/-- What is printed of a statement and of its clause is read back, piece by piece. -/
structure ReadsBack (folding : Bool) (s : ScriptStatement) : Prop where
  statement : StatementBack folding s.statement
  columns : ∀ d ∈ s.distribution, ∀ cs ∈ d.columns, ∀ c ∈ cs, ColumnBack folding c
  items : ∀ d ∈ s.distribution, ∀ i ∈ d.orderBy, ItemBack folding i

theorem StatementBack.readsBack {s : Statement} (h : StatementBack folding s) :
    ReadsBack folding ⟨s, none⟩ where
  statement := h
  columns d hd := by cases hd
  items d hd := by cases hd

theorem ReadsBack.closed {s : ScriptStatement} (h : ReadsBack folding s) : PiecesClosed s where
  statement := h.statement.closed
  columns d hd cs hcs c hc := (h.columns d hd cs hcs c hc).closed
  items d hd i hi := (h.items d hd i hi).closed

theorem Level.mono {P Q : Token → Prop} (h : Level P tokens) (himp : ∀ t, P t → Q t) :
    Level Q tokens :=
  ⟨h.1, fun t ht => himp t (h.2 t ht)⟩

theorem mem_listed {items : List (List Token)} {t : Token} (h : t ∈ listed items) :
    t = .symbol "," ∨ t = .blank ∨ ∃ item ∈ items, t ∈ item := by
  fun_induction listed items with
  | case1 => cases h
  | case2 item => exact Or.inr (Or.inr ⟨item, List.mem_cons_self, h⟩)
  | case3 item more _ ih =>
    rcases List.mem_append.mp h with h | h
    · exact Or.inr (Or.inr ⟨item, List.mem_cons_self, h⟩)
    · rcases List.mem_cons.mp h with h | h
      · exact Or.inl h
      · rcases List.mem_cons.mp h with h | h
        · exact Or.inr (Or.inl h)
        · rcases ih h with h | h | ⟨item', hitem', h⟩
          · exact Or.inl h
          · exact Or.inr (Or.inl h)
          · exact Or.inr (Or.inr ⟨item', List.mem_cons_of_mem item hitem', h⟩)

theorem ColumnBack.flat {c : Ident} (h : ColumnBack folding c) :
    ∀ t ∈ printed folding c.text, Flat t := by
  intro t ht
  obtain ⟨u, hu, hflat, -⟩ := eq_singleton_of_ident h.back
  cases hblank : t.isBlank with
  | true =>
    cases t with
    | blank => exact flat_blank
    | _ => cases hblank
  | false =>
    have hmem : t ∈ solid (printed folding c.text) := List.mem_filter.mpr ⟨ht, by rw [hblank]; rfl⟩
    rw [hu] at hmem
    rw [List.mem_singleton.mp hmem]
    exact hflat

theorem quiet_words (folding : Bool) :
    ∀ word ∈ ["RANDOMLY", "BY", "ORDER"], Quiet (foldIf folding (clauseWord word)) := by
  unfold Quiet OpensClause
  cases folding <;> decide

theorem flat_clauseWord (folding : Bool) (s : String) : Flat (foldIf folding (clauseWord s)) := by
  intro depth
  cases folding <;> rfl

theorem quiet_blank : Quiet .blank :=
  ⟨rfl, fun h => by cases h⟩

theorem quiet_symbol {s : String} (h : s ≠ ";") : Quiet (.symbol s) :=
  ⟨by simpa [Token.isSymbol] using h, fun h => by cases h⟩

theorem Level.word {word : String} (hword : word ∈ ["RANDOMLY", "BY", "ORDER"])
    (h : Level Quiet tokens) : Level Quiet (foldIf folding (clauseWord word) :: tokens) :=
  .cons (flat_clauseWord folding word) (quiet_words folding word hword) h

theorem Level.blank (h : Level Quiet tokens) : Level Quiet (.blank :: tokens) :=
  .cons flat_blank quiet_blank h

theorem level_policy {columns : Option (List Ident)}
    (h : ∀ cs ∈ columns, ∀ c ∈ cs, ColumnBack folding c) :
    Level Quiet ((policyTokens columns).tail.map (foldIf folding)) := by
  cases columns with
  | none =>
    have hlevel : Level Quiet [.blank, foldIf folding (clauseWord "RANDOMLY")] :=
      (level_nil.word (by decide)).blank
    simpa [policyTokens] using hlevel
  | some columns =>
    have hflat : ∀ t ∈ listed (columns.map fun c => printed folding c.text), Flat t := by
      intro t ht
      rcases mem_listed ht with rfl | rfl | ⟨item, hitem, ht⟩
      · exact flat_comma
      · exact flat_blank
      · obtain ⟨c, hc, rfl⟩ := List.mem_map.mp hitem
        exact (h columns rfl c hc).flat t ht
    have hparens := level_parens hflat (quiet_symbol (by decide))
    have hlevel : Level Quiet (.blank :: foldIf folding (clauseWord "BY") :: .blank :: _) :=
      (hparens.blank.word (by decide)).blank
    rw [← map_listed_columns] at hlevel
    simpa [policyTokens] using hlevel

theorem level_order {items : List OrderItem} (h : ∀ i ∈ items, ItemBack folding i) :
    Level Quiet ((orderTokens items).map (foldIf folding)) := by
  cases items with
  | nil => exact level_nil
  | cons i items =>
    have hlist : Level Quiet (listed ((i :: items).map fun i => printed folding i.text)) := by
      refine level_listed (fun item hitem => ?_) (quiet_symbol (by decide)) quiet_blank
      obtain ⟨i', hi', rfl⟩ := List.mem_map.mp hitem
      exact (h i' hi').level
    have hlevel : Level Quiet (.blank :: foldIf folding (clauseWord "ORDER") :: .blank ::
        foldIf folding (clauseWord "BY") :: .blank :: _) :=
      ((hlist.blank.word (by decide)).blank.word (by decide)).blank
    rw [← map_listed_items] at hlevel
    simpa [orderTokens] using hlevel

/-- What stands behind the word that opens the clause. -/
def clauseTokens (folding : Bool) (d : Distribution) : List Token :=
  ((policyTokens d.columns).tail ++ orderTokens d.orderBy).map (foldIf folding)

theorem groupOf_eq (folding : Bool) (s : ScriptStatement) :
    groupOf folding s = printed folding s.statement.text ++
      match s.distribution with
      | none => []
      | some d => .blank :: foldIf folding (clauseWord "DISTRIBUTED") :: clauseTokens folding d := by
  obtain ⟨statement, distribution⟩ := s
  cases distribution with
  | none => simp [groupOf, statementTokens, printed]
  | some d =>
    have hpolicy : policyTokens d.columns =
        clauseWord "DISTRIBUTED" :: (policyTokens d.columns).tail := by
      cases d.columns <;> rfl
    unfold groupOf statementTokens clauseTokens printed
    dsimp only
    rw [hpolicy]
    simp

theorem level_clause {s : ScriptStatement} {d : Distribution} (h : ReadsBack folding s)
    (hd : s.distribution = some d) : Level Quiet (clauseTokens folding d) := by
  unfold clauseTokens
  rw [List.map_append]
  exact (level_policy (h.columns d hd)).append (level_order (h.items d hd))

theorem notBlank_of_parseStatements {s : Statement} (h : Parser.parseStatements tokens = .ok [s]) :
    tokens.all Token.isBlank = false := by
  cases hall : tokens.all Token.isBlank with
  | false => rfl
  | true =>
    have hnil : (tokens.filter fun t => !t.isBlank) = [] :=
      List.filter_eq_nil_iff.mpr fun t ht => by simpa using List.all_eq_true.mp hall t ht
    unfold Parser.parseStatements at h
    rw [hnil] at h
    cases h

theorem ReadsBack.separate {s : ScriptStatement} (h : ReadsBack folding s) :
    Separate (groupOf folding s) := by
  have hstatement := h.statement.level.mono (Q := fun t => t.isSymbol ";" = false) fun _ ht => ht.1
  have hnotBlank := notBlank_of_parseStatements h.statement.back
  rw [groupOf_eq]
  split
  · rw [List.append_nil]
    exact ⟨hstatement, hnotBlank⟩
  · rename_i d hd
    have hclause := (level_clause h hd).mono (Q := fun t => t.isSymbol ";" = false) fun _ ht => ht.1
    have hword : (foldIf folding (clauseWord "DISTRIBUTED")).isSymbol ";" = false := by
      cases folding <;> decide
    refine ⟨hstatement.append (.cons flat_blank (by decide)
      (.cons (flat_clauseWord folding _) hword hclause)), ?_⟩
    rw [List.all_append, hnotBlank, Bool.false_and]

end ColumnLineage.Script
