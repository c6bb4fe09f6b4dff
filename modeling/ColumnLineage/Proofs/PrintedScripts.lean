import ColumnLineage.Proofs.Clauses
import ColumnLineage.Proofs.TextPieces

/-!
# The tokens of printed scripts

A script is printed from its statements, and a clause from its columns and from the items of its
order. If the text of each of them is a piece of its own, which no token outlasts, then the printed
script is cut into the tokens of these pieces, with the words and signs of the clauses between them.
-/

namespace ColumnLineage

open Token (Cuts Reads lone?)

/-! ## Tokens of printed pieces -/

/-- The tokens of a text as they are read before a semicolon. -/
def Token.before (text : String) : List Token :=
  match Token.scan (text ++ ";") with
  | .ok tokens => tokens.dropLast
  | .error _ => []

/-- The last token of the text does not reach beyond it. -/
def Token.Closed (text : String) : Prop :=
  ∃ tokens, Token.scan (text ++ ";") = .ok (tokens ++ [.symbol ";"])

theorem Token.before_eq {text : String} {tokens : List Token}
    (h : Token.scan (text ++ ";") = .ok (tokens ++ [.symbol ";"])) : Token.before text = tokens := by
  unfold Token.before
  rw [h]
  exact List.dropLast_concat

theorem Token.Closed.cuts {text : String} (h : Token.Closed text) :
    Cuts text.toList (Token.before text) := by
  obtain ⟨tokens, htokens⟩ := h
  rw [Token.before_eq htokens]
  exact Token.cuts_of_scan htokens

namespace Script

/-- A word that a clause is written with. -/
def clauseWord (s : String) : Token :=
  Token.plainWord s.toList

/-- Tokens of items with commas between them. -/
def listed : List (List Token) → List Token
  | [] => []
  | [item] => item
  | item :: more => item ++ .symbol "," :: .blank :: listed more

def policyText (columns : Option (List Ident)) : String :=
  match columns with
  | none => "DISTRIBUTED RANDOMLY"
  | some columns => "DISTRIBUTED BY (" ++ commas (columns.map Ident.text) ++ ")"

def policyTokens (columns : Option (List Ident)) : List Token :=
  match columns with
  | none => [clauseWord "DISTRIBUTED", .blank, clauseWord "RANDOMLY"]
  | some columns =>
    [clauseWord "DISTRIBUTED", .blank, clauseWord "BY"] ++ .blank :: .symbol "(" ::
      (listed ((columns.map Ident.text).map Token.before) ++ [.symbol ")"])

/-- The tokens of an order behind a policy. -/
def orderTokens (items : List OrderItem) : List Token :=
  match items with
  | [] => []
  | items =>
    .blank :: ([clauseWord "ORDER", .blank, clauseWord "BY"] ++
      .blank :: listed ((OrderItem.texts items).map Token.before))

/-- The tokens of a statement with its clause. -/
def statementTokens (s : ScriptStatement) : List Token :=
  Token.before s.statement.text ++
    match s.distribution with
    | none => []
    | some d => .blank :: (policyTokens d.columns ++ orderTokens d.orderBy)

theorem cuts_commas {texts : List String} (h : ∀ text ∈ texts, Token.Closed text) :
    Cuts (commas texts).toList (listed (texts.map Token.before)) := by
  have hjoin : (commas texts).toList = [',', ' '].intercalate (texts.map String.toList) :=
    String.toList_intercalate
  rw [hjoin]
  induction texts with
  | nil => exact .nil
  | cons text more ih =>
    have hfirst := (h text List.mem_cons_self).cuts
    cases more with
    | nil => simpa [List.intercalate, listed] using hfirst
    | cons text' more =>
      have hmore := ih (fun u hu => h u (List.mem_cons_of_mem text hu)) String.toList_intercalate
      have hjoined := hfirst.append (c := ',') (by decide) rfl (.cons (c := ' ') rfl hmore)
      simpa [List.intercalate, listed] using hjoined

/-- The words that clauses are written with are cut as they are written. -/
theorem cuts_words :
    Cuts "DISTRIBUTED RANDOMLY".toList [clauseWord "DISTRIBUTED", .blank, clauseWord "RANDOMLY"] ∧
    Cuts "DISTRIBUTED BY".toList [clauseWord "DISTRIBUTED", .blank, clauseWord "BY"] ∧
    Cuts "ORDER BY".toList [clauseWord "ORDER", .blank, clauseWord "BY"] := by
  have hscans : ∀ words ∈ [("DISTRIBUTED", "RANDOMLY"), ("DISTRIBUTED", "BY"), ("ORDER", "BY")],
      (Token.scan (words.1 ++ " " ++ words.2 ++ ";")).toOption =
        some ([clauseWord words.1, .blank, clauseWord words.2] ++ [.symbol ";"]) := by
    decide
  exact ⟨Token.cuts_of_scan (eq_ok_of_toOption (hscans ("DISTRIBUTED", "RANDOMLY") (by decide))),
    Token.cuts_of_scan (eq_ok_of_toOption (hscans ("DISTRIBUTED", "BY") (by decide))),
    Token.cuts_of_scan (eq_ok_of_toOption (hscans ("ORDER", "BY") (by decide)))⟩

theorem cuts_policy {columns : Option (List Ident)}
    (h : ∀ cs ∈ columns, ∀ c ∈ cs, Token.Closed c.text) :
    Cuts (policyText columns).toList (policyTokens columns) := by
  cases columns with
  | none =>
    exact cuts_words.1
  | some columns =>
    have hcolumns : ∀ text ∈ columns.map Ident.text, Token.Closed text := by
      intro text htext
      obtain ⟨c, hc, rfl⟩ := List.mem_map.mp htext
      exact h columns rfl c hc
    have hlist := (cuts_commas hcolumns).append (c := ')') (by decide) rfl .nil
    have hall := cuts_words.2.1.append (c := ' ') (by decide) rfl (.cons (c := '(') rfl hlist)
    have hopen : "DISTRIBUTED BY (".toList = "DISTRIBUTED BY".toList ++ [' ', '('] := by decide
    change Cuts ("DISTRIBUTED BY (" ++ commas (columns.map Ident.text) ++ ")").toList _
    rw [String.toList_append, String.toList_append, List.append_assoc, hopen, List.append_assoc]
    exact hall

theorem texts_eq_map (items : List OrderItem) : OrderItem.texts items = items.map OrderItem.text := by
  induction items with
  | nil => rfl
  | cons i items ih => rw [OrderItem.texts, ih, List.map_cons]

/-- A clause is its policy, with the order behind it if there is one. -/
theorem text_distribution (d : Distribution) :
    d.text = if d.orderBy = [] then policyText d.columns
      else policyText d.columns ++ " " ++ ("ORDER BY " ++ commas (OrderItem.texts d.orderBy)) := by
  obtain ⟨columns, items⟩ := d
  cases items with
  | nil => exact String.append_empty
  | cons i items =>
    rw [if_neg (List.cons_ne_nil i items), String.append_assoc]
    rfl

theorem cuts_distribution {d : Distribution} (hcolumns : ∀ cs ∈ d.columns, ∀ c ∈ cs, Token.Closed c.text)
    (hitems : ∀ i ∈ d.orderBy, Token.Closed i.text) :
    Cuts d.text.toList (policyTokens d.columns ++ orderTokens d.orderBy) := by
  obtain ⟨columns, items⟩ := d
  have hpolicy := cuts_policy hcolumns
  rw [text_distribution]
  cases items with
  | nil => simpa [orderTokens] using hpolicy
  | cons i items =>
    have htexts : ∀ text ∈ OrderItem.texts (i :: items), Token.Closed text := by
      intro text htext
      rw [texts_eq_map] at htext
      obtain ⟨i, hi, rfl⟩ := List.mem_map.mp htext
      exact hitems i hi
    have hlist := cuts_words.2.2.append (c := ' ') (by decide) rfl (cuts_commas htexts)
    have hall := hpolicy.append (c := ' ') (by decide) rfl hlist
    simpa [orderTokens] using hall

/-- The pieces of a script are closed: its statements, and the columns and items of its clauses. -/
structure PiecesClosed (s : ScriptStatement) : Prop where
  statement : Token.Closed s.statement.text
  columns : ∀ d ∈ s.distribution, ∀ cs ∈ d.columns, ∀ c ∈ cs, Token.Closed c.text
  items : ∀ d ∈ s.distribution, ∀ i ∈ d.orderBy, Token.Closed i.text

theorem cuts_statement {s : ScriptStatement} (h : PiecesClosed s) :
    Cuts s.text.toList (statementTokens s) := by
  obtain ⟨statement, distribution⟩ := s
  have hstatement := h.statement.cuts
  cases distribution with
  | none => simpa [ScriptStatement.text, statementTokens] using hstatement
  | some d =>
    have hclause := cuts_distribution (h.columns d rfl) (h.items d rfl)
    have hall := hstatement.append (c := ' ') (by decide) rfl hclause
    simpa [ScriptStatement.text, statementTokens] using hall

def scriptTokens : List ScriptStatement → List Token
  | [] => []
  | s :: more =>
    statementTokens s ++ .symbol ";" :: more.flatMap fun s => .blank :: (statementTokens s ++ [.symbol ";"])

theorem toList_generate (s : ScriptStatement) (more : List ScriptStatement) :
    (generate (s :: more)).toList =
      s.text.toList ++ ';' :: more.flatMap fun s => '\n' :: (s.text.toList ++ [';']) := by
  unfold generate
  rw [String.toList_intercalate]
  induction more generalizing s with
  | nil => simp [List.intercalate]
  | cons s' more ih =>
    have hmore := ih s'
    simp only [List.intercalate, List.map_cons, List.intersperse_cons_cons, List.flatten_cons,
      List.flatMap_cons] at hmore ⊢
    rw [hmore]
    simp

theorem reads_generate {statements : List ScriptStatement} (h : ∀ s ∈ statements, PiecesClosed s) :
    Reads (generate statements).toList (scriptTokens statements) := by
  have hmore : ∀ more : List ScriptStatement, (∀ s ∈ more, PiecesClosed s) →
      Reads (more.flatMap fun s => '\n' :: (s.text.toList ++ [';']))
        (more.flatMap fun s => .blank :: (statementTokens s ++ [.symbol ";"])) := by
    intro more
    induction more with
    | nil => exact fun _ => .nil
    | cons s more ih =>
      intro hclosed
      have hrest := ih fun s' hs' => hclosed s' (List.mem_cons_of_mem s hs')
      have hread := cuts_statement (hclosed s List.mem_cons_self) ';' (by decide) _ _
        (.lone (c := ';') rfl hrest)
      have hall := Reads.lone (c := '\n') rfl hread
      simpa using hall
  cases statements with
  | nil => exact .nil
  | cons s more =>
    rw [toList_generate]
    exact cuts_statement (h s List.mem_cons_self) ';' (by decide) _ _
      (.lone (c := ';') rfl (hmore more fun s' hs' => h s' (List.mem_cons_of_mem s hs')))

end Script

end ColumnLineage
