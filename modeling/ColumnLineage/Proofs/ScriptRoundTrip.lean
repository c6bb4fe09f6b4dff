import ColumnLineage.Proofs.PrintedClauses

/-!
# Reading printed scripts

A script is printed with each clause behind its statement. If every statement, every column of a
clause and every item of its order is read back by itself, the printed script falls into the same
statements again, and each clause is found at the end of its statement. A clause is looked for only
behind `CREATE`; but it is given to the last statement of a group, and that may be another one.

* `Script.parse_generate_eq_iff`: a script is read back exactly if each clause stands behind a
  statement that is printed with `CREATE` first.
-/

namespace ColumnLineage.Script

open ColumnLineage.Parser (EndsItem)

variable {P : Token → Prop}

/-! ## Reading groups back -/

theorem readPlain_of_solid {a b : List Token} (h : solid a = solid b) : readPlain a = readPlain b := by
  unfold readPlain Parser.parseStatements
  have hfilter : a.filter (fun t => !t.isBlank) = b.filter fun t => !t.isBlank := h
  rw [hfilter]

variable {folding : Bool} {tokens : List Token}

theorem StatementBack.readPlain {s : Statement} (h : StatementBack folding s)
    (htokens : solid tokens = solid (printed folding s.text)) :
    readPlain tokens = .ok [⟨s, none⟩] := by
  rw [readPlain_of_solid htokens, Script.readPlain, h.back]
  rfl

theorem isCreate_of_solid {a b : List Token} (h : solid a = solid b) : isCreate a = isCreate b := by
  have hhead : ∀ tokens : List Token, (tokens.find? fun t => !t.isBlank) = (solid tokens).head? :=
    fun _ => List.head?_filter.symm
  unfold isCreate
  rw [hhead, hhead, h]

theorem isCreate_append {a : List Token} (h : a.all Token.isBlank = false) (b : List Token) :
    isCreate (a ++ b) = isCreate a := by
  unfold isCreate
  rw [List.find?_append]
  cases hfind : a.find? fun t => !t.isBlank with
  | some t => rfl
  | none =>
    have hall : a.all Token.isBlank = true :=
      List.all_eq_true.mpr fun t ht => by simpa using List.find?_eq_none.mp hfind t ht
    rw [hall] at h
    cases h

/-- Whether a clause can be given back to a statement: only to one that is printed with `CREATE`
first. -/
def TakesClause (folding : Bool) (s : ScriptStatement) : Prop :=
  s.distribution.isSome → isCreate (printed folding s.statement.text) = true

def Lead (tokens : List Token) : Prop :=
  tokens = [] ∨ tokens = [.blank]

variable {lead : List Token}

theorem Lead.solid (h : Lead lead) (tokens : List Token) :
    solid (lead ++ tokens) = solid tokens := by
  rcases h with rfl | rfl <;> rfl

theorem Lead.level (h : Lead lead) (hblank : P .blank) : Level P lead := by
  rcases h with rfl | rfl
  · exact level_nil
  · exact .cons flat_blank hblank level_nil

theorem readGroup_groupOf {s : ScriptStatement} (hlead : Lead lead) (h : ReadsBack folding s)
    (htakes : TakesClause folding s) (hne : ∀ d ∈ s.distribution, ∀ cs ∈ d.columns, cs ≠ []) :
    readGroup .greenplum (lead ++ groupOf folding s) = .ok [s] := by
  have hnotBlank := notBlank_of_parseStatements h.statement.back
  have hlevel := (hlead.level quiet_blank).append h.statement.level
  obtain ⟨statement, distribution⟩ := s
  rw [groupOf_eq]
  cases distribution with
  | none =>
    have hclause : clause? .greenplum (lead ++ printed folding statement.text) = none := by
      unfold clause?
      split
      · exact splitClause?_eq_none_iff.mpr fun t ht => (hlevel.2 t ht).2
      · rfl
    dsimp only
    rw [List.append_nil, readGroup, hclause]
    exact h.statement.readPlain (hlead.solid _)
  | some d =>
    have hclause := level_clause h rfl
    have hread : Distribution.ofTokens (clauseTokens folding d) = .ok d :=
      ofTokens_printed (hne d rfl) (fun cs hcs c hc => (h.columns d rfl cs hcs c hc).back)
        fun i hi => (h.items d rfl i hi).back
    -- the group is split at the printed word: nothing behind it opens a clause once more
    have hgroup : lead ++ (printed folding statement.text ++
          .blank :: foldIf folding (clauseWord "DISTRIBUTED") :: clauseTokens folding d) =
        (lead ++ printed folding statement.text ++ [.blank]) ++
          foldIf folding (clauseWord "DISTRIBUTED") :: clauseTokens folding d := by
      simp
    have hbefore := hlevel.append (.cons flat_blank quiet_blank level_nil)
    have hsplit := splitClause?_eq_some_iff.mpr
      ⟨_, rfl, hbefore.1, (clauseWords folding).1, fun t ht => (hclause.2 t ht).2⟩
    have hcreate : isCreate ((lead ++ printed folding statement.text ++ [.blank]) ++
        foldIf folding (clauseWord "DISTRIBUTED") :: clauseTokens folding d) = true := by
      have hnotBlank' : (lead ++ printed folding statement.text).all Token.isBlank = false := by
        rw [List.all_append, hnotBlank, Bool.and_false]
      rw [List.append_assoc, isCreate_append hnotBlank', isCreate_of_solid (hlead.solid _)]
      exact htakes rfl
    have hsolid : solid (lead ++ printed folding statement.text ++ [.blank]) =
        solid (printed folding statement.text) := by
      rw [solid_append, hlead.solid]
      exact List.append_nil _
    have hplain := h.statement.readPlain hsolid
    have hfound : clause? .greenplum ((lead ++ printed folding statement.text ++ [.blank]) ++
          foldIf folding (clauseWord "DISTRIBUTED") :: clauseTokens folding d) =
        some (lead ++ printed folding statement.text ++ [.blank], clauseTokens folding d) := by
      rw [clause?, hcreate]
      exact hsplit
    dsimp only
    rw [hgroup, readGroup, hfound]
    dsimp only
    rw [hread, hplain]
    rfl

/-- A group that does not start with `CREATE` gives no statement a distribution. -/
theorem undistributed_of_not_takes {s : ScriptStatement} {found : List ScriptStatement}
    (hlead : Lead lead) (h : ReadsBack folding s) (htakes : ¬ TakesClause folding s)
    (hfound : readGroup .greenplum (lead ++ groupOf folding s) = .ok found) :
    Undistributed found := by
  have hnotBlank := notBlank_of_parseStatements h.statement.back
  have hcreate : isCreate (lead ++ groupOf folding s) = false := by
    rw [isCreate_of_solid (hlead.solid _), groupOf_eq, isCreate_append hnotBlank]
    exact Bool.eq_false_iff.mpr fun hcreate => htakes fun _ => hcreate
  rw [readGroup, clause?, hcreate, Bool.and_false] at hfound
  exact readPlain_undistributed hfound

/-! ## Reading scripts back -/

/-- The statements of a printed script, each with the blanks before it. -/
def withLeads : List ScriptStatement → List (List Token × ScriptStatement)
  | [] => []
  | s :: more => ([], s) :: more.map ([.blank], ·)

theorem groupsOf_eq (folding : Bool) (statements : List ScriptStatement) :
    groupsOf folding statements =
      (withLeads statements).map fun e => e.1 ++ groupOf folding e.2 := by
  cases statements with
  | nil => rfl
  | cons s more => simp [groupsOf, withLeads]

theorem map_snd_withLeads (statements : List ScriptStatement) :
    (withLeads statements).map Prod.snd = statements := by
  cases statements with
  | nil => rfl
  | cons s more => simp [withLeads, Function.comp_def]

variable {statements : List ScriptStatement}

theorem lead_of_mem {e : List Token × ScriptStatement} (h : e ∈ withLeads statements) :
    Lead e.1 := by
  cases statements with
  | nil => cases h
  | cons s more =>
    rcases List.mem_cons.mp h with rfl | h
    · exact Or.inl rfl
    · obtain ⟨_, -, rfl⟩ := List.mem_map.mp h
      exact Or.inr rfl

/-- A clause that names columns names at least one. -/
def NamesColumns (s : ScriptStatement) : Prop :=
  ∀ d ∈ s.distribution, ∀ cs ∈ d.columns, cs ≠ []

/-- A statement that can be printed and read back, but for the place of its clause. -/
structure Readable (folding : Bool) (e : List Token × ScriptStatement) : Prop where
  lead : Lead e.1
  back : ReadsBack folding e.2
  named : NamesColumns e.2

theorem readGroups_groups {es : List (List Token × ScriptStatement)}
    (h : ∀ e ∈ es, Readable folding e) (htakes : ∀ e ∈ es, TakesClause folding e.2) :
    readGroups .greenplum (es.map fun e => e.1 ++ groupOf folding e.2) = .ok (es.map Prod.snd) := by
  induction es with
  | nil => rfl
  | cons e es ih =>
    have he := h e List.mem_cons_self
    have hfirst := readGroup_groupOf he.lead he.back (htakes e List.mem_cons_self) he.named
    have hmore := ih (fun e' he' => h e' (List.mem_cons_of_mem e he'))
      fun e' he' => htakes e' (List.mem_cons_of_mem e he')
    exact readGroups_cons.mpr ⟨_, _, hfirst, hmore, rfl⟩

/-- The number of statements with a distribution. -/
def distributed (statements : List ScriptStatement) : Nat :=
  statements.countP (·.distribution.isSome)

theorem distributed_append (a b : List ScriptStatement) :
    distributed (a ++ b) = distributed a + distributed b :=
  List.countP_append

theorem distributed_eq_zero (h : Undistributed statements) : distributed statements = 0 :=
  List.countP_eq_zero.mpr fun s hs => by rw [h s hs]; decide

/-- A clause behind a statement that is not printed with `CREATE` first is lost, and no other clause
is found in its place. -/
theorem distributed_lt {es : List (List Token × ScriptStatement)} {found : List ScriptStatement}
    (h : ∀ e ∈ es, Readable folding e)
    (hfound : readGroups .greenplum (es.map fun e => e.1 ++ groupOf folding e.2) = .ok found) :
    distributed found ≤ distributed (es.map Prod.snd) ∧
      ((∃ e ∈ es, ¬ TakesClause folding e.2) → distributed found < distributed (es.map Prod.snd)) := by
  -- what is read may differ from what was printed, so only the numbers can be compared
  induction es generalizing found with
  | nil =>
    cases hfound
    exact ⟨Nat.le_refl 0, fun ⟨e, he, _⟩ => absurd he List.not_mem_nil⟩
  | cons e es ih =>
    obtain ⟨first, more, hfirst, hmore, rfl⟩ := readGroups_cons.mp hfound
    obtain ⟨hle, hlt⟩ := ih (fun e' he' => h e' (List.mem_cons_of_mem e he')) hmore
    have he := h e List.mem_cons_self
    have hsplit : distributed ((e :: es).map Prod.snd) =
        distributed [e.2] + distributed (es.map Prod.snd) := distributed_append [e.2] _
    rw [distributed_append, hsplit]
    by_cases htakes : TakesClause folding e.2
    · have hread := readGroup_groupOf he.lead he.back htakes he.named
      cases hread.symm.trans hfirst
      refine ⟨by omega, fun ⟨e', he', hnot⟩ => ?_⟩
      rcases List.mem_cons.mp he' with rfl | he'
      · exact absurd htakes hnot
      · have := hlt ⟨e', he', hnot⟩
        omega
    · have hzero := distributed_eq_zero (undistributed_of_not_takes he.lead he.back htakes hfirst)
      have hone : distributed [e.2] = 1 := by
        have hsome : e.2.distribution.isSome := by
          cases hsome : e.2.distribution.isSome with
          | true => rfl
          | false => exact absurd (fun h => by rw [hsome] at h; cases h) htakes
        simp [distributed, hsome]
      rw [hzero, hone]
      exact ⟨by omega, fun _ => by omega⟩

/-! ## Clauses name columns -/

theorem columnNames_ne_nil {rest : List Token} {columns : List Ident}
    (h : Parser.columnNames tokens = .ok columns rest) : columns ≠ [] := by
  obtain ⟨opens, mid, -, h⟩ := Parser.bind_eq_ok.mp h
  cases opens with
  | false =>
    obtain ⟨_, _, -, h⟩ := Parser.bind_eq_ok.mp h
    cases h
  | true =>
    obtain ⟨_, _, -, h⟩ := Parser.bind_eq_ok.mp h
    obtain ⟨read, _, hread, h⟩ := Parser.bind_eq_ok.mp h
    obtain ⟨_, _, -, h⟩ := Parser.bind_eq_ok.mp h
    obtain ⟨rfl, -⟩ := Parser.pure_eq_ok.mp h
    rw [Parser.commaList_eq] at hread
    obtain ⟨first, _, -, hread⟩ := Parser.bind_eq_ok.mp hread
    obtain ⟨more, _, -, hread⟩ := Parser.bind_eq_ok.mp hread
    obtain ⟨rfl, -⟩ := Parser.pure_eq_ok.mp hread
    exact List.cons_ne_nil _ _

theorem ofTokens_columns {d : Distribution} (h : Distribution.ofTokens tokens = .ok d) :
    ∀ cs ∈ d.columns, cs ≠ [] := by
  obtain ⟨⟨columns, rest⟩, hpolicy, h⟩ := bind_eq_ok.mp h
  obtain ⟨⟨items, rest'⟩, -, h⟩ := bind_eq_ok.mp h
  have hd : d.columns = columns := by
    cases rest' with
    | nil => cases h; rfl
    | cons t rest' => cases h
  rw [hd]
  intro cs hcs
  cases hcs
  unfold Distribution.policy at hpolicy
  split at hpolicy
  · cases hpolicy
  · split at hpolicy
    · split at hpolicy
      · rename_i hcolumns
        cases hpolicy
        exact columnNames_ne_nil hcolumns
      · cases hpolicy
    · split at hpolicy <;> cases hpolicy

theorem WasRead.namesColumns {s : ScriptStatement} (h : WasRead s) : NamesColumns s := by
  intro d hd
  obtain ⟨tokens, hread⟩ := h.distribution d hd
  exact ofTokens_columns hread

/-! ## The round trip -/

theorem parse_generate (h : ∀ s ∈ statements, ReadsBack folding s) :
    parse .greenplum folding (generate statements) =
      readGroups .greenplum (groupsOf folding statements) := by
  have hscan := (reads_generate fun s hs => (h s hs).closed).scan
  unfold parse
  rw [hscan]
  dsimp only
  rw [map_foldIf, ofTokens, groups_scriptTokens fun s hs => (h s hs).separate]

/-- A script whose pieces are read back one by one is read back as a whole exactly if each clause
stands behind a statement that is printed with `CREATE` first. -/
theorem parse_generate_eq_iff {folding : Bool} {sql : String} {statements : List ScriptStatement}
    (hparse : parse .greenplum folding sql = .ok statements)
    (hback : ∀ s ∈ statements, ReadsBack folding s) :
    parse .greenplum folding (generate statements) = .ok statements ↔
      ∀ s ∈ statements, s.distribution.isSome →
        isCreate (printed folding s.statement.text) = true := by
  have hnamed : ∀ s ∈ statements, NamesColumns s := fun s hs =>
    (wasRead_of_parse hparse hs).namesColumns
  have hmem : ∀ e ∈ withLeads statements, e.2 ∈ statements := by
    intro e he
    have hsnd := List.mem_map_of_mem (f := Prod.snd) he
    rw [map_snd_withLeads] at hsnd
    exact hsnd
  have hreadable : ∀ e ∈ withLeads statements, Readable folding e := fun e he =>
    ⟨lead_of_mem he, hback e.2 (hmem e he), hnamed e.2 (hmem e he)⟩
  rw [parse_generate hback, groupsOf_eq]
  constructor
  · intro hread s hs hsome
    cases hcreate : isCreate (printed folding s.statement.text) with
    | true => rfl
    | false =>
      obtain ⟨-, hlt⟩ := distributed_lt hreadable hread
      rw [← map_snd_withLeads statements] at hs
      obtain ⟨e, he, rfl⟩ := List.mem_map.mp hs
      have hless := hlt ⟨e, he, fun htakes => by rw [htakes hsome] at hcreate; cases hcreate⟩
      rw [map_snd_withLeads] at hless
      exact absurd hless (Nat.lt_irrefl _)
  · intro htakes
    have hread := readGroups_groups hreadable fun e he => htakes e.2 (hmem e he)
    rw [map_snd_withLeads] at hread
    exact hread

/-! ## A clause behind another statement -/

def copyTable (target source : String) : Statement :=
  .createTable
    { orReplace := false, external := false, isGlobal := none, temporary := false,
      transient := false, ifNotExists := false, name := ⟨[⟨target, none⟩]⟩, cluster := none,
      columns := [], constraints := [], withoutRowid := false, templates := [], clauses := [],
      query := some
        { isRecursive := false, ctes := [], body := .table source, orderBy := [], limit := none,
          offset := none, offsetWord := .absent, fetch := none, locks := [] } }

def columnItem (name : String) : OrderItem :=
  .mk (.column ⟨name, none⟩) none none

def spaced (words : List String) : List Token :=
  (words.map clauseWord).intersperse .blank

theorem printed_of_scan {text : String}
    (h : (Token.scan (text ++ ";")).toOption = some (tokens ++ [.symbol ";"])) :
    Token.Closed text ∧ printed false text = tokens := by
  have hscan := eq_ok_of_toOption h
  refine ⟨⟨tokens, hscan⟩, ?_⟩
  unfold printed
  rw [Token.before_eq hscan]
  exact List.map_id tokens

/-- A script with a clause behind the statement that makes the table. -/
def copyScript : String :=
  "create table t as table x distributed by (a, a) order by a; show b"

/-- A script with a parenthesis that `TABLE` takes away. It keeps two statements in one group, and
the clause is given to the second. -/
def openScript : String :=
  "CREATE TABLE t AS TABLE x ( y; SHOW b ) DISTRIBUTED RANDOMLY"

/-- The statements of the first script. -/
def copied : List ScriptStatement :=
  [⟨copyTable "t" "x", some ⟨some [⟨"a", none⟩, ⟨"a", none⟩], [columnItem "a"]⟩⟩,
    ⟨.other "SHOW b", none⟩]

/-- The statements of the second script. -/
def shown : List ScriptStatement :=
  [⟨copyTable "t" "x", none⟩, ⟨.other "SHOW b", some .randomly⟩]

theorem scan_copyScript :
    (Token.scan ((copyTable "t" "x").text ++ ";")).toOption =
      some (spaced ["CREATE", "TABLE", "t", "AS", "TABLE", "x"] ++ [.symbol ";"]) ∧
    (Token.scan ((Statement.other "SHOW b").text ++ ";")).toOption =
      some (spaced ["SHOW", "b"] ++ [.symbol ";"]) ∧
    (Token.scan ("a" ++ ";")).toOption = some (spaced ["a"] ++ [.symbol ";"]) ∧
    (Token.scan copyScript).toOption =
      some (spaced ["create", "table", "t", "as", "table", "x", "distributed", "by"] ++
        [.blank, .symbol "(", clauseWord "a", .symbol ",", .blank, clauseWord "a", .symbol ")",
          .blank] ++ spaced ["order", "by", "a"] ++ [.symbol ";", .blank] ++ spaced ["show", "b"]) ∧
    (Token.scan openScript).toOption =
      some (spaced ["CREATE", "TABLE", "t", "AS", "TABLE", "x"] ++
        [.blank, .symbol "(", .blank, clauseWord "y", .symbol ";", .blank] ++ spaced ["SHOW", "b"] ++
        [.blank, .symbol ")", .blank] ++ spaced ["DISTRIBUTED", "RANDOMLY"]) := by
  decide +kernel

theorem StatementBack.of_scan {s : Statement}
    (h : (Token.scan (s.text ++ ";")).toOption = some (tokens ++ [.symbol ";"]))
    (hlevel : Level Quiet tokens) (hback : Parser.parseStatements tokens = .ok [s]) :
    StatementBack false s := by
  obtain ⟨hclosed, hprinted⟩ := printed_of_scan h
  exact ⟨hclosed, hprinted.symm ▸ hlevel, hprinted.symm ▸ hback⟩

theorem copyTable_back : StatementBack false (copyTable "t" "x") :=
  .of_scan scan_copyScript.1 (by unfold Level Quiet OpensClause; decide) rfl

theorem show_back : StatementBack false (.other "SHOW b") :=
  .of_scan scan_copyScript.2.1 (by unfold Level Quiet OpensClause; decide) rfl

theorem column_back : ColumnBack false ⟨"a", none⟩ := by
  obtain ⟨hclosed, hprinted⟩ := printed_of_scan scan_copyScript.2.2.1
  refine ⟨hclosed, ?_⟩
  change Parser.ident (solid (printed false "a")) = _
  rw [hprinted]
  rfl

theorem columnItem_back : ItemBack false (columnItem "a") := by
  obtain ⟨hclosed, hprinted⟩ := printed_of_scan scan_copyScript.2.2.1
  refine ⟨hclosed, ?_, ?_⟩
  · change Level Quiet (printed false "a")
    rw [hprinted]
    unfold Level Quiet OpensClause
    decide
  · intro rest hrest
    change Parser.orderItem _ (solid (printed false "a") ++ rest) = _
    rw [hprinted]
    cases rest with
    | nil => rfl
    | cons t rest =>
      have hcomma : t = .symbol "," := by simpa [EndsItem] using hrest
      subst hcomma
      cases rest <;> rfl

set_option maxRecDepth 2000 in
theorem parse_copyScript : parse .greenplum false copyScript = .ok copied ∧
    parse .greenplum false openScript = .ok shown := by
  obtain ⟨-, -, -, hcopy, hopen⟩ := scan_copyScript
  constructor
  · unfold parse
    rw [eq_ok_of_toOption hcopy]
    rfl
  · unfold parse
    rw [eq_ok_of_toOption hopen]
    rfl

theorem copied_back : ∀ s ∈ copied, ReadsBack false s := by
  intro s hs
  rcases List.mem_cons.mp hs with rfl | hs
  · refine ⟨copyTable_back, ?_, ?_⟩
    · intro d hd cs hcs c hc
      cases hd
      cases hcs
      have hname : c = ⟨"a", none⟩ := by simpa using hc
      rw [hname]
      exact column_back
    · intro d hd i hi
      cases hd
      rw [List.mem_singleton.mp hi]
      exact columnItem_back
  · rw [List.mem_singleton.mp hs]
    exact show_back.readsBack

theorem shown_back : ∀ s ∈ shown, ReadsBack false s := by
  intro s hs
  rcases List.mem_cons.mp hs with rfl | hs
  · exact copyTable_back.readsBack
  · rw [List.mem_singleton.mp hs]
    refine ⟨show_back, fun d hd cs hcs => ?_, fun d hd i hi => ?_⟩
    · cases hd
      cases hcs
    · cases hd
      cases hi

/-- The first script is read back as it was printed. In the second a statement without `CREATE` is
printed with the clause behind it, and what is read back is another script. -/
theorem parse_generate_eq_iff_show :
    parse .greenplum false copyScript = .ok copied ∧ (∀ s ∈ copied, ReadsBack false s) ∧
    parse .greenplum false (generate copied) = .ok copied ∧
    parse .greenplum false openScript = .ok shown ∧ (∀ s ∈ shown, ReadsBack false s) ∧
    parse .greenplum false (generate shown) ≠ .ok shown := by
  obtain ⟨hcopied, hshown⟩ := parse_copyScript
  have hcopy := (printed_of_scan scan_copyScript.1).2
  have hshow := (printed_of_scan scan_copyScript.2.1).2
  refine ⟨hcopied, copied_back, ?_, hshown, shown_back, ?_⟩
  · refine (parse_generate_eq_iff hcopied copied_back).mpr fun s hs hsome => ?_
    rcases List.mem_cons.mp hs with rfl | hs
    · rw [hcopy]
      decide
    · rw [List.mem_singleton.mp hs] at hsome
      cases hsome
  · intro hread
    have hcreate := (parse_generate_eq_iff hshown shown_back).mp hread _
      (List.mem_cons_of_mem _ List.mem_cons_self) rfl
    rw [hshow] at hcreate
    exact absurd hcreate (by decide)

end ColumnLineage.Script
