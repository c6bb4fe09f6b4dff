import ColumnLineage.Proofs.ParserRuns
import ColumnLineage.Proofs.Steps
import ColumnLineage.Script.Statements

/-!
# Clauses at the end of statements

A dialect with distributions reads what it reads without them, unless a group that starts with
`CREATE` ends in what reads as a clause. The word that opens the clause may as well be the name of a
table or of a column: then the group is read in a different way, or not at all.

* `Script.parse_greenplum_eq_iff`: a script without a clause is read alike in both dialects, and
  only such a script.
-/

namespace ColumnLineage.Script

/-! ## Outside parentheses -/

/-- The number of open parentheses behind tokens; `depth` are open before them. -/
def depthBehind (depth : Nat) (tokens : List Token) : Nat :=
  tokens.foldl depthAfter depth

/-- The tokens outside parentheses; `depth` are open before them. -/
def outside (depth : Nat) : List Token → List Token
  | [] => []
  | t :: rest =>
    if depth = 0 then t :: outside (depthAfter depth t) rest else outside (depthAfter depth t) rest

@[simp] theorem depthBehind_nil (depth : Nat) : depthBehind depth [] = depth := rfl

@[simp] theorem depthBehind_cons (depth : Nat) (t : Token) (rest : List Token) :
    depthBehind depth (t :: rest) = depthBehind (depthAfter depth t) rest := rfl

@[simp] theorem depthBehind_append (depth : Nat) (a b : List Token) :
    depthBehind depth (a ++ b) = depthBehind (depthBehind depth a) b :=
  List.foldl_append

theorem mem_outside_cons {depth : Nat} {t u : Token} {rest : List Token} :
    u ∈ outside depth (t :: rest) ↔
      depth = 0 ∧ u = t ∨ u ∈ outside (depthAfter depth t) rest := by
  by_cases h : depth = 0 <;> simp [outside, h]

theorem outside_append (depth : Nat) (a b : List Token) :
    outside depth (a ++ b) = outside depth a ++ outside (depthBehind depth a) b := by
  induction a generalizing depth with
  | nil => rfl
  | cons t a ih => by_cases h : depth = 0 <;> simp [outside, h, ih]

theorem depthAfter_of_isWord {word : String} {t : Token} (h : Distribution.isWord word t)
    (depth : Nat) : depthAfter depth t = depth := by
  cases t with
  | word w => rfl
  | _ => cases h

/-! ## Where a group is split -/

def OpensClause (t : Token) : Prop :=
  Distribution.isWord "DISTRIBUTED" t = true

variable {tokens : List Token}

theorem splitClause?_eq_none_iff {depth : Nat} :
    splitClause? depth tokens = none ↔ ∀ t ∈ outside depth tokens, ¬ OpensClause t := by
  induction tokens generalizing depth with
  | nil => simp [splitClause?, outside]
  | cons t rest ih =>
    have hrest := @ih (depthAfter depth t)
    constructor
    · intro h u hu
      unfold splitClause? at h
      split at h
      · cases h
      · rename_i hnone
        rcases mem_outside_cons.mp hu with ⟨hdepth, rfl⟩ | hu
        · intro hword
          rw [if_pos (by rw [hword, hdepth]; rfl)] at h
          cases h
        · exact hrest.mp hnone u hu
    · intro h
      have hnone := hrest.mpr fun u hu => h u (mem_outside_cons.mpr (Or.inr hu))
      unfold splitClause?
      rw [hnone]
      refine if_neg fun hsplit => ?_
      obtain ⟨hdepth, hword⟩ := Bool.and_eq_true_iff.mp hsplit
      exact h t (mem_outside_cons.mpr (Or.inl ⟨of_decide_eq_true hdepth, rfl⟩)) hword

/-- A group is split at the last word outside parentheses that opens a clause. -/
theorem splitClause?_eq_some_iff {depth : Nat} {before behind : List Token} :
    splitClause? depth tokens = some (before, behind) ↔
      ∃ t, tokens = before ++ t :: behind ∧ depthBehind depth before = 0 ∧ OpensClause t ∧
        ∀ u ∈ outside 0 behind, ¬ OpensClause u := by
  induction tokens generalizing depth before with
  | nil => simp [splitClause?]
  | cons t rest ih =>
    have hrest := @ih (depthAfter depth t)
    constructor
    · intro h
      unfold splitClause? at h
      split at h
      · rename_i before' behind' hsome
        cases h
        obtain ⟨u, rfl, hdepth, hu, hlast⟩ := hrest.mp hsome
        exact ⟨u, rfl, hdepth, hu, hlast⟩
      · rename_i hnone
        split at h
        · rename_i hsplit
          cases h
          obtain ⟨hdepth, hword⟩ := Bool.and_eq_true_iff.mp hsplit
          have hdepth := of_decide_eq_true hdepth
          subst hdepth
          rw [depthAfter_of_isWord hword] at hnone
          exact ⟨t, rfl, rfl, hword, splitClause?_eq_none_iff.mp hnone⟩
        · cases h
    · rintro ⟨u, htokens, hdepth, hu, hlast⟩
      cases before with
      | nil =>
        obtain ⟨rfl, rfl⟩ := List.cons.inj htokens
        subst hdepth
        have hnone := splitClause?_eq_none_iff.mpr hlast
        unfold splitClause?
        rw [depthAfter_of_isWord hu, hnone]
        exact if_pos (by rw [hu]; rfl)
      | cons t' before =>
        obtain ⟨rfl, rfl⟩ := List.cons.inj htokens
        have hsome := hrest.mpr ⟨u, rfl, hdepth, hu, hlast⟩
        unfold splitClause?
        rw [hsome]

/-- A group that starts with `CREATE` ends in what reads as a clause. -/
def EndsInClause (group : List Token) : Prop :=
  isCreate group = true ∧ ∃ before t behind d,
    group = before ++ t :: behind ∧ depthBehind 0 before = 0 ∧ OpensClause t ∧
      (∀ u ∈ outside 0 behind, ¬ OpensClause u) ∧ Distribution.ofTokens behind = .ok d

variable {group : List Token}

theorem endsInClause_iff :
    EndsInClause group ↔ ∃ before behind d,
      clause? .greenplum group = some (before, behind) ∧ Distribution.ofTokens behind = .ok d := by
  have hclause : ∀ before behind, clause? .greenplum group = some (before, behind) ↔
      isCreate group = true ∧ splitClause? 0 group = some (before, behind) := by
    intro before behind
    unfold clause?
    by_cases h : isCreate group <;> simp [h, Dialect.supportsDistribution]
  simp only [hclause, splitClause?_eq_some_iff]
  constructor
  · rintro ⟨hcreate, before, t, behind, d, hgroup, hdepth, ht, hlast, hd⟩
    exact ⟨before, behind, d, ⟨hcreate, t, hgroup, hdepth, ht, hlast⟩, hd⟩
  · rintro ⟨before, behind, d, ⟨hcreate, t, hgroup, hdepth, ht, hlast⟩, hd⟩
    exact ⟨hcreate, before, t, behind, d, hgroup, hdepth, ht, hlast, hd⟩

/-! ## Groups -/

/-- No statement says how its table is distributed. -/
def Undistributed (statements : List ScriptStatement) : Prop :=
  ∀ s ∈ statements, s.distribution = none

variable {statements : List ScriptStatement}

theorem readPlain_undistributed (h : readPlain group = .ok statements) :
    Undistributed statements := by
  intro s hs
  unfold readPlain at h
  split at h
  · cases h
    obtain ⟨_, -, rfl⟩ := List.mem_map.mp hs
    rfl
  · cases h

/-- A group that can be read without distributions is read alike with them, unless it ends in a
clause. -/
theorem readGroup_greenplum (h : readPlain group = .ok statements)
    (hclause : ¬ EndsInClause group) : readGroup .greenplum group = .ok statements := by
  unfold readGroup
  split
  · exact h
  · rename_i before behind hsplit
    split
    · rename_i d hd
      exact absurd (endsInClause_iff.mpr ⟨before, behind, d, hsplit, hd⟩) hclause
    · rw [h]

theorem exists_mem_attach {d : Distribution} (h : statements ≠ []) :
    ∃ s ∈ attach d statements, s.distribution = some d := by
  fun_induction attach d statements with
  | case1 => exact absurd rfl h
  | case2 s => exact ⟨_, List.mem_singleton_self _, rfl⟩
  | case3 s rest hrest ih =>
    obtain ⟨s', hs', hd⟩ := ih (by simpa using hrest)
    exact ⟨s', List.mem_cons_of_mem s hs', hd⟩

/-- What a group that ends in a clause gives: nothing, or a statement with a distribution. -/
theorem readGroup_of_endsInClause (hclause : EndsInClause group)
    (h : readGroup .greenplum group = .ok statements) (hplain : Undistributed statements) :
    statements = [] := by
  obtain ⟨before, behind, d, hsplit, hd⟩ := endsInClause_iff.mp hclause
  unfold readGroup at h
  rw [hsplit] at h
  dsimp only at h
  rw [hd] at h
  obtain ⟨found, -, hfound⟩ := map_eq_ok.mp h
  rw [← hfound] at hplain ⊢
  by_cases hnil : found = []
  · rw [hnil]
    rfl
  · obtain ⟨s, hs, hdistribution⟩ := exists_mem_attach (d := d) hnil
    rw [hplain s hs] at hdistribution
    cases hdistribution

/-! ## All groups -/

/-- The first token of a group, blanks apart, is no semicolon. -/
def Opened (group : List Token) : Prop :=
  ∃ t, group.find? (fun t => !t.isBlank) = some t ∧ t.isSymbol ";" = false

theorem readPlain_ne_nil (hopened : Opened group) (h : readPlain group = .ok statements) :
    statements ≠ [] := by
  obtain ⟨t, ht, hsemicolon⟩ := hopened
  unfold readPlain at h
  split at h
  · rename_i read hread
    cases h
    have hne := Parser.parseStatements_ne_nil ht hsemicolon hread
    simpa using hne
  · cases h

theorem opened_cons_of_blank {t : Token} (ht : t.isBlank) (h : Opened group) :
    Opened (t :: group) := by
  obtain ⟨u, hu, hsemicolon⟩ := h
  exact ⟨u, by rw [List.find?_cons_of_neg (by simp [ht])]; exact hu, hsemicolon⟩

/-- A semicolon outside parentheses ends a group, so none starts with one. The group that goes on
from before may start inside parentheses. -/
theorem opened_of_mem_cut {depth : Nat}
    (h : group ∈ (cut depth tokens).tail ∨ depth = 0 ∧ group ∈ cut depth tokens)
    (hblank : group.all Token.isBlank = false) : Opened group := by
  induction tokens generalizing depth group with
  | nil =>
    rcases h with h | ⟨-, h⟩
    · cases h
    · cases List.mem_singleton.mp h
      cases hblank
  | cons t rest ih =>
    unfold cut at h
    split at h
    · rcases h with h | ⟨-, h⟩
      · exact ih (Or.inr ⟨rfl, h⟩) hblank
      · rcases List.mem_cons.mp h with rfl | h
        · cases hblank
        · exact ih (Or.inr ⟨rfl, h⟩) hblank
    · rename_i hsemicolon
      have hstart : depth = 0 → t.isBlank = false → ∀ more, Opened (t :: more) := by
        intro hdepth ht more
        refine ⟨t, List.find?_cons_of_pos (by simp [ht]), ?_⟩
        cases hsymbol : t.isSymbol ";" with
        | false => rfl
        | true => exact absurd (by simp [hsymbol, hdepth]) hsemicolon
      have hnoDepth : t.isBlank → depthAfter depth t = depth := by
        intro ht
        cases t with
        | blank => rfl
        | _ => cases ht
      split at h
      · rcases h with h | ⟨hdepth, h⟩
        · cases h
        · cases List.mem_singleton.mp h
          exact hstart hdepth (by simpa using hblank) []
      · rename_i first more hcut
        rcases h with h | ⟨hdepth, h⟩
        · exact ih (Or.inl (by rw [hcut]; exact h)) hblank
        · rcases List.mem_cons.mp h with rfl | h
          · -- a blank leaves the depth as it is, so what follows it starts the group
            cases ht : t.isBlank with
            | false => exact hstart hdepth ht first
            | true =>
              have hfirst : first.all Token.isBlank = false := by
                rw [List.all_cons, ht, Bool.true_and] at hblank
                exact hblank
              have hmem : first ∈ cut (depthAfter depth t) rest := by
                rw [hcut]
                exact List.mem_cons_self
              exact opened_cons_of_blank ht
                (ih (Or.inr ⟨(hnoDepth ht).trans hdepth, hmem⟩) hfirst)
          · exact ih (Or.inl (by rw [hcut]; exact h)) hblank

theorem opened_of_mem_groups (h : group ∈ groups tokens) : Opened group := by
  obtain ⟨hcut, hblank⟩ := List.mem_filter.mp h
  exact opened_of_mem_cut (Or.inr ⟨rfl, hcut⟩) (by simpa using hblank)

variable {dialect : Dialect}

theorem readGroups_cons {rest : List (List Token)} :
    readGroups dialect (group :: rest) = .ok statements ↔ ∃ first more,
      readGroup dialect group = .ok first ∧ readGroups dialect rest = .ok more ∧
        statements = first ++ more := by
  rw [readGroups]
  simp only [bind_eq_ok, pure_eq_ok]
  constructor
  · rintro ⟨first, hfirst, more, hmore, rfl⟩
    exact ⟨first, more, hfirst, hmore, rfl⟩
  · rintro ⟨first, more, hfirst, hmore, rfl⟩
    exact ⟨first, hfirst, more, hmore, rfl⟩

variable {gs : List (List Token)}

theorem exists_readGroup_of_mem (h : readGroups dialect gs = .ok statements) {s : ScriptStatement}
    (hs : s ∈ statements) : ∃ group found, readGroup dialect group = .ok found ∧ s ∈ found := by
  induction gs generalizing statements with
  | nil =>
    cases h
    cases hs
  | cons group rest ih =>
    obtain ⟨first, more, hfirst, hmore, rfl⟩ := readGroups_cons.mp h
    rcases List.mem_append.mp hs with hs | hs
    · exact ⟨group, first, hfirst, hs⟩
    · exact ih hmore hs

theorem readGroups_undistributed (h : readGroups .postgresql gs = .ok statements) :
    Undistributed statements := by
  intro s hs
  obtain ⟨group, found, hfound, hs⟩ := exists_readGroup_of_mem h hs
  exact readPlain_undistributed hfound s hs

theorem readGroups_greenplum (h : readGroups .postgresql gs = .ok statements)
    (hclauses : ∀ g ∈ gs, ¬ EndsInClause g) : readGroups .greenplum gs = .ok statements := by
  induction gs generalizing statements with
  | nil => exact h
  | cons group rest ih =>
    obtain ⟨first, more, hfirst, hmore, rfl⟩ := readGroups_cons.mp h
    exact readGroups_cons.mpr ⟨first, more, readGroup_greenplum hfirst (hclauses group List.mem_cons_self),
      ih hmore fun g hg => hclauses g (List.mem_cons_of_mem group hg), rfl⟩

/-- If no distribution is found, groups that end in a clause give fewer statements than they hold,
and other groups as many. -/
theorem length_lt_of_endsInClause {plain found : List ScriptStatement}
    (hopened : ∀ g ∈ gs, Opened g) (hplain : readGroups .postgresql gs = .ok plain)
    (hfound : readGroups .greenplum gs = .ok found) (hnone : Undistributed found) :
    found.length ≤ plain.length ∧ ((∃ g ∈ gs, EndsInClause g) → found.length < plain.length) := by
  induction gs generalizing plain found with
  | nil =>
    cases hplain
    cases hfound
    exact ⟨Nat.le_refl 0, fun ⟨g, hg, _⟩ => absurd hg List.not_mem_nil⟩
  | cons group rest ih =>
    obtain ⟨first, more, hfirst, hmore, rfl⟩ := readGroups_cons.mp hplain
    obtain ⟨first', more', hfirst', hmore', rfl⟩ := readGroups_cons.mp hfound
    obtain ⟨hle, hlt⟩ := ih (fun g hg => hopened g (List.mem_cons_of_mem group hg)) hmore hmore'
      fun s hs => hnone s (List.mem_append_right first' hs)
    have hfirstNe := readPlain_ne_nil (hopened group List.mem_cons_self) hfirst
    have hpositive := List.length_pos_iff.mpr hfirstNe
    rw [List.length_append, List.length_append]
    by_cases hclause : EndsInClause group
    · have hnil := readGroup_of_endsInClause hclause hfirst'
        fun s hs => hnone s (List.mem_append_left more' hs)
      rw [hnil, List.length_nil]
      exact ⟨by omega, fun _ => by omega⟩
    · have hsame := (readGroup_greenplum hfirst hclause).symm.trans hfirst'
      cases hsame
      refine ⟨by omega, fun ⟨g, hg, hends⟩ => ?_⟩
      rcases List.mem_cons.mp hg with rfl | hg
      · exact absurd hends hclause
      · have := hlt ⟨g, hg, hends⟩
        omega

/-! ## Scripts -/

def textGroups (folding : Bool) (sql : String) : List (List Token) :=
  match Token.scan sql with
  | .error _ => []
  | .ok tokens => groups (if folding then tokens.map Token.fold else tokens)

theorem parse_eq_ok_iff {folding : Bool} {sql : String} :
    parse dialect folding sql = .ok statements ↔
      (Token.scan sql).isOk ∧ readGroups dialect (textGroups folding sql) = .ok statements := by
  unfold parse textGroups
  cases Token.scan sql with
  | error e => exact ⟨fun h => (by cases h), fun h => (by cases h.1)⟩
  | ok tokens => exact ⟨fun h => ⟨rfl, h⟩, fun h => h.2⟩

theorem opened_of_mem_textGroups {folding : Bool} {sql : String}
    (h : group ∈ textGroups folding sql) : Opened group := by
  unfold textGroups at h
  split at h
  · cases h
  · exact opened_of_mem_groups h

/-- A statement of a script comes from the parser of statements, and its clause, if it has one, from
the parser of clauses. -/
structure WasRead (s : ScriptStatement) : Prop where
  statement : ∃ tokens read, Parser.parseStatements tokens = .ok read ∧ s.statement ∈ read
  distribution : ∀ d ∈ s.distribution, ∃ tokens, Distribution.ofTokens tokens = .ok d

theorem wasRead_of_readPlain (h : readPlain group = .ok statements) {s : ScriptStatement}
    (hs : s ∈ statements) : WasRead s := by
  unfold readPlain at h
  split at h
  · rename_i read hread
    cases h
    obtain ⟨statement, hstatement, rfl⟩ := List.mem_map.mp hs
    exact ⟨⟨group, read, hread, hstatement⟩, fun d hd => by cases hd⟩
  · cases h

theorem wasRead_attach {d : Distribution} (hd : Distribution.ofTokens tokens = .ok d)
    (h : ∀ s ∈ statements, WasRead s) : ∀ s ∈ attach d statements, WasRead s := by
  fun_induction attach d statements with
  | case1 => exact h
  | case2 s =>
    refine List.forall_mem_singleton.mpr ⟨(h s List.mem_cons_self).statement, fun d' hd' => ?_⟩
    cases hd'
    exact ⟨tokens, hd⟩
  | case3 s rest _ ih =>
    obtain ⟨hs, hrest⟩ := List.forall_mem_cons.mp h
    exact List.forall_mem_cons.mpr ⟨hs, ih hrest⟩

theorem wasRead_of_readGroup (h : readGroup dialect group = .ok statements) :
    ∀ s ∈ statements, WasRead s := by
  unfold readGroup at h
  split at h
  · exact fun s hs => wasRead_of_readPlain h hs
  · split at h
    · rename_i d hd
      obtain ⟨read, hread, rfl⟩ := map_eq_ok.mp h
      exact wasRead_attach hd fun s hs => wasRead_of_readPlain hread hs
    · split at h
      · rename_i hread
        cases h
        exact fun s hs => wasRead_of_readPlain hread hs
      · cases h

theorem wasRead_of_parse {folding : Bool} {sql : String}
    (h : parse dialect folding sql = .ok statements) {s : ScriptStatement} (hs : s ∈ statements) :
    WasRead s := by
  obtain ⟨group, found, hfound, hs⟩ := exists_readGroup_of_mem (parse_eq_ok_iff.mp h).2 hs
  exact wasRead_of_readGroup hfound s hs

/-- A script that is read without distributions is read alike with them, and without giving a table
one, exactly if none of its groups that start with `CREATE` ends in what reads as a clause. -/
theorem parse_greenplum_eq_iff {folding : Bool} {sql : String} {statements : List ScriptStatement}
    (h : parse .postgresql folding sql = .ok statements) :
    (∀ s ∈ statements, s.distribution = none) ∧
      (parse .greenplum folding sql = .ok statements ↔
        ∀ group ∈ textGroups folding sql, ¬ EndsInClause group) := by
  obtain ⟨hscan, hread⟩ := parse_eq_ok_iff.mp h
  have hnone := readGroups_undistributed hread
  refine ⟨hnone, ?_, ?_⟩
  · intro hfound group hgroup hends
    obtain ⟨-, hfound⟩ := parse_eq_ok_iff.mp hfound
    have hlength := length_lt_of_endsInClause (fun g hg => opened_of_mem_textGroups hg) hread hfound
      hnone
    exact Nat.lt_irrefl _ (hlength.2 ⟨group, hgroup, hends⟩)
  · intro hclauses
    exact parse_eq_ok_iff.mpr ⟨hscan, readGroups_greenplum hread hclauses⟩

/-- A script whose column is named like the word that opens a clause. -/
def distributedColumn : String :=
  "CREATE TABLE t AS SELECT distributed FROM s"

/-- A script whose table is named like that word, with an alias that makes a clause of it. -/
def distributedTable : String :=
  "CREATE TABLE t AS SELECT a FROM distributed randomly"

/-- The column is read alike in both dialects. The table is taken for a clause, and what is left
cannot be read. -/
theorem parse_greenplum_eq_iff_distributed :
    ∃ column table,
      parse .postgresql false distributedColumn = .ok column ∧
      parse .greenplum false distributedColumn = .ok column ∧
      (∀ group ∈ textGroups false distributedColumn, ¬ EndsInClause group) ∧
      parse .postgresql false distributedTable = .ok table ∧
      parse .greenplum false distributedTable ≠ .ok table ∧
      ¬ ∀ group ∈ textGroups false distributedTable, ¬ EndsInClause group := by
  have hruns : (parse .postgresql false distributedColumn).isOk ∧
      (textGroups false distributedColumn).all (fun group =>
        (clause? .greenplum group).all fun split => !(Distribution.ofTokens split.2).isOk) ∧
      (parse .postgresql false distributedTable).isOk ∧
      (parse .greenplum false distributedTable).isOk = false := by
    decide +kernel
  obtain ⟨hcolumn, hnone, htable, hfails⟩ := hruns
  have hcolumn := eq_ok_getD (a := []) hcolumn
  have htable := eq_ok_getD (a := []) htable
  have hnone : ∀ group ∈ textGroups false distributedColumn, ¬ EndsInClause group := by
    intro group hgroup hends
    obtain ⟨before, behind, d, hsplit, hd⟩ := endsInClause_iff.mp hends
    have hreads := List.all_eq_true.mp hnone group hgroup
    rw [hsplit, Option.all_some, hd] at hreads
    cases hreads
  have hfails : parse .greenplum false distributedTable ≠
      .ok ((parse .postgresql false distributedTable).toOption.getD []) := by
    intro h
    rw [h] at hfails
    cases hfails
  refine ⟨_, _, hcolumn, (parse_greenplum_eq_iff hcolumn).2.mpr hnone, hnone, htable, hfails, ?_⟩
  exact fun hclauses => hfails ((parse_greenplum_eq_iff htable).2.mpr hclauses)

end ColumnLineage.Script
