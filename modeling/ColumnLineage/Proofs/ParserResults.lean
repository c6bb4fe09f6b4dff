import ColumnLineage.Proofs.ParserRuns
import ColumnLineage.Proofs.Standing

/-!
# What parsers read

`Parser.Yields p P` says that whatever `p` reads has the property `P`. It follows step by step: from
what the steps of a parser yield, from both branches of a choice, and through repetition. The first
use is that every table in an expression that is read has a name, if it has one in the queries that
stand in it.
-/

namespace ColumnLineage

/-! ## Named tables -/

/-- All tables among parts have a name with at least one part. -/
def Named (parts : List Part) : Prop :=
  ∀ name label, .table name label ∈ parts → name.parts ≠ []

@[simp] theorem named_nil : Named [] := by
  intro name label h
  cases h

@[simp] theorem named_append {as bs : List Part} : Named (as ++ bs) ↔ Named as ∧ Named bs := by
  simp only [Named, List.mem_append, or_imp, forall_and]

@[simp] theorem named_cons_query {q : Query} {parts : List Part} :
    Named (.query q :: parts) ↔ Named parts := by
  simp [Named]

@[simp] theorem named_cons_table {name : ObjectName} {label : Option TableAlias}
    {parts : List Part} : Named (.table name label :: parts) ↔ name.parts ≠ [] ∧ Named parts := by
  simp only [Named, List.mem_cons, Part.table.injEq]
  constructor
  · exact fun h => ⟨h name label (Or.inl ⟨rfl, rfl⟩), fun name' label' h' => h name' label' (Or.inr h')⟩
  · rintro ⟨hname, hrest⟩ name' label' (⟨rfl, rfl⟩ | h)
    · exact hname
    · exact hrest name' label' h

theorem named_list {α : Type} {parts : α → List Part} {partsList : List α → List Part}
    (hnil : partsList [] = []) (hcons : ∀ a as, partsList (a :: as) = parts a ++ partsList as)
    {as : List α} : Named (partsList as) ↔ ∀ a ∈ as, Named (parts a) := by
  induction as with
  | nil => simp [hnil]
  | cons a as ih => simp [hcons, ih]

@[simp] theorem named_exprs {es : List Expr} :
    Named (Expr.partsList es) ↔ ∀ e ∈ es, Named e.parts :=
  named_list (by rw [Expr.partsList]) (by intros; rw [Expr.partsList])

@[simp] theorem named_exprLists {ess : List (List Expr)} :
    Named (Expr.partsLists ess) ↔ ∀ es ∈ ess, ∀ e ∈ es, Named e.parts := by
  have h := @named_list _ Expr.partsList Expr.partsLists (by rw [Expr.partsLists])
    (by intros; rw [Expr.partsLists]) ess
  simpa only [named_exprs] using h

@[simp] theorem named_option {e : Option Expr} :
    Named (Expr.partsOption e) ↔ ∀ a ∈ e, Named a.parts := by
  cases e <;> simp [Expr.partsOption]

@[simp] theorem named_arguments {as : List Argument} :
    Named (Argument.partsList as) ↔ ∀ a ∈ as, Named a.parts :=
  named_list (by rw [Argument.partsList]) (by intros; rw [Argument.partsList])

@[simp] theorem named_order {os : List OrderItem} :
    Named (OrderItem.partsList os) ↔ ∀ o ∈ os, Named o.parts :=
  named_list (by rw [OrderItem.partsList]) (by intros; rw [OrderItem.partsList])

namespace Parser

variable {α β : Type}

/-! ## Properties of what is read -/

/-- Whatever a parser reads has a property. -/
def Yields (p : Parser α) (P : α → Prop) : Prop :=
  ∀ tokens a rest, p tokens = .ok a rest → P a

namespace Yields

variable {p q : Parser α} {f : α → Parser β} {P Q : α → Prop} {R : β → Prop}

protected theorem pure {a : α} (h : P a) : Yields (pure a) P := by
  intro tokens b rest hp
  obtain ⟨rfl, -⟩ := pure_eq_ok.mp hp
  exact h

protected theorem bind (hp : Yields p P) (hf : ∀ a, P a → Yields (f a) R) :
    Yields (p >>= f) R := by
  intro tokens b rest h
  obtain ⟨a, mid, ha, hb⟩ := bind_eq_ok.mp h
  exact hf a (hp tokens a mid ha) mid b rest hb

protected theorem step (hf : ∀ a, Yields (f a) R) : Yields (p >>= f) R := by
  intro tokens b rest h
  obtain ⟨a, mid, -, hb⟩ := bind_eq_ok.mp h
  exact hf a mid b rest hb

protected theorem ite {c : Prop} [Decidable c] (hp : Yields p P) (hq : Yields q P) :
    Yields (if c then p else q) P := by
  split
  · exact hp
  · exact hq

protected theorem test {c : Parser Bool} (hp : Yields p P) (hq : Yields q P) :
    Yields (c >>= fun b => if b = true then p else q) P :=
  .step fun _ => .ite hp hq

/-- What follows all branches of a choice is looked at once. -/
protected theorem shared {r : Parser β} (hf : ∀ a, P a → Yields (f a) R)
    (h : (∀ a, P a → Yields (f a) R) → Yields r R) : Yields r R :=
  h hf

protected theorem throw (e : ParseError) : Yields (throw e) P := by
  intro tokens a rest h
  cases h

protected theorem expected (what : String) : Yields (expected what) P :=
  .step fun _ => .throw _

protected theorem attempt? (hp : Yields p P) : Yields (attempt? p) fun a => ∀ b ∈ a, P b := by
  intro tokens a rest h b hb
  obtain rfl := Option.mem_def.mp hb
  unfold Parser.attempt? at h
  split at h
  · rename_i a' rest' ha
    cases h
    exact hp tokens b rest ha
  · cases h
  · cases h

protected theorem orElse (hp : Yields p P) (hq : Yields q P) : Yields (orElse p q) P := by
  intro tokens a rest h
  unfold Parser.orElse at h
  split at h
  · rename_i ha
    cases h
    exact hp _ _ _ ha
  · split at h
    · rename_i ha
      cases h
      exact hq _ _ _ ha
    · cases h

protected theorem sharing {k : Parser α → Parser β} (hp : Yields p P)
    (hk : ∀ first, Yields first P → Yields (k first) R) : Yields (sharing p k) R := by
  intro tokens b rest h
  exact hk _ (fun _ a rest' ha => hp tokens a rest' ha) tokens b rest h

/-! ### Repetition -/

protected theorem loop {step : α → Parser (Option α)}
    (hstep : ∀ a, P a → Yields (step a) fun b => ∀ c ∈ b, P c) {a : α} (ha : P a) :
    Yields (loop step a) P :=
  .step fun _ _ _ _ h => iterate_keeps
    (fun {a b tokens rest} ha hb => hstep a ha tokens (some b) rest hb b rfl) ha h

protected theorem separated {separator : Parser Bool} (hp : Yields p P) :
    Yields (separated separator p) fun as => ∀ a ∈ as, P a := by
  refine .bind hp fun first hfirst => .bind (P := fun as => ∀ a ∈ as, P a) (.loop ?_ (by simp)) ?_
  · intro as has
    refine .test (.bind hp fun a ha => .pure ?_) (.pure (by simp))
    rintro _ ⟨⟩
    exact List.forall_mem_cons.mpr ⟨ha, has⟩
  · intro more hmore
    exact .pure (by simpa using ⟨hfirst, hmore⟩)

protected theorem commaList (hp : Yields p P) : Yields (commaList p) fun as => ∀ a ∈ as, P a :=
  .separated hp

protected theorem parenthesized (hp : Yields p P) : Yields (parenthesized p) P :=
  .step fun _ => .bind hp fun _ ha => .step fun _ => .pure ha

protected theorem behind? (k : String) (hp : Yields p P) :
    Yields (behind? k p) fun a => ∀ b ∈ a, P b :=
  .test (.bind hp fun a ha => .pure (by simpa using ha)) (.pure (by simp))

end Yields

theorem yields_objectName : Yields objectName fun name => name.parts ≠ [] := by
  refine .bind (P := fun parts => parts ≠ []) ?_ fun _ h => .pure h
  exact .step fun _ => .step fun _ => .pure (List.cons_ne_nil _ _)

end Parser

/-- The parsers for what stands one level deeper read named tables. -/
structure Grammar.Named (g : Grammar) : Prop where
  query : Parser.Yields g.query fun q => ColumnLineage.Named q.parts
  expr : ∀ power, Parser.Yields (g.expr power) fun e => ColumnLineage.Named e.parts

theorem Grammar.Named.whole {g : Grammar} (hg : g.Named) :
    Parser.Yields g.whole fun e => ColumnLineage.Named e.parts :=
  hg.expr 0

variable {inner : Parser Expr} {left : Expr}

namespace Parser

variable {g : Grammar}

/-! ## Calls -/

/-- The parts of an expression or a star. -/
def Starred.parts : Starred → List Part
  | .expr e => e.parts
  | .star => []
  | .starOf _ => []

theorem yields_starred {whole : Parser Expr} (h : Yields whole fun e => Named e.parts) :
    Yields (starred whole) fun s => Named s.parts := by
  have hexpr : Yields (do return Starred.expr (← whole)) fun s => Named s.parts :=
    .bind h fun e he => .pure he
  refine .step fun tokens => .test (.pure named_nil) (.step fun first => ?_)
  cases first with
  | none => exact hexpr
  | some first =>
    refine .step fun name => ?_
    cases name with
    | none => exact .step fun _ => hexpr
    | some name => exact .pure named_nil

theorem yields_orderItem (hg : g.Named) : Yields (orderItem g) fun o => Named o.parts :=
  .bind hg.whole fun e he => .step fun _ => .step fun _ => .pure (by simpa [OrderItem.parts])

theorem yields_orderBy? (hg : g.Named) : Yields (orderBy? g) fun os => ∀ o ∈ os, Named o.parts :=
  .test (.commaList (yields_orderItem hg)) (.pure (by simp))

theorem yields_argumentValue {whole : Parser Expr} (h : Yields whole fun e => Named e.parts) :
    Yields (argumentValue whole) fun a => Named a.parts := by
  refine .bind (yields_starred h) fun s hs => ?_
  cases s with
  | expr e => exact .pure (by simpa [ArgumentValue.parts, Starred.parts] using hs)
  | star => exact .pure (by simp [ArgumentValue.parts])
  | starOf name => exact .pure (by simp [ArgumentValue.parts])

theorem yields_argument (hg : g.Named) : Yields (argument g) fun a => Named a.parts := by
  refine .sharing hg.whole fun first hfirst => .bind (.attempt? (P := fun a => Named a.parts) ?_) ?_
  · exact .bind hfirst fun name hname => .step fun _ =>
      .bind (yields_argumentValue hg.whole) fun value hvalue =>
        .pure (by simpa [Argument.parts] using ⟨hname, hvalue⟩)
  · intro named hnamed
    cases named with
    | none =>
      exact .bind (yields_argumentValue hfirst) fun value hvalue =>
        .pure (by simpa [Argument.parts] using hvalue)
    | some a => exact .pure (hnamed a rfl)

theorem yields_arguments (hg : g.Named) :
    Yields (arguments g) fun as => ∀ a ∈ as, Named a.parts :=
  .test (.pure (by simp)) (.bind (.commaList (yields_argument hg)) fun as has =>
    .step fun _ => .pure has)

theorem yields_filler? (hg : g.Named) : Yields (filler? g) fun e => ∀ a ∈ e, Named a.parts :=
  .test (.pure (by simp)) (.step fun _ => .ite
    (.bind hg.whole fun e he => .pure (by simpa using he)) (.expected _))

theorem yields_overflow? (hg : g.Named) :
    Yields (overflow? g) fun o => ∀ a ∈ o.2, Named a.parts := by
  refine .test (.test (.pure (by simp)) ?_) (.pure (by simp))
  refine .step fun _ => .bind (yields_filler? hg) fun filler hfiller => .step fun withCount => ?_
  exact .ite (.step fun _ => .pure hfiller)
    (.test (.step fun _ => .pure hfiller) (.step fun _ => .step fun _ => .pure hfiller))

theorem yields_callArguments (hg : g.Named) :
    Yields (callArguments g) fun a => Named a.parts := by
  refine .step fun before => .test (.pure (by simp [Arguments.parts])) (.step fun duplicates => ?_)
  refine .bind (.commaList (yields_argument hg)) fun items hitems =>
    .bind (yields_orderBy? hg) fun orderBy horder =>
    .bind (.behind? _ hg.whole) fun limit hlimit =>
    .bind (yields_overflow? hg) fun overflow hoverflow => ?_
  exact .step fun behind => .step fun _ =>
    .pure (by simpa [Arguments.parts, and_assoc] using ⟨hitems, horder, hlimit, hoverflow⟩)

theorem yields_boundAmount (hg : g.Named) : Yields (boundAmount g) fun e => Named e.parts := by
  refine .step fun tokens => ?_
  split
  · refine .step fun _ => .shared (P := fun e => Named e.parts) ?_ fun hunits => .test
      (.step fun _ => .bind (.pure (by simp [Expr.parts])) hunits)
      (.bind (.pure (by simp [Expr.parts])) hunits)
    exact fun e he => .step fun _ => .pure (by simpa [Expr.parts] using he)
  · exact hg.whole

theorem yields_bound (hg : g.Named) : Yields (bound g) fun b => Named b.parts := by
  refine .test (.pure (by simp [Bound.parts])) <|
    .shared (P := fun rows => ∀ e ∈ rows, Named e.parts) ?_ fun hside => .test
      (.bind (.pure (by simp)) hside)
      (.bind (yields_boundAmount hg) fun e he => .bind (.pure (by simpa using he)) hside)
  exact fun rows hrows => .test (.pure (by simpa [Bound.parts] using hrows))
    (.test (.pure (by simpa [Bound.parts] using hrows)) (.expected _))

theorem yields_frame (hg : g.Named) : Yields (frame g) fun f => Named f.parts := by
  refine .step fun unit => .test ?_ ?_
  · exact .bind (yields_bound hg) fun first hfirst => .step fun _ =>
      .bind (yields_bound hg) fun last hlast =>
        .pure (by simpa [Frame.parts] using ⟨hfirst, hlast⟩)
  · exact .bind (yields_bound hg) fun first hfirst => .pure (by simpa [Frame.parts] using hfirst)

theorem yields_windowSpec (hg : g.Named) : Yields (windowSpec g) fun w => Named w.parts := by
  refine .step fun base => .shared ?_ fun horder =>
    .test (.bind (.commaList hg.whole) horder) (.bind (.pure (by simp)) horder)
  intro partitionBy hpartition
  refine .bind (yields_orderBy? hg) fun orderBy horder => .test ?_ ?_
  · exact .pure (by simpa [Window.parts, Frame.parts] using ⟨hpartition, horder⟩)
  · exact .bind (yields_frame hg) fun f hf => .step fun _ =>
      .pure (by simpa [Window.parts, and_assoc] using ⟨hpartition, horder, hf⟩)

theorem yields_window? (hg : g.Named) : Yields (window? g) fun w => Named w.parts :=
  .test (.test (yields_windowSpec hg) (.step fun _ => .pure (by simp [Window.parts])))
    (.pure (by simp [Window.parts]))

theorem yields_withinGroup? (hg : g.Named) :
    Yields (withinGroup? g) fun os => ∀ o ∈ os, Named o.parts :=
  .test (.step fun _ => .step fun _ => .step fun _ =>
    .bind (.commaList (yields_orderItem hg)) fun items hitems => .step fun _ => .pure hitems)
    (.pure (by simp))

theorem yields_filter? (hg : g.Named) : Yields (filter? g) fun e => ∀ a ∈ e, Named a.parts :=
  .test (.test (.test (.bind hg.whole fun e he => .step fun _ => .pure (by simpa using he))
    (.pure (by simp))) (.pure (by simp))) (.pure (by simp))

theorem yields_call (hg : g.Named) (name : ObjectName) :
    Yields (call g name) fun e => Named e.parts :=
  .bind (yields_callArguments hg) fun arguments harguments =>
    .bind (yields_withinGroup? hg) fun withinGroup hgroup =>
    .bind (yields_filter? hg) fun filter hfilter => .step fun nulls =>
    .bind (yields_window? hg) fun window hwindow =>
      .pure (by simpa [Expr.parts, and_assoc] using ⟨harguments, hfilter, hwindow, hgroup⟩)

/-! ## Primary expressions -/

theorem yields_nameOrCall (hg : g.Named) (w : Word) :
    Yields (nameOrCall g w) fun e => Named e.parts := by
  refine .step fun tokens => ?_
  split
  · exact .step fun _ => .pure (by simp [Expr.parts])
  · exact .step fun _ => .pure (by simp [Expr.parts])
  · refine .step fun read => .ite (.pure (by simp [Expr.parts])) (.test (yields_call hg _) ?_)
    split <;> exact .pure (by simp [Expr.parts])

theorem yields_interval (h : Yields inner fun e => Named e.parts) :
    Yields (interval inner) fun e => Named e.parts :=
  .bind h fun e he => .step fun _ => .pure (by simpa [Expr.parts] using he)

theorem yields_caseBranches (hg : g.Named) : Yields (caseBranches g) fun b =>
    (∀ e ∈ b.1, Named e.parts) ∧ ∀ e ∈ b.2, Named e.parts := by
  refine .bind hg.whole fun condition hcondition => .step fun _ =>
    .bind hg.whole fun result hresult => .loop ?_ (by simpa using ⟨hcondition, hresult⟩)
  rintro ⟨conditions, results⟩ ⟨hconditions, hresults⟩
  refine .test ?_ (.pure (by simp))
  exact .bind hg.whole fun condition hcondition => .step fun _ =>
    .bind hg.whole fun result hresult =>
      .pure (by simpa using ⟨⟨hcondition, hconditions⟩, hresult, hresults⟩)

theorem yields_caseForm (hg : g.Named) : Yields (caseForm g) fun e => Named e.parts := by
  refine .shared (P := fun operand => ∀ e ∈ operand, Named e.parts) ?_ fun hbranches => .test
    (.bind (.pure (by simp)) hbranches)
    (.bind hg.whole fun e he => .step fun _ => .bind (.pure (by simpa using he)) hbranches)
  intro operand hoperand
  refine .bind (yields_caseBranches hg) fun branches hbranches =>
    .bind (.behind? _ hg.whole) fun otherwise hotherwise => .step fun _ => .pure ?_
  simpa [Expr.parts, and_assoc] using ⟨hoperand, hbranches.1, hbranches.2, hotherwise⟩

theorem yields_convertForm (hg : g.Named) : Yields (convertForm g) fun e => Named e.parts := by
  refine .parenthesized (.bind hg.whole fun e he => ?_)
  have hunary : ∀ form, Named (Expr.unary form e).parts := fun form => by simpa [Expr.parts] using he
  exact .test (.step fun _ => .pure (hunary _)) (.step fun _ => .step fun _ =>
    .test (.step fun _ => .step fun _ => .pure (hunary _)) (.step fun _ => .pure (hunary _)))

theorem yields_castForm (hg : g.Named) (kind : CastKind) :
    Yields (castForm g kind) fun e => Named e.parts :=
  .parenthesized (.bind hg.whole fun e he => .step fun _ => .step fun _ => .step fun _ =>
    .pure (by simpa [Expr.parts] using he))

theorem yields_existsForm (hg : g.Named) (negated : Bool) :
    Yields (existsForm g negated) fun e => Named e.parts :=
  .parenthesized (.bind hg.query fun q hq => .pure (by simpa [Expr.parts] using hq))

theorem yields_extractForm (hg : g.Named) : Yields (extractForm g) fun e => Named e.parts := by
  refine .parenthesized (.step fun field => .test ?source (.step fun _ => .step fun _ => ?source))
  exact .bind hg.whole fun e he => .pure (by simpa [Expr.parts] using he)

theorem yields_roundForm (hg : g.Named) (name : String) :
    Yields (roundForm g name) fun e => Named e.parts := by
  refine .parenthesized (.bind hg.whole fun e he => ?_)
  have hunary : ∀ form, Named (Expr.unary form e).parts := fun form => by simpa [Expr.parts] using he
  refine .test (.step fun _ => .pure (hunary _)) (.test (.step fun value => ?_) (.pure (hunary _)))
  split
  · exact .pure (hunary _)
  · exact .throw _

theorem yields_positionForm (hg : g.Named) (w : Word) :
    Yields (positionForm g w) fun e => Named e.parts := by
  refine .bind (.attempt? (P := fun e => Named e.parts) (.parenthesized ?_)) fun position h => ?_
  · exact .bind (hg.expr _) fun e he => .step fun _ =>
      .bind hg.whole fun inside hin => .pure (by simpa [Expr.parts] using ⟨he, hin⟩)
  · cases position with
    | some e => exact .pure (h e rfl)
    | none => exact .step fun _ => yields_call hg _

theorem yields_substringForm (hg : g.Named) : Yields (substringForm g) fun e => Named e.parts := by
  refine .parenthesized <| .bind hg.whole fun e he => .step fun commaStyle =>
    .shared (P := fun start => ∀ a ∈ start, Named a.parts) ?_ fun hlength => .ite
      (.bind hg.whole fun a ha => .bind (.pure (by simpa using ha)) hlength)
      (.bind (.behind? _ hg.whole) hlength)
  intro start hstart
  refine .shared (P := fun length => ∀ a ∈ length, Named a.parts) ?_ fun hlast => .test
    (.bind hg.whole fun a ha => .bind (.pure (by simpa using ha)) hlast)
    (.bind (.behind? _ hg.whole) hlast)
  exact fun length hlength => .pure (by simpa [Expr.parts, and_assoc] using ⟨he, hstart, hlength⟩)

theorem yields_overlayForm (hg : g.Named) : Yields (overlayForm g) fun e => Named e.parts :=
  .parenthesized (.bind hg.whole fun e he => .step fun _ => .bind hg.whole fun new hnew =>
    .step fun _ => .bind hg.whole fun start hstart => .bind (.behind? _ hg.whole)
      fun length hlength =>
        .pure (by simpa [Expr.parts, and_assoc] using ⟨he, hnew, hstart, hlength⟩))

theorem yields_trimForm (hg : g.Named) : Yields (trimForm g) fun e => Named e.parts :=
  .parenthesized (.step fun side => .bind hg.whole fun e he => .test
    (.bind hg.whole fun operand hoperand => .pure (by simpa [Expr.parts] using ⟨hoperand, he⟩))
    (.step fun _ => .pure (by simpa [Expr.parts] using he)))

theorem yields_arrayItems (hg : g.Named) (named : Bool) :
    Yields (arrayItems g named) fun e => Named e.parts :=
  .test (.pure (by simp [Expr.parts])) (.bind (.commaList hg.whole) fun items hitems =>
    .step fun _ => .pure (by simpa [Expr.parts] using hitems))

theorem yields_notForm (hg : g.Named) : Yields (notForm g) fun e => Named e.parts :=
  .test (yields_existsForm hg true)
    (.bind (hg.expr _) fun e he => .pure (by simpa [Expr.parts] using he))

theorem named_plainCall {name : Ident} {arguments : Arguments} :
    Named (plainCall name arguments).parts ↔ Named arguments.parts := by
  have hparts : (plainCall name arguments).parts = arguments.parts ++ [] ++ [] ++ [] := rfl
  simp only [hparts, List.append_nil]

theorem yields_timeCall (hg : g.Named) (w : Word) :
    Yields (timeCall g w) fun e => Named e.parts :=
  .test (.bind (yields_callArguments hg) fun arguments harguments =>
    .pure (named_plainCall.mpr harguments)) (.pure (named_plainCall.mpr (by simp [Arguments.parts])))

theorem yields_keywordForm? (hg : g.Named) (hinner : Yields inner fun e => Named e.parts) {w : Word}
    {rest : List Token} {form : Parser Expr} (h : keywordForm? g inner w rest = some form) :
    Yields form fun e => Named e.parts := by
  have hsome : ∀ {p : Parser Expr}, Yields p (fun e => Named e.parts) → some p = some form →
      Yields form fun e => Named e.parts := by
    rintro p hp ⟨⟩
    exact hp
  have hconstant : ∀ value, Yields (pure (Expr.literal value)) fun e => Named e.parts :=
    fun value => .pure (by simp [Expr.parts])
  have hplain : Yields (pure (plainCall w.ident .absent)) fun e => Named e.parts :=
    .pure (named_plainCall.mpr (by simp [Arguments.parts]))
  unfold keywordForm? at h
  dsimp only at h
  split at h
  -- The constants.
  · exact hsome (hconstant _) h
  · exact hsome (hconstant _) h
  · exact hsome (hconstant _) h
  -- The functions of the session, which have no arguments, and those of the time.
  · exact hsome hplain h
  · exact hsome hplain h
  · exact hsome hplain h
  · exact hsome hplain h
  · exact hsome (yields_timeCall hg w) h
  · exact hsome (yields_timeCall hg w) h
  · exact hsome (yields_timeCall hg w) h
  · exact hsome (yields_timeCall hg w) h
  · exact hsome (yields_timeCall hg w) h
  -- The forms with words of their own.
  · exact hsome (yields_caseForm hg) h
  · exact hsome (yields_convertForm hg) h
  · exact hsome (yields_castForm hg _) h
  · exact hsome (yields_castForm hg _) h
  · exact hsome (yields_castForm hg _) h
  · exact hsome (yields_existsForm hg _) h
  · exact hsome (yields_extractForm hg) h
  · exact hsome (yields_roundForm hg _) h
  · exact hsome (yields_roundForm hg _) h
  · split at h
    · exact hsome (yields_positionForm hg w) h
    · cases h
  · exact hsome (yields_substringForm hg) h
  · exact hsome (yields_overlayForm hg) h
  · exact hsome (yields_trimForm hg) h
  · exact hsome (yields_interval hinner) h
  · split at h
    · exact hsome (.step fun _ => yields_arrayItems hg _) h
    · split at h
      · refine hsome (.bind (.parenthesized hg.query) fun q hq => .pure ?_) h
        exact named_plainCall.mpr (by simpa [Arguments.parts] using hq)
      · cases h
  · exact hsome (yields_notForm hg) h
  · cases h

theorem yields_collated {e : Expr} (he : Named e.parts) :
    Yields (collated e) fun e => Named e.parts :=
  .test (.step fun _ => .pure (by simpa [Expr.parts] using he)) (.pure he)

theorem yields_wordForm (hg : g.Named) (hinner : Yields inner fun e => Named e.parts) (w : Word) :
    Yields (wordForm g inner w) fun e => Named e.parts := by
  refine .step fun tokens => ?_
  split
  · exact .bind (yields_nameOrCall hg w) fun e he => yields_collated he
  · rename_i form hform
    have hyields := yields_keywordForm? hg hinner hform
    refine .shared (P := fun read => Named read.1.parts) ?_ fun hread => .ite
      (.bind hyields fun e he => .bind (.pure he) hread)
      (.bind (.orElse (.bind hyields fun _ he => .pure he)
        (.bind (yields_nameOrCall hg w) fun _ he => .pure he)) hread)
    exact fun read hread => .ite (yields_collated hread) (.pure hread)

theorem yields_typedConstant (hinner : Yields inner fun e => Named e.parts) :
    Yields (typedConstant inner) fun e => Named e.parts := by
  refine .step fun type => ?_
  split
  · exact yields_interval hinner
  · exact .expected _
  · exact .step fun _ => .pure (by simp [Expr.parts])

theorem yields_parens (hg : g.Named) : Yields (parens g) fun e => Named e.parts := by
  refine .shared (P := fun e => Named e.parts) ?closed fun hclosed => .test
    (.bind hg.query fun q hq => .bind (.pure (by simpa [Expr.parts] using hq)) hclosed)
    (.bind (.commaList hg.whole) fun items hitems => ?items)
  case closed =>
    refine fun e he => .step fun _ => .test (.step fun found => ?_) (.pure he)
    split
    · exact .pure (by simpa [Expr.parts] using he)
    · exact .throw _
  case items =>
    split
    · exact .bind (.pure (by simpa [Expr.parts] using hitems)) hclosed
    · exact .bind (.pure (by simpa [Expr.parts] using hitems)) hclosed

theorem yields_bracedCall (hg : g.Named) : Yields (bracedCall g) fun e => Named e.parts := by
  refine .bind (.attempt? (P := fun e => Named e.parts) ?_) fun read hread => ?_
  · exact .step fun _ => .step fun name => .step fun _ => yields_call hg name
  · cases read with
    | none => exact .throw _
    | some e => exact .step fun _ => .pure (by simpa [Expr.parts] using hread)

theorem yields_symbolForm (hg : g.Named) : Yields (symbolForm g) fun e => Named e.parts := by
  have hconstant : Yields (do return Expr.literal (← constant)) fun e => Named e.parts :=
    .step fun value => .pure (by simp [Expr.parts])
  refine .step fun tokens => .step fun found => ?_
  split
  · exact yields_parens hg
  · exact yields_arrayItems hg _
  · exact yields_bracedCall hg
  · split
    · exact .bind (hg.expr _) fun e he => .pure (by simpa [Expr.parts] using he)
    · exact .ite (.step fun _ => hconstant) (.throw _)
  · exact .throw _
  · exact .step fun _ => hconstant

theorem yields_primaryForm (hg : g.Named) (hinner : Yields inner fun e => Named e.parts) :
    Yields (primaryForm g inner) fun e => Named e.parts := by
  refine .bind (.attempt? (yields_typedConstant hinner)) fun typed htyped => ?_
  cases typed with
  | some e => exact .pure (htyped e rfl)
  | none =>
    refine .step fun tokens => ?_
    split
    · exact .step fun _ => yields_wordForm hg hinner _
    · exact .bind (yields_symbolForm hg) fun e he => yields_collated he

theorem yields_primaryWithin (hg : g.Named) :
    (n : Nat) → Yields (primaryWithin g n) fun e => Named e.parts
  | 0 => .throw _
  | n + 1 => yields_primaryForm hg (yields_primaryWithin hg n)

theorem yields_primary (hg : g.Named) : Yields (primary g) fun e => Named e.parts :=
  .step fun _ => yields_primaryWithin hg _

/-! ## Operators -/

theorem yields_isForm (hg : g.Named) (hleft : Named left.parts) :
    Yields (isForm g left) fun e => Named e.parts := by
  have hunary : ∀ form, Yields (pure (Expr.unary form left)) fun e => Named e.parts :=
    fun form => .pure (by simpa [Expr.parts] using hleft)
  have hbinary : ∀ form, Yields (do return Expr.binary form left (← g.whole))
      fun e => Named e.parts :=
    fun form => .bind hg.whole fun e he => .pure (by simpa [Expr.parts] using ⟨hleft, he⟩)
  exact .test (hunary _) <| .test (hunary _) <| .test (hunary _) <| .test (hunary _) <|
    .test (hunary _) <| .test (hunary _) <| .test (hunary _) <| .test (hunary _) <|
    .test (hbinary _) <| .test (hbinary _) <| .expected _

theorem yields_inForm (hg : g.Named) (negated : Bool) (hleft : Named left.parts) :
    Yields (inForm g negated left) fun e => Named e.parts := by
  refine .test ?_ (.parenthesized (.test ?_ ?_))
  · exact .bind (.parenthesized hg.whole) fun e he =>
      .pure (by simpa [Expr.parts] using ⟨hleft, he⟩)
  · exact .bind hg.query fun q hq => .pure (by simpa [Expr.parts] using ⟨hleft, hq⟩)
  · exact .bind (.commaList hg.whole) fun es hes => .pure (by simpa [Expr.parts] using ⟨hleft, hes⟩)

theorem yields_matchForm (hg : g.Named) (negated : Bool) (pattern : Pattern)
    (hleft : Named left.parts) :
    Yields (matchForm g negated pattern left) fun e => Named e.parts := by
  refine .ite (.step ?right) (.step ?right)
  exact fun any => .bind (hg.expr _) fun right hright => .step fun _ =>
    .pure (by simpa [Expr.parts] using ⟨hleft, hright⟩)

theorem yields_rangeForm (hg : g.Named) (hleft : Named left.parts) :
    Yields (rangeForm g left) fun e => Named e.parts := by
  refine .step fun negated => .step fun pattern => ?_
  split
  · exact .bind (hg.expr _) fun right hright =>
      .pure (by simpa [Expr.parts] using ⟨hleft, hright⟩)
  · refine .test (yields_inForm hg negated hleft) <| .test ?_ <|
      .test (yields_matchForm hg negated _ hleft) <| .test (yields_matchForm hg negated _ hleft) <|
      .test (yields_matchForm hg negated _ hleft) <| .expected _
    exact .bind (hg.expr _) fun low hlow => .step fun _ => .bind (hg.expr _) fun high hhigh =>
      .pure (by simpa [Expr.parts, and_assoc] using ⟨hleft, hlow, hhigh⟩)

theorem yields_rangeOperand (hg : g.Named) (power : Nat) :
    Yields (rangeOperand g power) fun e => Named e.parts :=
  .step fun _ => .step fun _ => .test (.step fun _ => hg.expr power)
    (.bind (hg.expr power) fun _ hright => .step fun _ => .pure hright)

theorem yields_operatorForm (hg : g.Named) (op : String) (power : Nat) (hleft : Named left.parts) :
    Yields (operatorForm g op power left) fun e => Named e.parts := by
  refine .step fun range => ?_
  cases range with
  | none =>
    exact .bind (hg.expr _) fun right hright =>
      .pure (by simpa [Expr.parts] using ⟨hleft, hright⟩)
  | some range =>
    refine .bind (yields_rangeOperand hg power) fun _ hright => .ite (.pure ?_) (.throw _)
    simpa [Expr.parts] using ⟨hleft, hright⟩

theorem yields_sliceForm (hg : g.Named) (hleft : Named left.parts) {lower : Option Expr}
    (hlower : ∀ e ∈ lower, Named e.parts) :
    Yields (sliceForm g left lower) fun e => Named e.parts := by
  refine .test (.pure (by simpa [Expr.parts] using ⟨hleft, hlower⟩)) ?_
  refine .bind hg.whole fun upper hupper => ?_
  have hslice : Named (left.slice lower (some upper) none).parts := by
    simpa [Expr.parts, and_assoc] using ⟨hleft, hlower, hupper⟩
  refine .test (.pure hslice) (.step fun _ => .test (.pure hslice) ?_)
  exact .bind hg.whole fun stride hstride => .step fun _ =>
    .pure (by simpa [Expr.parts, and_assoc] using ⟨hleft, hlower, hupper, hstride⟩)

theorem yields_subscriptForm (hg : g.Named) (hleft : Named left.parts) :
    Yields (subscriptForm g left) fun e => Named e.parts :=
  .test (yields_sliceForm hg hleft (by simp)) (.bind hg.whole fun index hindex =>
    .test (.pure (by simpa [Expr.parts] using ⟨hleft, hindex⟩))
      (.step fun _ => yields_sliceForm hg hleft (by simpa using hindex)))

theorem yields_continuation (hg : g.Named) (hleft : Named left.parts) (power : Nat) :
    Yields (continuation g left power) fun e => Named e.parts := by
  have hunary : ∀ form, Named (Expr.unary form left).parts :=
    fun form => by simpa [Expr.parts] using hleft
  refine .step fun tokens => ?_
  split
  · exact .step fun _ => .ite (.step fun _ => .pure (hunary _)) <|
      .ite (yields_subscriptForm hg hleft) <| .ite (.pure (hunary _)) <|
      yields_operatorForm hg _ power hleft
  · refine .ite (.step fun _ => yields_isForm hg hleft) <| .ite (.step fun _ => ?_) <|
      .ite (.step fun _ => .throw _) <|
      .ite (.step fun _ => yields_operatorForm hg _ power hleft) <|
      .ite (.step fun _ => .step fun op => yields_operatorForm hg op power hleft) <|
      yields_rangeForm hg hleft
    exact .bind (hg.expr _) fun right hright =>
      .pure (by simpa [Expr.parts] using ⟨hleft, hright⟩)
  · exact .pure hleft

theorem yields_expression (hg : g.Named) (power : Nat) :
    Yields (expression g power) fun e => Named e.parts := by
  refine .bind (yields_primary hg) fun e he => .loop (fun left hleft => ?_) he
  refine .step fun tokens => .ite (.pure (by simp)) ?_
  exact .bind (yields_continuation hg hleft _) fun e he => .pure (by simpa using he)

end Parser

end ColumnLineage
