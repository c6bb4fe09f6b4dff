import ColumnLineage.Proofs.Atoms
import ColumnLineage.Proofs.Steps
import ColumnLineage.Qualify.Query

/-!
# Rewriting the atoms of an expression

A rewriting says what becomes of columns, paths and queries; all else of an expression stays as it
is.
-/

namespace ColumnLineage

/-- What becomes of the atoms of an expression. -/
structure Rewriting where
  column : Ident → Expr
  path : List Ident → Expr
  query : Query → Query

def Atom.rewrite (r : Rewriting) : Atom → List Atom
  | .column name => (r.column name).atoms
  | .path segments => (r.path segments).atoms
  | .query q => [.query (r.query q)]

/-! ## Rewritten expressions -/

mutual

/-- An expression with its atoms rewritten. -/
def Expr.rewrite (r : Rewriting) : Expr → Expr
  | .column name => r.column name
  | .path parts => r.path parts
  | .rowOf name => .rowOf name
  | .literal value => .literal value
  | .unary form operand => .unary form (operand.rewrite r)
  | .binary form left right => .binary form (left.rewrite r) (right.rewrite r)
  | .between negated e low high => .between negated (e.rewrite r) (low.rewrite r) (high.rewrite r)
  | .substring commaStyle e start length =>
    .substring commaStyle (e.rewrite r) (Expr.rewriteOption r start) (Expr.rewriteOption r length)
  | .trim side e characters => .trim side (e.rewrite r) (Expr.rewriteOption r characters)
  | .overlay e new start length =>
    .overlay (e.rewrite r) (new.rewrite r) (start.rewrite r) (Expr.rewriteOption r length)
  | .cases operand conditions results otherwise =>
    .cases (Expr.rewriteOption r operand) (Expr.rewriteList r conditions)
      (Expr.rewriteList r results) (Expr.rewriteOption r otherwise)
  | .tuple items => .tuple (Expr.rewriteList r items)
  | .slice e lower upper stride =>
    .slice (e.rewrite r) (Expr.rewriteOption r lower) (Expr.rewriteOption r upper)
      (Expr.rewriteOption r stride)
  | .array named items => .array named (Expr.rewriteList r items)
  | .grouping kind sets => .grouping kind (Expr.rewriteLists r sets)
  | .inList negated e items => .inList negated (e.rewrite r) (Expr.rewriteList r items)
  | .inQuery negated e query => .inQuery negated (e.rewrite r) (r.query query)
  | .existence negated query => .existence negated (r.query query)
  | .scalar query => .scalar (r.query query)
  | .call name arguments filter nulls window withinGroup =>
    .call name (arguments.rewrite r) (Expr.rewriteOption r filter) nulls (window.rewrite r)
      (OrderItem.rewriteList r withinGroup)
termination_by structural e => e

/-- Expressions with their atoms rewritten. -/
def Expr.rewriteList (r : Rewriting) : List Expr → List Expr
  | [] => []
  | e :: es => e.rewrite r :: Expr.rewriteList r es
termination_by structural es => es

/-- Lists of expressions with their atoms rewritten. -/
def Expr.rewriteLists (r : Rewriting) : List (List Expr) → List (List Expr)
  | [] => []
  | es :: ess => Expr.rewriteList r es :: Expr.rewriteLists r ess
termination_by structural ess => ess

/-- An expression that may be absent, with its atoms rewritten. -/
def Expr.rewriteOption (r : Rewriting) : Option Expr → Option Expr
  | none => none
  | some e => some (e.rewrite r)
termination_by structural e => e

/-- Arguments with their atoms rewritten. -/
def Arguments.rewrite (r : Rewriting) : Arguments → Arguments
  | .absent => .absent
  | .query query => .query (r.query query)
  | .list duplicates items orderBy limit overflow filler nulls =>
    .list duplicates (Argument.rewriteList r items) (OrderItem.rewriteList r orderBy)
      (Expr.rewriteOption r limit) overflow (Expr.rewriteOption r filler) nulls
termination_by structural a => a

/-- An argument with its atoms rewritten. -/
def Argument.rewrite (r : Rewriting) : Argument → Argument
  | .positional value => .positional (value.rewrite r)
  | .named name sign value => .named (name.rewrite r) sign (value.rewrite r)
termination_by structural a => a

/-- Arguments with their atoms rewritten, one after another. -/
def Argument.rewriteList (r : Rewriting) : List Argument → List Argument
  | [] => []
  | a :: as => a.rewrite r :: Argument.rewriteList r as
termination_by structural as => as

/-- The value of an argument with its atoms rewritten. -/
def ArgumentValue.rewrite (r : Rewriting) : ArgumentValue → ArgumentValue
  | .expr e => .expr (e.rewrite r)
  | .star => .star
  | .starOf name => .starOf name
termination_by structural v => v

/-- An item of an order with its atoms rewritten. -/
def OrderItem.rewrite (r : Rewriting) : OrderItem → OrderItem
  | .mk e ascending nullsFirst => .mk (e.rewrite r) ascending nullsFirst
termination_by structural o => o

/-- The items of an order with their atoms rewritten. -/
def OrderItem.rewriteList (r : Rewriting) : List OrderItem → List OrderItem
  | [] => []
  | o :: os => o.rewrite r :: OrderItem.rewriteList r os
termination_by structural os => os

/-- A window with its atoms rewritten. -/
def Window.rewrite (r : Rewriting) : Window → Window
  | .absent => .absent
  | .named name => .named name
  | .spec base partitionBy orderBy frame =>
    .spec base (Expr.rewriteList r partitionBy) (OrderItem.rewriteList r orderBy) (frame.rewrite r)
termination_by structural w => w

/-- A frame with its atoms rewritten. -/
def Frame.rewrite (r : Rewriting) : Frame → Frame
  | .absent => .absent
  | .start unit first => .start unit (first.rewrite r)
  | .span unit first last => .span unit (first.rewrite r) (last.rewrite r)
termination_by structural f => f

/-- A bound of a frame with its atoms rewritten. -/
def Bound.rewrite (r : Rewriting) : Bound → Bound
  | .currentRow => .currentRow
  | .preceding rows => .preceding (Expr.rewriteOption r rows)
  | .following rows => .following (Expr.rewriteOption r rows)
termination_by structural b => b

end

/-! ## The atoms of a rewritten expression -/

section atoms

variable {r : Rewriting}

mutual

/-- The atoms of a rewritten expression are what its atoms become. -/
theorem Expr.atoms_rewrite : (x : Expr) → (x.rewrite r).atoms = x.atoms.flatMap (Atom.rewrite r)
  | .column name => Atom.singleton_eq (Atom.rewrite r) (.column name)
  | .path parts => Atom.singleton_eq (Atom.rewrite r) (.path parts)
  | .rowOf _ => rfl
  | .literal _ => rfl
  | .unary _ operand => operand.atoms_rewrite
  | .binary _ left right => Atom.append_eq left.atoms_rewrite right.atoms_rewrite
  | .between _ e low high => Atom.append_eq₃ e.atoms_rewrite low.atoms_rewrite high.atoms_rewrite
  | .substring _ e start length =>
      Atom.append_eq₃ e.atoms_rewrite (Expr.atomsOption_rewrite start)
        (Expr.atomsOption_rewrite length)
  | .trim _ e characters => Atom.append_eq e.atoms_rewrite (Expr.atomsOption_rewrite characters)
  | .overlay e new start length =>
      Atom.append_eq₄ e.atoms_rewrite new.atoms_rewrite start.atoms_rewrite
        (Expr.atomsOption_rewrite length)
  | .cases operand conditions results otherwise =>
      Atom.append_eq₄ (Expr.atomsOption_rewrite operand) (Expr.atomsList_rewrite conditions)
        (Expr.atomsList_rewrite results) (Expr.atomsOption_rewrite otherwise)
  | .tuple items => Expr.atomsList_rewrite items
  | .slice e lower upper stride =>
      Atom.append_eq₄ e.atoms_rewrite (Expr.atomsOption_rewrite lower)
        (Expr.atomsOption_rewrite upper) (Expr.atomsOption_rewrite stride)
  | .array _ items => Expr.atomsList_rewrite items
  | .grouping _ sets => Expr.atomsLists_rewrite sets
  | .inList _ e items => Atom.append_eq e.atoms_rewrite (Expr.atomsList_rewrite items)
  | .inQuery _ e query =>
      Atom.append_eq e.atoms_rewrite (Atom.singleton_eq (Atom.rewrite r) (.query query))
  | .existence _ query => Atom.singleton_eq (Atom.rewrite r) (.query query)
  | .scalar query => Atom.singleton_eq (Atom.rewrite r) (.query query)
  | .call _ arguments filter _ window withinGroup =>
      Atom.append_eq₄ arguments.atoms_rewrite (Expr.atomsOption_rewrite filter) window.atoms_rewrite
        (OrderItem.atomsList_rewrite withinGroup)

theorem Expr.atomsList_rewrite : (xs : List Expr) → Expr.atomsList (Expr.rewriteList r xs) =
      (Expr.atomsList xs).flatMap (Atom.rewrite r)
  | [] => rfl
  | e :: es => Atom.append_eq e.atoms_rewrite (Expr.atomsList_rewrite es)

theorem Expr.atomsLists_rewrite : (xs : List (List Expr)) →
    Expr.atomsLists (Expr.rewriteLists r xs) =
      (Expr.atomsLists xs).flatMap (Atom.rewrite r)
  | [] => rfl
  | es :: ess => Atom.append_eq (Expr.atomsList_rewrite es) (Expr.atomsLists_rewrite ess)

theorem Expr.atomsOption_rewrite : (xs : Option Expr) → Expr.atomsOption (Expr.rewriteOption r xs) =
      (Expr.atomsOption xs).flatMap (Atom.rewrite r)
  | none => rfl
  | some e => e.atoms_rewrite

theorem Arguments.atoms_rewrite : (x : Arguments) →
    (x.rewrite r).atoms = x.atoms.flatMap (Atom.rewrite r)
  | .absent => rfl
  | .query query => Atom.singleton_eq (Atom.rewrite r) (.query query)
  | .list _ items orderBy limit _ filler _ =>
      Atom.append_eq₄ (Argument.atomsList_rewrite items) (OrderItem.atomsList_rewrite orderBy)
        (Expr.atomsOption_rewrite limit) (Expr.atomsOption_rewrite filler)

theorem Argument.atoms_rewrite : (x : Argument) →
    (x.rewrite r).atoms = x.atoms.flatMap (Atom.rewrite r)
  | .positional value => value.atoms_rewrite
  | .named name _ value => Atom.append_eq name.atoms_rewrite value.atoms_rewrite

theorem Argument.atomsList_rewrite : (xs : List Argument) →
    Argument.atomsList (Argument.rewriteList r xs) =
      (Argument.atomsList xs).flatMap (Atom.rewrite r)
  | [] => rfl
  | a :: as => Atom.append_eq a.atoms_rewrite (Argument.atomsList_rewrite as)

theorem ArgumentValue.atoms_rewrite : (x : ArgumentValue) →
    (x.rewrite r).atoms = x.atoms.flatMap (Atom.rewrite r)
  | .expr e => e.atoms_rewrite
  | .star => rfl
  | .starOf _ => rfl

theorem OrderItem.atoms_rewrite : (x : OrderItem) →
    (x.rewrite r).atoms = x.atoms.flatMap (Atom.rewrite r)
  | .mk e _ _ => e.atoms_rewrite

theorem OrderItem.atomsList_rewrite : (xs : List OrderItem) →
    OrderItem.atomsList (OrderItem.rewriteList r xs) =
      (OrderItem.atomsList xs).flatMap (Atom.rewrite r)
  | [] => rfl
  | o :: os => Atom.append_eq o.atoms_rewrite (OrderItem.atomsList_rewrite os)

theorem Window.atoms_rewrite : (x : Window) → (x.rewrite r).atoms = x.atoms.flatMap (Atom.rewrite r)
  | .absent => rfl
  | .named _ => rfl
  | .spec _ partitionBy orderBy frame =>
      Atom.append_eq₃ (Expr.atomsList_rewrite partitionBy) (OrderItem.atomsList_rewrite orderBy)
        frame.atoms_rewrite

theorem Frame.atoms_rewrite : (x : Frame) → (x.rewrite r).atoms = x.atoms.flatMap (Atom.rewrite r)
  | .absent => rfl
  | .start _ first => first.atoms_rewrite
  | .span _ first last => Atom.append_eq first.atoms_rewrite last.atoms_rewrite

theorem Bound.atoms_rewrite : (x : Bound) → (x.rewrite r).atoms = x.atoms.flatMap (Atom.rewrite r)
  | .currentRow => rfl
  | .preceding rows => Expr.atomsOption_rewrite rows
  | .following rows => Expr.atomsOption_rewrite rows

end

end atoms

/-! ## Qualified expressions -/

/-- What qualification makes of the atoms that it can qualify. -/
def Qualifier.rewriting (x : Qualifier) (v : Visible) (outputs : List String) : Rewriting where
  column name := (v.qualifyColumn outputs name).toOption.getD (.column name)
  path := v.qualifyPath
  query q := ((q.qualify x v).toOption.map Prod.fst).getD q

def Atom.Settled (x : Qualifier) (v : Visible) (outputs : List String) : Atom → Prop
  | .column name => ∃ e, v.qualifyColumn outputs name = .ok e
  | .path _ => True
  | .query q => ∃ qualified, q.qualify x v = .ok qualified

def Settled (x : Qualifier) (v : Visible) (outputs : List String) (atoms : List Atom) : Prop :=
  ∀ a ∈ atoms, a.Settled x v outputs

section qualified

variable {x : Qualifier} {v : Visible} {outputs : List String}

@[simp] theorem settled_nil : Settled x v outputs [] := by
  intro a ha
  simp at ha

@[simp] theorem settled_append {as bs : List Atom} :
    Settled x v outputs (as ++ bs) ↔ Settled x v outputs as ∧ Settled x v outputs bs :=
  List.forall_mem_append

@[simp] theorem settled_singleton {a : Atom} : Settled x v outputs [a] ↔ a.Settled x v outputs :=
  List.forall_mem_singleton

theorem Qualifier.rewriting_column {name : Ident} {e : Expr}
    (h : v.qualifyColumn outputs name = .ok e) : (x.rewriting v outputs).column name = e := by
  simp [Qualifier.rewriting, h, Except.toOption]

theorem Qualifier.rewriting_query {q : Query} {qualified : QualifiedQuery}
    (h : q.qualify x v = .ok qualified) : (x.rewriting v outputs).query q = qualified.1 := by
  simp [Qualifier.rewriting, h, Except.toOption]

/-! ## Walks

Every form of expression is qualified part by part, with the atoms in the order in which they are
met. What holds of a step that qualifies atoms is put together in the same way. -/

/-- A step that qualifies atoms: it succeeds only if all of them are as `s` says, and does what
another step does if all are as `g` says. -/
structure Walks {α : Type} (s g : Atom → Prop) (atoms : List Atom)
    (m m' : Except QualifyError α) : Prop where
  settled : ∀ {a : α}, m = .ok a → ∀ b ∈ atoms, s b
  same : (∀ b ∈ atoms, g b) → m = m'

namespace Walks

variable {α β γ δ η : Type} {s g : Atom → Prop} {as bs cs ds : List Atom}

theorem nil {m : Except QualifyError α} : Walks s g [] m m :=
  ⟨by simp, fun _ => rfl⟩

theorem bind {m m' : Except QualifyError α} {f f' : α → Except QualifyError β}
    (hm : Walks s g as m m') (hf : ∀ a, Walks s g bs (f a) (f' a)) :
    Walks s g (as ++ bs) (m >>= f) (m' >>= f') where
  settled h := by
    obtain ⟨a, ha, hb⟩ := bind_eq_ok.mp h
    exact List.forall_mem_append.mpr ⟨hm.settled ha, (hf a).settled hb⟩
  same h := by
    obtain ⟨ha, hb⟩ := List.forall_mem_append.mp h
    rw [hm.same ha, funext fun a => (hf a).same hb]

variable {m₁ m₁' : Except QualifyError α} {m₂ m₂' : Except QualifyError β}
  {m₃ m₃' : Except QualifyError γ} {m₄ m₄' : Except QualifyError δ}

/-- What does not depend on the atoms is the same in any case. -/
theorem refl {m : Except QualifyError α} : Walks (fun _ => True) g as m m :=
  ⟨fun _ _ _ => trivial, fun _ => rfl⟩

theorem map {f : α → η} (h₁ : Walks s g as m₁ m₁') :
    Walks s g as (m₁ >>= fun a => pure (f a)) (m₁' >>= fun a => pure (f a)) :=
  List.append_nil as ▸ h₁.bind fun _ => .nil

theorem map₂ {f : α → β → η} (h₁ : Walks s g as m₁ m₁') (h₂ : Walks s g bs m₂ m₂') :
    Walks s g (as ++ bs) (do let a ← m₁; let b ← m₂; pure (f a b))
      (do let a ← m₁'; let b ← m₂'; pure (f a b)) :=
  h₁.bind fun _ => h₂.map

theorem map₃ {f : α → β → γ → η} (h₁ : Walks s g as m₁ m₁') (h₂ : Walks s g bs m₂ m₂')
    (h₃ : Walks s g cs m₃ m₃') :
    Walks s g (as ++ bs ++ cs) (do let a ← m₁; let b ← m₂; let c ← m₃; pure (f a b c))
      (do let a ← m₁'; let b ← m₂'; let c ← m₃'; pure (f a b c)) :=
  List.append_assoc as bs cs ▸ h₁.bind fun _ => h₂.map₂ h₃

theorem map₄ {f : α → β → γ → δ → η} (h₁ : Walks s g as m₁ m₁') (h₂ : Walks s g bs m₂ m₂')
    (h₃ : Walks s g cs m₃ m₃') (h₄ : Walks s g ds m₄ m₄') :
    Walks s g (as ++ bs ++ cs ++ ds)
      (do let a ← m₁; let b ← m₂; let c ← m₃; let d ← m₄; pure (f a b c d))
      (do let a ← m₁'; let b ← m₂'; let c ← m₃'; let d ← m₄'; pure (f a b c d)) := by
  rw [List.append_assoc as, List.append_assoc as]
  exact h₁.bind fun _ => h₂.map₃ h₃ h₄

end Walks

/-! ## Qualified atoms -/

/-- A step qualifies atoms, all of them or none, and gives a value then. -/
def Rewrites {α : Type} (x : Qualifier) (v : Visible) (outputs : List String) (atoms : List Atom)
    (m : Except QualifyError α) (a : α) : Prop :=
  Walks (Atom.Settled x v outputs) (Atom.Settled x v outputs) atoms m (.ok a)

theorem Rewrites.eq_ok {α : Type} {atoms : List Atom} {m : Except QualifyError α} {a a' : α}
    (h : Rewrites x v outputs atoms m a) :
    m = .ok a' ↔ Settled x v outputs atoms ∧ a' = a := by
  constructor
  · intro hm
    have hs := h.settled hm
    exact ⟨hs, ok_eq_ok.mp ((h.same hs).symm.trans hm)⟩
  · rintro ⟨hs, rfl⟩
    exact h.same hs

theorem rewrites_column (name : Ident) :
    Rewrites x v outputs [.column name] (v.qualifyColumn outputs name)
      ((x.rewriting v outputs).column name) where
  settled h := settled_singleton.mpr ⟨_, h⟩
  same h := by
    obtain ⟨e, he⟩ := settled_singleton.mp h
    rw [Qualifier.rewriting_column he, he]

theorem rewrites_path (segments : List Ident) :
    Rewrites x v outputs [.path segments] (.ok (v.qualifyPath segments))
      ((x.rewriting v outputs).path segments) where
  settled _ := settled_singleton.mpr trivial
  same _ := rfl

theorem rewrites_query (q : Query) :
    Rewrites x v outputs [.query q] (q.qualify x v)
      ((x.rewriting v outputs).query q, ((q.qualify x v).toOption.map Prod.snd).getD .unknown) where
  settled h := settled_singleton.mpr ⟨_, h⟩
  same h := by
    obtain ⟨qualified, hq⟩ := settled_singleton.mp h
    rw [Qualifier.rewriting_query hq, hq]
    rfl

mutual

theorem Expr.rewrites : (e : Expr) → Rewrites x v outputs e.atoms (e.qualify x v outputs)
    (e.rewrite (x.rewriting v outputs))
  | .column name => rewrites_column name
  | .path parts => rewrites_path parts
  | .rowOf _ => .nil
  | .literal _ => .nil
  | .unary _ operand => .map operand.rewrites
  | .binary _ left right => .map₂ left.rewrites right.rewrites
  | .between _ e low high => .map₃ e.rewrites low.rewrites high.rewrites
  | .substring _ e start length =>
      .map₃ e.rewrites (Expr.rewritesOption start) (Expr.rewritesOption length)
  | .trim _ e characters => .map₂ e.rewrites (Expr.rewritesOption characters)
  | .overlay e new start length =>
      .map₄ e.rewrites new.rewrites start.rewrites (Expr.rewritesOption length)
  | .cases operand conditions results otherwise =>
      .map₄ (Expr.rewritesOption operand) (Expr.rewritesList conditions)
        (Expr.rewritesList results) (Expr.rewritesOption otherwise)
  | .tuple items => .map (Expr.rewritesList items)
  | .slice e lower upper stride =>
      .map₄ e.rewrites (Expr.rewritesOption lower) (Expr.rewritesOption upper)
        (Expr.rewritesOption stride)
  | .array _ items => .map (Expr.rewritesList items)
  | .grouping _ sets => .map (Expr.rewritesLists sets)
  | .inList _ e items => .map₂ e.rewrites (Expr.rewritesList items)
  | .inQuery _ e query => .map₂ e.rewrites (rewrites_query query)
  | .existence _ query => .map (rewrites_query query)
  | .scalar query => .map (rewrites_query query)
  | .call _ arguments filter _ window withinGroup =>
      .map₄ arguments.rewrites (Expr.rewritesOption filter) window.rewrites
        (OrderItem.rewritesList withinGroup)
termination_by structural t => t

theorem Expr.rewritesList : (es : List Expr) →
    Rewrites x v outputs (Expr.atomsList es) (Expr.qualifyList x v outputs es)
      (Expr.rewriteList (x.rewriting v outputs) es)
  | [] => .nil
  | e :: es => .map₂ e.rewrites (Expr.rewritesList es)
termination_by structural t => t

theorem Expr.rewritesLists : (ess : List (List Expr)) →
    Rewrites x v outputs (Expr.atomsLists ess) (Expr.qualifyLists x v outputs ess)
      (Expr.rewriteLists (x.rewriting v outputs) ess)
  | [] => .nil
  | es :: ess => .map₂ (Expr.rewritesList es) (Expr.rewritesLists ess)
termination_by structural t => t

theorem Expr.rewritesOption : (e : Option Expr) →
    Rewrites x v outputs (Expr.atomsOption e) (Expr.qualifyOption x v outputs e)
      (Expr.rewriteOption (x.rewriting v outputs) e)
  | none => .nil
  | some e => .map e.rewrites
termination_by structural t => t

theorem Arguments.rewrites : (a : Arguments) →
    Rewrites x v outputs a.atoms (a.qualify x v outputs) (a.rewrite (x.rewriting v outputs))
  | .absent => .nil
  | .query query => .map (rewrites_query query)
  | .list _ items orderBy limit _ filler _ =>
      .map₄ (Argument.rewritesList items) (OrderItem.rewritesList orderBy)
        (Expr.rewritesOption limit) (Expr.rewritesOption filler)
termination_by structural t => t

theorem Argument.rewrites : (a : Argument) →
    Rewrites x v outputs a.atoms (a.qualify x v outputs) (a.rewrite (x.rewriting v outputs))
  | .positional value => .map value.rewrites
  | .named name _ value => .map₂ name.rewrites value.rewrites
termination_by structural t => t

theorem Argument.rewritesList : (as : List Argument) →
    Rewrites x v outputs (Argument.atomsList as) (Argument.qualifyList x v outputs as)
      (Argument.rewriteList (x.rewriting v outputs) as)
  | [] => .nil
  | a :: as => .map₂ a.rewrites (Argument.rewritesList as)
termination_by structural t => t

theorem ArgumentValue.rewrites : (a : ArgumentValue) →
    Rewrites x v outputs a.atoms (a.qualify x v outputs) (a.rewrite (x.rewriting v outputs))
  | .expr e => .map e.rewrites
  | .star => .nil
  | .starOf _ => .nil
termination_by structural t => t

theorem OrderItem.rewrites : (o : OrderItem) →
    Rewrites x v outputs o.atoms (o.qualify x v outputs) (o.rewrite (x.rewriting v outputs))
  | .mk e _ _ => .map e.rewrites
termination_by structural t => t

theorem OrderItem.rewritesList : (os : List OrderItem) →
    Rewrites x v outputs (OrderItem.atomsList os) (OrderItem.qualifyList x v outputs os)
      (OrderItem.rewriteList (x.rewriting v outputs) os)
  | [] => .nil
  | o :: os => .map₂ o.rewrites (OrderItem.rewritesList os)
termination_by structural t => t

theorem Window.rewrites : (w : Window) →
    Rewrites x v outputs w.atoms (w.qualify x v outputs) (w.rewrite (x.rewriting v outputs))
  | .absent => .nil
  | .named _ => .nil
  | .spec _ partitionBy orderBy frame =>
      .map₃ (Expr.rewritesList partitionBy) (OrderItem.rewritesList orderBy) frame.rewrites
termination_by structural t => t

theorem Frame.rewrites : (f : Frame) →
    Rewrites x v outputs f.atoms (f.qualify x v outputs) (f.rewrite (x.rewriting v outputs))
  | .absent => .nil
  | .start _ first => .map first.rewrites
  | .span _ first last => .map₂ first.rewrites last.rewrites
termination_by structural t => t

theorem Bound.rewrites : (b : Bound) →
    Rewrites x v outputs b.atoms (b.qualify x v outputs) (b.rewrite (x.rewriting v outputs))
  | .currentRow => .nil
  | .preceding rows => .map (Expr.rewritesOption rows)
  | .following rows => .map (Expr.rewritesOption rows)
termination_by structural t => t

end

/-- An expression can be qualified exactly if each of its atoms can, and only they are rewritten. -/
theorem Expr.qualify_eq_ok (e : Expr) {e' : Expr} : e.qualify x v outputs = .ok e' ↔
    Settled x v outputs e.atoms ∧ e' = e.rewrite (x.rewriting v outputs) :=
  e.rewrites.eq_ok

theorem Expr.qualifyList_eq_ok (es : List Expr) {es' : List Expr} :
    Expr.qualifyList x v outputs es = .ok es' ↔
      Settled x v outputs (Expr.atomsList es) ∧ es' = Expr.rewriteList (x.rewriting v outputs) es :=
  (Expr.rewritesList es).eq_ok

theorem Expr.qualifyOption_eq_ok (e : Option Expr) {e' : Option Expr} :
    Expr.qualifyOption x v outputs e = .ok e' ↔ Settled x v outputs (Expr.atomsOption e) ∧
      e' = Expr.rewriteOption (x.rewriting v outputs) e :=
  (Expr.rewritesOption e).eq_ok

theorem OrderItem.qualifyList_eq_ok (os : List OrderItem) {os' : List OrderItem} :
    OrderItem.qualifyList x v outputs os = .ok os' ↔
      Settled x v outputs (OrderItem.atomsList os) ∧
        os' = OrderItem.rewriteList (x.rewriting v outputs) os :=
  (OrderItem.rewritesList os).eq_ok

end qualified

end ColumnLineage
