import ColumnLineage.Lineage.Reference
import ColumnLineage.Syntax.Walk
import Mathlib.Data.List.Flatten

/-!
# The atoms of an expression

An expression is made of columns, of paths and of queries. `Expr.atoms` lists them in the order of
the walk, without entering the queries. The other views of an expression follow from its atoms.
-/

namespace ColumnLineage

/-- What an expression is made of. -/
inductive Atom
  | column (name : Ident)
  /-- A column behind the names of its table, schema and so on. -/
  | path (parts : List Ident)
  | query (query : Query)

/-- The parts that a walk meets in an atom. -/
def Atom.parts : Atom → List Part
  | .column _ => []
  | .path _ => []
  | .query q => q.parts

def Atom.columns : Atom → List Reference
  | .column name => [.column none name.value]
  | .path parts => pathReference parts
  | .query _ => []

/-! ## The lists -/

mutual

def Expr.atoms : Expr → List Atom
  | .column name => [.column name]
  | .path parts => [.path parts]
  | .rowOf _ => []
  | .literal _ => []
  | .unary _ operand => operand.atoms
  | .binary _ left right => left.atoms ++ right.atoms
  | .between _ e low high => e.atoms ++ low.atoms ++ high.atoms
  | .substring _ e start length => e.atoms ++ Expr.atomsOption start ++ Expr.atomsOption length
  | .trim _ e characters => e.atoms ++ Expr.atomsOption characters
  | .overlay e new start length => e.atoms ++ new.atoms ++ start.atoms ++ Expr.atomsOption length
  | .cases operand conditions results otherwise =>
    Expr.atomsOption operand ++ Expr.atomsList conditions ++ Expr.atomsList results ++
      Expr.atomsOption otherwise
  | .tuple items => Expr.atomsList items
  | .slice e lower upper stride =>
    e.atoms ++ Expr.atomsOption lower ++ Expr.atomsOption upper ++ Expr.atomsOption stride
  | .array _ items => Expr.atomsList items
  | .grouping _ sets => Expr.atomsLists sets
  | .inList _ e items => e.atoms ++ Expr.atomsList items
  | .inQuery _ e query => e.atoms ++ [.query query]
  | .existence _ query => [.query query]
  | .scalar query => [.query query]
  | .call _ arguments filter _ window withinGroup =>
    arguments.atoms ++ Expr.atomsOption filter ++ window.atoms ++ OrderItem.atomsList withinGroup
termination_by structural e => e

def Expr.atomsList : List Expr → List Atom
  | [] => []
  | e :: es => e.atoms ++ Expr.atomsList es
termination_by structural es => es

/-- The atoms of lists of expressions. -/
def Expr.atomsLists : List (List Expr) → List Atom
  | [] => []
  | es :: ess => Expr.atomsList es ++ Expr.atomsLists ess
termination_by structural ess => ess

/-- The atoms of an expression that may be absent. -/
def Expr.atomsOption : Option Expr → List Atom
  | none => []
  | some e => e.atoms
termination_by structural e => e

/-- The atoms of the arguments of a call. -/
def Arguments.atoms : Arguments → List Atom
  | .absent => []
  | .query query => [.query query]
  | .list _ items orderBy limit _ filler _ =>
    Argument.atomsList items ++ OrderItem.atomsList orderBy ++ Expr.atomsOption limit ++
      Expr.atomsOption filler
termination_by structural a => a

/-- The atoms of an argument, its name included. -/
def Argument.atoms : Argument → List Atom
  | .positional value => value.atoms
  | .named name _ value => name.atoms ++ value.atoms
termination_by structural a => a

def Argument.atomsList : List Argument → List Atom
  | [] => []
  | a :: as => a.atoms ++ Argument.atomsList as
termination_by structural as => as

/-- The atoms of the value of an argument. -/
def ArgumentValue.atoms : ArgumentValue → List Atom
  | .expr e => e.atoms
  | .star => []
  | .starOf _ => []
termination_by structural v => v

/-- The atoms of an item of an order. -/
def OrderItem.atoms : OrderItem → List Atom
  | .mk e _ _ => e.atoms
termination_by structural o => o

def OrderItem.atomsList : List OrderItem → List Atom
  | [] => []
  | o :: os => o.atoms ++ OrderItem.atomsList os
termination_by structural os => os

def Window.atoms : Window → List Atom
  | .absent => []
  | .named _ => []
  | .spec _ partitionBy orderBy frame =>
    Expr.atomsList partitionBy ++ OrderItem.atomsList orderBy ++ frame.atoms
termination_by structural w => w

def Frame.atoms : Frame → List Atom
  | .absent => []
  | .start _ first => first.atoms
  | .span _ first last => first.atoms ++ last.atoms
termination_by structural f => f

def Bound.atoms : Bound → List Atom
  | .currentRow => []
  | .preceding rows => Expr.atomsOption rows
  | .following rows => Expr.atomsOption rows
termination_by structural b => b

end

/-! ## What a walk meets -/

section give

variable {α : Type} {f : Atom → List α} {as bs cs ds : List Atom} {xs ys zs ws : List α}

theorem Atom.append_eq (hx : xs = as.flatMap f) (hy : ys = bs.flatMap f) :
    xs ++ ys = (as ++ bs).flatMap f := by
  rw [List.flatMap_append, hx, hy]

theorem Atom.append_eq₃ (hx : xs = as.flatMap f) (hy : ys = bs.flatMap f)
    (hz : zs = cs.flatMap f) : xs ++ ys ++ zs = (as ++ bs ++ cs).flatMap f :=
  append_eq (append_eq hx hy) hz

theorem Atom.append_eq₄ (hx : xs = as.flatMap f) (hy : ys = bs.flatMap f)
    (hz : zs = cs.flatMap f) (hw : ws = ds.flatMap f) :
    xs ++ ys ++ zs ++ ws = (as ++ bs ++ cs ++ ds).flatMap f :=
  append_eq (append_eq₃ hx hy hz) hw

theorem Atom.singleton_eq (f : Atom → List α) (a : Atom) : f a = [a].flatMap f :=
  (List.flatMap_singleton f a).symm

end give

mutual

theorem Expr.parts_eq : (e : Expr) → e.parts = e.atoms.flatMap Atom.parts
  | .column _ => rfl
  | .path _ => rfl
  | .rowOf _ => rfl
  | .literal _ => rfl
  | .unary _ operand => by
      rw [Expr.parts, Expr.atoms, operand.parts_eq]
  | .binary _ left right => Atom.append_eq left.parts_eq right.parts_eq
  | .between _ e low high => Atom.append_eq₃ e.parts_eq low.parts_eq high.parts_eq
  | .substring _ e start length =>
      Atom.append_eq₃ e.parts_eq (Expr.partsOption_eq start) (Expr.partsOption_eq length)
  | .trim _ e characters => Atom.append_eq e.parts_eq (Expr.partsOption_eq characters)
  | .overlay e new start length =>
      Atom.append_eq₄ e.parts_eq new.parts_eq start.parts_eq (Expr.partsOption_eq length)
  | .cases operand conditions results otherwise =>
      Atom.append_eq₄ (Expr.partsOption_eq operand) (Expr.partsList_eq conditions)
        (Expr.partsList_eq results) (Expr.partsOption_eq otherwise)
  | .tuple items => Expr.partsList_eq items
  | .slice e lower upper stride =>
      Atom.append_eq₄ e.parts_eq (Expr.partsOption_eq lower) (Expr.partsOption_eq upper)
        (Expr.partsOption_eq stride)
  | .array _ items => Expr.partsList_eq items
  | .grouping _ sets => Expr.partsLists_eq sets
  | .inList _ e items => Atom.append_eq e.parts_eq (Expr.partsList_eq items)
  | .inQuery _ e query => Atom.append_eq e.parts_eq (Atom.singleton_eq Atom.parts (.query query))
  | .existence _ query => Atom.singleton_eq Atom.parts (.query query)
  | .scalar query => Atom.singleton_eq Atom.parts (.query query)
  | .call _ arguments filter _ window withinGroup =>
      Atom.append_eq₄ arguments.parts_eq (Expr.partsOption_eq filter) window.parts_eq
        (OrderItem.partsList_eq withinGroup)

theorem Expr.partsList_eq :
    (es : List Expr) → Expr.partsList es = (Expr.atomsList es).flatMap Atom.parts
  | [] => rfl
  | e :: es => Atom.append_eq e.parts_eq (Expr.partsList_eq es)

theorem Expr.partsLists_eq :
    (ess : List (List Expr)) → Expr.partsLists ess = (Expr.atomsLists ess).flatMap Atom.parts
  | [] => rfl
  | es :: ess => Atom.append_eq (Expr.partsList_eq es) (Expr.partsLists_eq ess)

theorem Expr.partsOption_eq :
    (e : Option Expr) → Expr.partsOption e = (Expr.atomsOption e).flatMap Atom.parts
  | none => rfl
  | some e => e.parts_eq

theorem Arguments.parts_eq : (a : Arguments) → a.parts = a.atoms.flatMap Atom.parts
  | .absent => rfl
  | .query query => Atom.singleton_eq Atom.parts (.query query)
  | .list _ items orderBy limit _ filler _ =>
      Atom.append_eq₄ (Argument.partsList_eq items) (OrderItem.partsList_eq orderBy)
        (Expr.partsOption_eq limit) (Expr.partsOption_eq filler)

theorem Argument.parts_eq : (a : Argument) → a.parts = a.atoms.flatMap Atom.parts
  | .positional value => value.parts_eq
  | .named name _ value => Atom.append_eq name.parts_eq value.parts_eq

theorem Argument.partsList_eq :
    (as : List Argument) → Argument.partsList as = (Argument.atomsList as).flatMap Atom.parts
  | [] => rfl
  | a :: as => Atom.append_eq a.parts_eq (Argument.partsList_eq as)

theorem ArgumentValue.parts_eq : (v : ArgumentValue) → v.parts = v.atoms.flatMap Atom.parts
  | .expr e => e.parts_eq
  | .star => rfl
  | .starOf _ => rfl

theorem OrderItem.parts_eq : (o : OrderItem) → o.parts = o.atoms.flatMap Atom.parts
  | .mk e _ _ => e.parts_eq

theorem OrderItem.partsList_eq :
    (os : List OrderItem) → OrderItem.partsList os = (OrderItem.atomsList os).flatMap Atom.parts
  | [] => rfl
  | o :: os => Atom.append_eq o.parts_eq (OrderItem.partsList_eq os)

theorem Window.parts_eq : (w : Window) → w.parts = w.atoms.flatMap Atom.parts
  | .absent => rfl
  | .named _ => rfl
  | .spec _ partitionBy orderBy frame =>
      Atom.append_eq₃ (Expr.partsList_eq partitionBy) (OrderItem.partsList_eq orderBy)
        frame.parts_eq

theorem Frame.parts_eq : (f : Frame) → f.parts = f.atoms.flatMap Atom.parts
  | .absent => rfl
  | .start _ first => first.parts_eq
  | .span _ first last => Atom.append_eq first.parts_eq last.parts_eq

theorem Bound.parts_eq : (b : Bound) → b.parts = b.atoms.flatMap Atom.parts
  | .currentRow => rfl
  | .preceding rows => Expr.partsOption_eq rows
  | .following rows => Expr.partsOption_eq rows

end

/-! ## The columns outside the queries -/

mutual

/-- The columns of an expression are those of its columns and paths. -/
theorem Expr.columns_eq : (e : Expr) → e.columns = e.atoms.flatMap Atom.columns
  | .column _ => rfl
  | .path parts => Atom.singleton_eq Atom.columns (.path parts)
  | .rowOf _ => rfl
  | .literal _ => rfl
  | .unary _ operand => operand.columns_eq
  | .binary _ left right => Atom.append_eq left.columns_eq right.columns_eq
  | .between _ e low high => Atom.append_eq₃ e.columns_eq low.columns_eq high.columns_eq
  | .substring _ e start length =>
      Atom.append_eq₃ e.columns_eq (Expr.columnsOption_eq start) (Expr.columnsOption_eq length)
  | .trim _ e characters => Atom.append_eq e.columns_eq (Expr.columnsOption_eq characters)
  | .overlay e new start length =>
      Atom.append_eq₄ e.columns_eq new.columns_eq start.columns_eq (Expr.columnsOption_eq length)
  | .cases operand conditions results otherwise =>
      Atom.append_eq₄ (Expr.columnsOption_eq operand) (Expr.columnsList_eq conditions)
        (Expr.columnsList_eq results) (Expr.columnsOption_eq otherwise)
  | .tuple items => Expr.columnsList_eq items
  | .slice e lower upper stride =>
      Atom.append_eq₄ e.columns_eq (Expr.columnsOption_eq lower) (Expr.columnsOption_eq upper)
        (Expr.columnsOption_eq stride)
  | .array _ items => Expr.columnsList_eq items
  | .grouping _ sets => Expr.columnsLists_eq sets
  | .inList _ e items => Atom.append_eq e.columns_eq (Expr.columnsList_eq items)
  | .inQuery _ e _ => (List.append_nil _).symm.trans (Atom.append_eq e.columns_eq rfl)
  | .existence _ _ => rfl
  | .scalar _ => rfl
  | .call _ arguments filter _ window withinGroup =>
      Atom.append_eq₄ arguments.columns_eq (Expr.columnsOption_eq filter) window.columns_eq
        (OrderItem.columnsList_eq withinGroup)

theorem Expr.columnsList_eq :
    (es : List Expr) → Expr.columnsList es = (Expr.atomsList es).flatMap Atom.columns
  | [] => rfl
  | e :: es => Atom.append_eq e.columns_eq (Expr.columnsList_eq es)

theorem Expr.columnsLists_eq :
    (ess : List (List Expr)) → Expr.columnsLists ess = (Expr.atomsLists ess).flatMap Atom.columns
  | [] => rfl
  | es :: ess => Atom.append_eq (Expr.columnsList_eq es) (Expr.columnsLists_eq ess)

theorem Expr.columnsOption_eq :
    (e : Option Expr) → Expr.columnsOption e = (Expr.atomsOption e).flatMap Atom.columns
  | none => rfl
  | some e => e.columns_eq

theorem Arguments.columns_eq : (a : Arguments) → a.columns = a.atoms.flatMap Atom.columns
  | .absent => rfl
  | .query _ => rfl
  | .list _ items orderBy limit _ filler _ =>
      Atom.append_eq₄ (Argument.columnsList_eq items) (OrderItem.columnsList_eq orderBy)
        (Expr.columnsOption_eq limit) (Expr.columnsOption_eq filler)

theorem Argument.columns_eq : (a : Argument) → a.columns = a.atoms.flatMap Atom.columns
  | .positional value => value.columns_eq
  | .named name _ value => Atom.append_eq name.columns_eq value.columns_eq

theorem Argument.columnsList_eq :
    (as : List Argument) → Argument.columnsList as = (Argument.atomsList as).flatMap Atom.columns
  | [] => rfl
  | a :: as => Atom.append_eq a.columns_eq (Argument.columnsList_eq as)

theorem ArgumentValue.columns_eq : (v : ArgumentValue) → v.columns = v.atoms.flatMap Atom.columns
  | .expr e => e.columns_eq
  | .star => rfl
  | .starOf _ => rfl

theorem OrderItem.columns_eq : (o : OrderItem) → o.columns = o.atoms.flatMap Atom.columns
  | .mk e _ _ => e.columns_eq

theorem OrderItem.columnsList_eq :
    (os : List OrderItem) → OrderItem.columnsList os = (OrderItem.atomsList os).flatMap Atom.columns
  | [] => rfl
  | o :: os => Atom.append_eq o.columns_eq (OrderItem.columnsList_eq os)

theorem Window.columns_eq : (w : Window) → w.columns = w.atoms.flatMap Atom.columns
  | .absent => rfl
  | .named _ => rfl
  | .spec _ partitionBy orderBy frame =>
      Atom.append_eq₃ (Expr.columnsList_eq partitionBy) (OrderItem.columnsList_eq orderBy)
        frame.columns_eq

theorem Frame.columns_eq : (f : Frame) → f.columns = f.atoms.flatMap Atom.columns
  | .absent => rfl
  | .start _ first => first.columns_eq
  | .span _ first last => Atom.append_eq first.columns_eq last.columns_eq

theorem Bound.columns_eq : (b : Bound) → b.columns = b.atoms.flatMap Atom.columns
  | .currentRow => rfl
  | .preceding rows => Expr.columnsOption_eq rows
  | .following rows => Expr.columnsOption_eq rows

end

/-! ## What lineage reads -/

/-- What an atom reads if nothing hides it. -/
def Atom.references : Atom → List Reference
  | .column name => [.column none name.value]
  | .path segments => pathReference segments
  | .query q => [.scalar q]

def Reference.parts : Reference → List Part
  | .column _ _ => []
  | .scalar q => q.parts

/-- References that some atoms read, in their order. -/
def ReadFrom (atoms : List Atom) (references : List Reference) : Prop :=
  references.Sublist (atoms.flatMap Atom.references)

theorem Atom.columns_sublist (a : Atom) : a.columns.Sublist a.references := by
  cases a with
  | column name => exact List.Sublist.refl _
  | path parts => exact List.Sublist.refl _
  | query q => exact List.nil_sublist _

theorem Atom.parts_references (a : Atom) : a.references.flatMap Reference.parts = a.parts := by
  cases a with
  | column name => rfl
  | path parts =>
    simp only [Atom.references, Atom.parts, pathReference]
    split <;> rfl
  | query q => simp [Atom.references, Atom.parts, Reference.parts]

namespace ReadFrom

theorem nil (atoms : List Atom) : ReadFrom atoms [] :=
  List.nil_sublist _

theorem atom (a : Atom) : ReadFrom [a] a.references :=
  List.sublist_append_left a.references []

theorem append {as bs : List Atom} {rs ts : List Reference} (h : ReadFrom as rs)
    (h' : ReadFrom bs ts) : ReadFrom (as ++ bs) (rs ++ ts) := by
  unfold ReadFrom
  rw [List.flatMap_append]
  exact List.Sublist.append h h'

theorem append_right {as : List Atom} {rs : List Reference} (h : ReadFrom as rs)
    (bs : List Atom) : ReadFrom (as ++ bs) rs := by
  simpa using h.append (nil bs)

theorem columns (atoms : List Atom) : ReadFrom atoms (atoms.flatMap Atom.columns) :=
  List.Sublist.flatMap_right atoms fun a _ => a.columns_sublist

theorem query_mem {atoms : List Atom} {references : List Reference}
    (h : ReadFrom atoms references) {q : Query} (hq : .scalar q ∈ references) :
    .query q ∈ atoms := by
  obtain ⟨a, ha, hr⟩ := List.mem_flatMap.mp (h.subset hq)
  cases a with
  | column name => simp [Atom.references] at hr
  | path parts =>
    simp only [Atom.references, pathReference] at hr
    split at hr <;> simp at hr
  | query q' =>
    have hqq : q = q' := by simpa [Atom.references] using hr
    rwa [hqq]

/-- The parts of what is read are among the parts of the atoms. -/
theorem parts_sublist {atoms : List Atom} {references : List Reference}
    (h : ReadFrom atoms references) :
    (references.flatMap Reference.parts).Sublist (atoms.flatMap Atom.parts) := by
  have hs : (references.flatMap Reference.parts).Sublist
      ((atoms.flatMap Atom.references).flatMap Reference.parts) := h.flatMap _
  rw [List.flatMap_assoc] at hs
  simpa only [Atom.parts_references] using hs

end ReadFrom

theorem Expr.readFrom_columns (e : Expr) : ReadFrom e.atoms e.columns := by
  rw [e.columns_eq]
  exact .columns _

mutual

/-- What an expression reads are its columns and queries in it. -/
theorem Expr.readFrom : (e : Expr) → ReadFrom e.atoms e.references
  | .column name => .atom (.column name)
  | .path parts => .atom (.path parts)
  | .rowOf _ => .nil _
  | .literal _ => .nil _
  | .unary form operand => by
      change ReadFrom operand.atoms (if form.isOpen then operand.references else operand.columns)
      split
      · exact operand.readFrom
      · exact operand.readFrom_columns
  | .binary form left right => by
      change ReadFrom (left.atoms ++ right.atoms) (if form.isOpen then
        left.references ++ right.references else left.columns ++ right.columns)
      split
      · exact left.readFrom.append right.readFrom
      · exact left.readFrom_columns.append right.readFrom_columns
  | .between _ e low high => (e.readFrom.append low.readFrom).append high.readFrom
  | .substring a e start length => Expr.readFrom_columns (.substring a e start length)
  | .trim a e characters => Expr.readFrom_columns (.trim a e characters)
  | .overlay e new start length => Expr.readFrom_columns (.overlay e new start length)
  | .cases operand conditions results otherwise =>
      (((Expr.readFromOption operand).append (Expr.readFromList conditions)).append
        (Expr.readFromList results)).append (Expr.readFromOption otherwise)
  | .tuple items => Expr.readFromList items
  | .slice e lower upper stride => Expr.readFrom_columns (.slice e lower upper stride)
  | .array named items => Expr.readFrom_columns (.array named items)
  | .grouping kind sets => Expr.readFrom_columns (.grouping kind sets)
  | .inList _ e items => e.readFrom.append (Expr.readFromList items)
  | .inQuery _ e query => e.readFrom.append_right [.query query]
  | .existence _ _ => .nil _
  | .scalar query => .atom (.query query)
  | .call _ arguments filter _ window withinGroup =>
      (((arguments.readFrom).append (Expr.readFromOption filter)).append
        window.readFrom).append_right (OrderItem.atomsList withinGroup)

theorem Expr.readFromList : (es : List Expr) → ReadFrom (Expr.atomsList es) (Expr.referencesList es)
  | [] => .nil _
  | e :: es => e.readFrom.append (Expr.readFromList es)

theorem Expr.readFromOption :
    (e : Option Expr) → ReadFrom (Expr.atomsOption e) (Expr.referencesOption e)
  | none => .nil _
  | some e => e.readFrom

theorem Arguments.readFrom : (a : Arguments) → ReadFrom a.atoms a.references
  | .absent => .nil _
  | .query _ => .nil _
  | .list _ items orderBy limit _ filler _ =>
      (((Argument.readFromList items).append_right (OrderItem.atomsList orderBy)).append_right
        (Expr.atomsOption limit)).append_right (Expr.atomsOption filler)

theorem Argument.readFrom : (a : Argument) → ReadFrom a.atoms a.references
  | .positional value => value.readFrom
  | .named name _ value => (ReadFrom.nil name.atoms).append value.readFrom

theorem Argument.readFromList :
    (as : List Argument) → ReadFrom (Argument.atomsList as) (Argument.referencesList as)
  | [] => .nil _
  | a :: as => a.readFrom.append (Argument.readFromList as)

theorem ArgumentValue.readFrom : (v : ArgumentValue) → ReadFrom v.atoms v.references
  | .expr e => e.readFrom
  | .star => .nil _
  | .starOf _ => .nil _

theorem OrderItem.readFrom : (o : OrderItem) → ReadFrom o.atoms o.references
  | .mk e _ _ => e.readFrom

theorem OrderItem.readFromList :
    (os : List OrderItem) → ReadFrom (OrderItem.atomsList os) (OrderItem.referencesList os)
  | [] => .nil _
  | o :: os => o.readFrom.append (OrderItem.readFromList os)

theorem Window.readFrom : (w : Window) → ReadFrom w.atoms w.references
  | .absent => .nil _
  | .named _ => .nil _
  | .spec _ partitionBy orderBy frame =>
      ((Expr.readFromList partitionBy).append (OrderItem.readFromList orderBy)).append_right
        frame.atoms

end

end ColumnLineage
