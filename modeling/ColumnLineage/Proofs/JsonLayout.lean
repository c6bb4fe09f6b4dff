import ColumnLineage.Json.Reader
import ColumnLineage.Json.Value

/-!
# Written forms of JSON documents

A document can be written with blanks before each of its parts. Both ways of writing it, on one
line and on several, are such forms.
-/

set_option linter.unusedSectionVars false

namespace ColumnLineage

def Member.value : Member → Json
  | .mk _ value => value

namespace Json

/-- Characters that stand between the parts of a document. -/
def Blanks (cs : List Char) : Prop :=
  ∀ c ∈ cs, JsonReader.isBlank c = true

theorem blanks_nil : Blanks [] :=
  fun _ h => absurd h List.not_mem_nil

theorem blanks_newline (level : Nat) : Blanks (newline level).toList := by
  intro c hc
  rw [newline, String.toList_append] at hc
  rcases List.mem_append.mp hc with hc | hc
  · have hbreak : c = '\n' := by simpa using hc
    rw [hbreak]
    decide
  · rw [String.toList_ofList] at hc
    rw [(List.mem_replicate.mp hc).2]
    decide

/-- The characters between two parts of a list or of an object. -/
def separator (first : Bool) : List Char :=
  if first then [] else [',']

mutual

/-- The written forms of a document. -/
inductive Written : Json → List Char → Prop
  | text (s : String) : Written (.text s) (quote s).toList
  | list {items : List Json} {body : List Char} (h : WrittenItems true items body) :
    Written (.list items) ('[' :: body)
  | object {members : List Member} {body : List Char} (h : WrittenMembers true members body) :
    Written (.object members) ('\x7b' :: body)

/-- The items of a list up to its end; the flag says whether they start the list. -/
inductive WrittenItems : Bool → List Json → List Char → Prop
  | nil {first : Bool} {blanks : List Char} (hb : Blanks blanks) :
    WrittenItems first [] (blanks ++ [']'])
  | cons {first : Bool} {j : Json} {items : List Json} {blanks cs tail : List Char}
    (hb : Blanks blanks) (h : Written j cs) (ht : WrittenItems false items tail) :
    WrittenItems first (j :: items) (separator first ++ (blanks ++ (cs ++ tail)))

/-- The members of an object up to its end; the flag says whether they start the object. -/
inductive WrittenMembers : Bool → List Member → List Char → Prop
  | nil {first : Bool} {blanks : List Char} (hb : Blanks blanks) :
    WrittenMembers first [] (blanks ++ ['\x7d'])
  | cons {first : Bool} {key : String} {j : Json} {members : List Member}
    {blanks blanks' cs tail : List Char} (hb : Blanks blanks) (hb' : Blanks blanks')
    (h : Written j cs) (ht : WrittenMembers false members tail) :
    WrittenMembers first (.mk key j :: members)
      (separator first ++ (blanks ++ ((quote key).toList ++ ':' :: (blanks' ++ (cs ++ tail)))))

end

/-! ## Induction over documents -/

section induction

variable {P : Json → Prop} (htext : ∀ s, P (.text s))
  (hlist : ∀ items, (∀ j ∈ items, P j) → P (.list items))
  (hobject : ∀ members : List Member, (∀ m ∈ members, P m.value) → P (.object members))

include htext hlist hobject

mutual

/-- What holds of a document if it holds of its parts holds of all documents. -/
theorem forall_of_parts : (j : Json) → P j
  | .text s => htext s
  | .list items => hlist items (forall_items_of_parts items)
  | .object members => hobject members (forall_members_of_parts members)
termination_by structural j => j

theorem forall_items_of_parts : (items : List Json) → ∀ j ∈ items, P j
  | [] => List.forall_mem_nil P
  | j :: items => List.forall_mem_cons.mpr ⟨forall_of_parts j, forall_items_of_parts items⟩
termination_by structural items => items

theorem forall_member_of_parts : (m : Member) → P m.value
  | .mk _ value => forall_of_parts value
termination_by structural m => m

theorem forall_members_of_parts : (members : List Member) → ∀ m ∈ members, P m.value
  | [] => List.forall_mem_nil fun m : Member => P m.value
  | m :: members =>
    List.forall_mem_cons.mpr ⟨forall_member_of_parts m, forall_members_of_parts members⟩
termination_by structural members => members

end

end induction

/-! ## The two ways of writing -/

theorem compactItems_eq (items : List Json) : compactItems items = items.map compact := by
  induction items with
  | nil => rfl
  | cons j items ih => rw [compactItems, ih, List.map_cons]

theorem compactMembers_eq (members : List Member) :
    compactMembers members = members.map compactMember := by
  induction members with
  | nil => rfl
  | cons m members ih => rw [compactMembers, ih, List.map_cons]

theorem prettyItems_eq (level : Nat) (items : List Json) :
    prettyItems level items = items.map (prettyAt level) := by
  induction items with
  | nil => rfl
  | cons j items ih => rw [prettyItems, ih, List.map_cons]

theorem prettyMembers_eq (level : Nat) (members : List Member) :
    prettyMembers level members = members.map (prettyMember level) := by
  induction members with
  | nil => rfl
  | cons m members ih => rw [prettyMembers, ih, List.map_cons]

/-- Parts behind blanks, with commas between them. -/
def joined (blanks : List Char) (texts : List String) : List Char :=
  [','].intercalate (texts.map fun text => blanks ++ text.toList)

theorem joined_cons (blanks : List Char) (text : String) (texts : List String) :
    joined blanks (text :: texts) = blanks ++ (text.toList ++
      if texts = [] then [] else ',' :: joined blanks texts) := by
  cases texts with
  | nil => simp [joined, List.intercalate]
  | cons text' texts => simp [joined, List.intercalate]

theorem WrittenItems.next {j : Json} {items : List Json} {body : List Char}
    (h : WrittenItems true (j :: items) body) : WrittenItems false (j :: items) (',' :: body) := by
  cases h with
  | cons hb h ht => exact .cons hb h ht

theorem writtenItems_joined {f : Json → String} {items : List Json} {blanks last : List Char}
    (hblanks : Blanks blanks) (hlast : Blanks last) (h : ∀ j ∈ items, Written j (f j).toList) :
    WrittenItems true items (joined blanks (items.map f) ++ (last ++ [']'])) := by
  induction items with
  | nil => exact .nil hlast
  | cons j items ih =>
    have hmore := ih fun j' hj' => h j' (List.mem_cons_of_mem j hj')
    have htail : WrittenItems false items
        ((if items.map f = [] then [] else ',' :: joined blanks (items.map f)) ++ (last ++ [']'])) := by
      cases items with
      | nil => exact .nil hlast
      | cons j' items => exact hmore.next
    rw [List.map_cons, joined_cons, List.append_assoc, List.append_assoc]
    exact .cons hblanks (h j List.mem_cons_self) htail

theorem WrittenMembers.next {m : Member} {members : List Member} {body : List Char}
    (h : WrittenMembers true (m :: members) body) :
    WrittenMembers false (m :: members) (',' :: body) := by
  cases h with
  | cons hb hb' h ht => exact .cons hb hb' h ht

/-- A member is written as its key, a colon and its value, perhaps with blanks before the value. -/
def MemberText (f : Member → String) (m : Member) : Prop :=
  ∃ key value blanks cs, m = .mk key value ∧ Blanks blanks ∧ Written value cs ∧
    (f m).toList = (quote key).toList ++ ':' :: (blanks ++ cs)

theorem writtenMembers_joined {f : Member → String} {members : List Member}
    {blanks last : List Char} (hblanks : Blanks blanks) (hlast : Blanks last)
    (h : ∀ m ∈ members, MemberText f m) :
    WrittenMembers true members (joined blanks (members.map f) ++ (last ++ ['\x7d'])) := by
  induction members with
  | nil => exact .nil hlast
  | cons m members ih =>
    have hmore := ih fun m' hm' => h m' (List.mem_cons_of_mem m hm')
    have htail : WrittenMembers false members
        ((if members.map f = [] then [] else ',' :: joined blanks (members.map f)) ++
          (last ++ ['\x7d'])) := by
      cases members with
      | nil => exact .nil hlast
      | cons m' members => exact hmore.next
    obtain ⟨key, value, blanks', cs, rfl, hb', hcs, htext⟩ := h m List.mem_cons_self
    have hall : WrittenMembers true (.mk key value :: members) _ := .cons hblanks hb' hcs htail
    rw [List.map_cons, joined_cons, htext]
    simpa [separator] using hall

theorem toList_joined (texts : List String) :
    (",".intercalate texts).toList = joined [] texts := by
  rw [String.toList_intercalate]
  rfl

theorem toList_enclosed (opening closing : String) (body : String) :
    (opening ++ body ++ closing).toList = opening.toList ++ (body.toList ++ closing.toList) := by
  rw [String.toList_append, String.toList_append, List.append_assoc]

theorem written_compact (j : Json) : Written j j.compact.toList := by
  induction j using forall_of_parts with
  | htext s => exact .text s
  | hlist items h =>
    have hitems := Written.list (writtenItems_joined blanks_nil blanks_nil h)
    rw [compact, toList_enclosed, compactItems_eq, toList_joined]
    exact hitems
  | hobject members h =>
    have hmembers : ∀ m ∈ members, MemberText compactMember m := by
      intro m hm
      obtain ⟨key, value⟩ := m
      refine ⟨key, value, [], _, rfl, blanks_nil, h _ hm, ?_⟩
      rw [compactMember, toList_enclosed]
      rfl
    have hobject := Written.object (writtenMembers_joined blanks_nil blanks_nil hmembers)
    rw [compact, toList_enclosed, compactMembers_eq, toList_joined]
    exact hobject

theorem toList_block (level : Nat) (opening closing : String) (parts : List String) :
    (block level opening closing parts).toList = opening.toList ++
      (joined (newline (level + 1)).toList parts ++
        ((if parts = [] then [] else (newline level).toList) ++ closing.toList)) := by
  cases parts with
  | nil => simp [block, joined, List.intercalate]
  | cons part parts =>
    have hparts : (",".intercalate ((part :: parts).map (newline (level + 1) ++ ·))).toList =
        joined (newline (level + 1)).toList (part :: parts) := by
      rw [toList_joined]
      simp [joined, Function.comp_def]
    unfold block
    dsimp only
    rw [String.toList_append, String.toList_append, String.toList_append, hparts,
      if_neg (List.cons_ne_nil part parts)]
    simp only [List.append_assoc]

theorem written_prettyAt (j : Json) (level : Nat) : Written j (j.prettyAt level).toList := by
  induction j using forall_of_parts generalizing level with
  | htext s => exact .text s
  | hlist items h =>
    have hlast : Blanks (if items.map (prettyAt (level + 1)) = [] then []
        else (newline level).toList) := by
      split
      · exact blanks_nil
      · exact blanks_newline level
    have hitems := Written.list (writtenItems_joined (blanks_newline (level + 1)) hlast
      fun j hj => h j hj (level + 1))
    rw [prettyAt, toList_block, prettyItems_eq]
    exact hitems
  | hobject members h =>
    have hlast : Blanks (if members.map (prettyMember (level + 1)) = [] then []
        else (newline level).toList) := by
      split
      · exact blanks_nil
      · exact blanks_newline level
    have hmembers : ∀ m ∈ members, MemberText (prettyMember (level + 1)) m := by
      intro m hm
      obtain ⟨key, value⟩ := m
      refine ⟨key, value, [' '], _, rfl, ?_, h _ hm (level + 1), ?_⟩
      · intro c hc
        rw [List.mem_singleton.mp hc]
        decide
      · rw [prettyMember, toList_enclosed]
        rfl
    have hobject := Written.object (writtenMembers_joined (blanks_newline (level + 1)) hlast hmembers)
    rw [prettyAt, toList_block, prettyMembers_eq]
    exact hobject

end Json

end ColumnLineage
