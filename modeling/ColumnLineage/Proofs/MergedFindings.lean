import ColumnLineage.Command.Directory
import ColumnLineage.Proofs.Maps
import Mathlib.Data.List.Pairwise
import Mathlib.Data.List.Sort
import Mathlib.Data.String.Basic

/-!
# Findings of several files

Files are merged one after another in the order of their paths. The lineage of a later file replaces
that of an earlier one, and messages are added with the name of their file.
-/

namespace ColumnLineage

/-! ## Messages -/

namespace Findings

def messages (f : Findings) (key : String) : List String :=
  (f.errors.get? key).getD []

/-- All messages, each with the table that it is about. -/
def allMessages (f : Findings) : List (String × String) :=
  f.errors.entries.flatMap fun e => e.2.map (e.1, ·)

theorem messages_addErrors (f : Findings) (key : String) (more : List String) (key' : String) :
    (f.addErrors key more).messages key' =
      f.messages key' ++ if key = key' then more else [] := by
  unfold messages addErrors OrderedMap.alter
  rw [OrderedMap.get?_insert]
  by_cases h : key = key'
  · subst h
    simp
  · simp [h]

theorem mem_keys_addErrors {f : Findings} {key : String} {more : List String} {key' : String} :
    key' ∈ (f.addErrors key more).errors.keys ↔ key' ∈ f.errors.keys ∨ key' = key := by
  unfold addErrors OrderedMap.alter
  rw [OrderedMap.keys_insert]
  split
  · rename_i h
    exact ⟨Or.inl, fun hor => hor.elim id fun he => he ▸ h⟩
  · simp

/-- An entry that grows at its place, or comes last, grows by the messages that are added. -/
theorem flatMap_putEntry_perm (key : String) (more : List String) :
    (entries : List (String × List String)) →
      ((putEntry key (((entries.find? fun e => e.1 = key).map Prod.snd).getD [] ++ more)
        entries).flatMap fun e => e.2.map (e.1, ·)).Perm
        ((entries.flatMap fun e => e.2.map (e.1, ·)) ++ more.map (key, ·))
  | [] => by simp [putEntry]
  | (k, old) :: rest => by
      by_cases hk : k = key
      · subst hk
        simp only [List.find?_cons, decide_true, Option.map_some, Option.getD_some, putEntry,
          if_true, List.flatMap_cons, List.map_append, List.append_assoc]
        exact (List.perm_append_comm).append_left _
      · simp only [List.find?_cons, hk, decide_false, putEntry, if_false, List.flatMap_cons,
          List.append_assoc]
        exact (flatMap_putEntry_perm key more rest).append_left _

theorem allMessages_addErrors (f : Findings) (key : String) (more : List String) :
    (f.addErrors key more).allMessages.Perm (f.allMessages ++ more.map (key, ·)) :=
  flatMap_putEntry_perm key more f.errors.entries

/-! ## One file -/

section file

variable (file : String)

def addFileErrors (f : Findings) (entries : List (String × List String)) : Findings :=
  entries.foldl (fun f e => f.addErrors e.1 (e.2.map (inFile file))) f

theorem lineage_addFileErrors (entries : List (String × List String)) (f : Findings) :
    (f.addFileErrors file entries).lineage = f.lineage := by
  induction entries generalizing f with
  | nil => rfl
  | cons e rest ih => exact ih (f.addErrors e.1 _)

theorem messages_addFileErrors (key : String) (entries : List (String × List String))
    (f : Findings) :
    (f.addFileErrors file entries).messages key =
      f.messages key ++
        entries.flatMap fun e => if e.1 = key then e.2.map (inFile file) else [] := by
  induction entries generalizing f with
  | nil => exact (List.append_nil _).symm
  | cons e rest ih =>
    refine (ih (f.addErrors e.1 _)).trans ?_
    rw [messages_addErrors, List.append_assoc, List.flatMap_cons]

theorem mem_keys_addFileErrors {key : String} (entries : List (String × List String))
    (f : Findings) :
    key ∈ (f.addFileErrors file entries).errors.keys ↔
      key ∈ f.errors.keys ∨ key ∈ entries.map Prod.fst := by
  induction entries generalizing f with
  | nil => simp [addFileErrors]
  | cons e rest ih =>
    refine (ih (f.addErrors e.1 _)).trans ?_
    rw [mem_keys_addErrors, List.map_cons, List.mem_cons, or_assoc]

theorem allMessages_addFileErrors (entries : List (String × List String)) (f : Findings) :
    (f.addFileErrors file entries).allMessages.Perm
      (f.allMessages ++ (entries.flatMap fun e => e.2.map (e.1, ·)).map
        fun (key, message) => (key, inFile file message)) := by
  induction entries generalizing f with
  | nil => simp [addFileErrors]
  | cons e rest ih =>
    refine (ih (f.addErrors e.1 _)).trans ?_
    have hstep := allMessages_addErrors f e.1 (e.2.map (inFile file))
    refine (hstep.append_right _).trans ?_
    simp [List.append_assoc, Function.comp_def]

variable (f other : Findings)

theorem get?_lineage_mergeFile (key : String) :
    (f.mergeFile file other).lineage.get? key =
      (other.lineage.get? key).or (f.lineage.get? key) := by
  refine (congrArg (·.get? key) (lineage_addFileErrors file other.errors.entries _)).trans ?_
  exact OrderedMap.get?_insertAll_entries f.lineage other.lineage key

theorem messages_mergeFile (key : String) :
    (f.mergeFile file other).messages key =
      f.messages key ++ (other.messages key).map (inFile file) := by
  refine (messages_addFileErrors file key other.errors.entries _).trans ?_
  rw [OrderedMap.flatMap_entries, messages, messages, messages]
  cases other.errors.get? key <;> rfl

theorem mem_keys_mergeFile {key : String} :
    key ∈ (f.mergeFile file other).errors.keys ↔ key ∈ f.errors.keys ∨ key ∈ other.errors.keys :=
  mem_keys_addFileErrors file other.errors.entries _

theorem allMessages_mergeFile :
    (f.mergeFile file other).allMessages.Perm
      (f.allMessages ++ other.allMessages.map fun (key, message) => (key, inFile file message)) :=
  allMessages_addFileErrors file other.errors.entries _

end file

/-! ## All files -/

/-- The findings hold what is found in files that come in this order. -/
structure Collects (f : Findings) (found : ScriptFile → Findings) (files : List ScriptFile) :
    Prop where
  /-- The lineage of a table is that in the last file that has one. -/
  lineage : ∀ key, f.lineage.get? key =
    files.reverse.findSome? fun s => (found s).lineage.get? key
  /-- There are messages about a table exactly if a file has some. -/
  reported : ∀ key, key ∈ f.errors.keys ↔ ∃ s ∈ files, key ∈ (found s).errors.keys
  /-- The messages about a table are those of the files in their order. -/
  messages : ∀ key, f.messages key =
    files.flatMap fun s => ((found s).messages key).map (inFile s.name)
  /-- No message is lost, and none is there twice. -/
  allMessages : f.allMessages.Perm
    (files.flatMap fun s => (found s).allMessages.map fun (key, message) =>
      (key, inFile s.name message))

theorem collects_nil (found : ScriptFile → Findings) : Collects {} found [] where
  lineage _ := rfl
  reported key := by
    constructor
    · intro h
      cases h
    · rintro ⟨s, h, -⟩
      cases h
  messages _ := rfl
  allMessages := .nil

variable {f : Findings} {found : ScriptFile → Findings} {files : List ScriptFile}

theorem Collects.mergeFile (h : f.Collects found files) (s : ScriptFile) :
    (f.mergeFile s.name (found s)).Collects found (files ++ [s]) where
  lineage key := by
    rw [get?_lineage_mergeFile, h.lineage, List.reverse_concat]
    cases hs : (found s).lineage.get? key <;> simp [hs]
  reported key := by
    rw [mem_keys_mergeFile, h.reported]
    simp [or_and_right, exists_or]
  messages key := by
    rw [messages_mergeFile, h.messages]
    simp
  allMessages := by
    refine (allMessages_mergeFile s.name f (found s)).trans ?_
    rw [List.flatMap_append, List.flatMap_singleton]
    exact h.allMessages.append_right _

theorem Collects.mergeFiles (h : f.Collects found files) (more : List ScriptFile) :
    (more.foldl (fun f s => f.mergeFile s.name (found s)) f).Collects found (files ++ more) := by
  induction more generalizing f files with
  | nil => simpa using h
  | cons s more ih => simpa using ih (h.mergeFile s)

theorem disjoint_successful_errored (f : Findings) : f.successful.Disjoint f.errored := by
  intro key hs he
  have hnot := (List.mem_filter.mp hs).2
  rw [OrderedMap.contains, (OrderedMap.get?_isSome_iff _ _).mpr he] at hnot
  cases hnot

theorem mem_successful_or_errored {key : String} :
    key ∈ f.successful ∨ key ∈ f.errored ↔ key ∈ f.lineage.keys ∨ key ∈ f.errors.keys := by
  unfold successful errored
  rw [List.mem_filter]
  constructor
  · exact Or.imp_left And.left
  · rintro (hl | he)
    · by_cases he : key ∈ f.errors.keys
      · exact Or.inr he
      · refine Or.inl ⟨hl, ?_⟩
        rw [← OrderedMap.get?_isSome_iff] at he
        simpa [OrderedMap.contains] using he
    · exact Or.inr he

end Findings

/-! ## The order of files -/

theorem ScriptFile.path_ne_of_lt {a b : ScriptFile} (h : a.path < b.path) : a.path ≠ b.path := by
  intro he
  rw [he] at h
  exact List.lt_irrefl _ h

/-- Scripts with different paths have one order, however they are listed. -/
theorem ScriptFile.inOrder_eq {scripts files : List ScriptFile} (hp : scripts.Perm files)
    (ho : files.Pairwise fun a b => a.path < b.path) : ScriptFile.inOrder scripts = files := by
  have hasymm : ∀ a b : ScriptFile, ScriptFile.less a b → ¬ ScriptFile.less b a := fun a b h =>
    decide_eq_true_iff.not.mpr (List.lt_asymm (of_decide_eq_true h))
  have htrans : ∀ a b c : ScriptFile,
      ¬ ScriptFile.less b a → ¬ ScriptFile.less c b → ¬ ScriptFile.less c a := fun a b c hab hbc =>
    decide_eq_true_iff.not.mpr
      (IsOrderConnected.neg_trans (decide_eq_true_iff.not.mp hbc) (decide_eq_true_iff.not.mp hab))
  refine List.Perm.eq_of_pairwise ?_ (Text.pairwise_sortWith hasymm htrans scripts)
    (ho.imp fun h => hasymm _ _ (decide_eq_true h)) ((Text.sortWith_perm _ scripts).trans hp)
  -- Two files in an order both ways have one path, and only one of the files has it.
  intro a b ha hb hab hba
  have hpath : a.path = b.path :=
    List.le_antisymm (decide_eq_true_iff.not.mp hab) (decide_eq_true_iff.not.mp hba)
  have ha : a ∈ files := hp.mem_iff.mp ((Text.sortWith_perm _ scripts).mem_iff.mp ha)
  have hsymm : Std.Symm fun a b : ScriptFile => a.path ≠ b.path := ⟨fun _ _ => Ne.symm⟩
  by_contra hne
  exact (ho.imp ScriptFile.path_ne_of_lt).forall ha hb hne hpath

end ColumnLineage
