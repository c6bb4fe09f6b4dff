/-!
# Maps that keep the order of insertion

A map with one value per key, listed in the order in which the keys came in. A value that is
replaced stays at its place.

* `keys_insert`: a known key changes no order, and a new one comes last.
* `get?_insert`: an insertion is seen under its own key and under no other.
-/

namespace ColumnLineage

/-! ## Entries -/

/-- Replaces the value of a key at its place, or adds the key at the end. -/
def putEntry {κ α : Type} [DecidableEq κ] (key : κ) (value : α) : List (κ × α) → List (κ × α)
  | [] => [(key, value)]
  | (k, v) :: rest => if k = key then (k, value) :: rest else (k, v) :: putEntry key value rest

section entries

variable {κ α : Type} [DecidableEq κ]

/-- A known key changes no key, and a new key comes last. -/
theorem map_fst_putEntry (key : κ) (value : α) (entries : List (κ × α)) :
    (putEntry key value entries).map Prod.fst =
      if key ∈ entries.map Prod.fst then entries.map Prod.fst
      else entries.map Prod.fst ++ [key] := by
  induction entries with
  | nil => simp [putEntry]
  | cons e rest ih =>
    obtain ⟨k, v⟩ := e
    by_cases h : k = key
    · simp [putEntry, h]
    · have h' : key ≠ k := fun e => h e.symm
      simp only [putEntry, h, if_false, List.map_cons, ih, List.mem_cons, h', false_or]
      split <;> simp

/-- Putting an entry keeps keys distinct. -/
theorem nodup_putEntry {key : κ} {value : α} {entries : List (κ × α)}
    (h : (entries.map Prod.fst).Nodup) : ((putEntry key value entries).map Prod.fst).Nodup := by
  rw [map_fst_putEntry]
  split
  · exact h
  · rename_i hn
    rw [List.nodup_append]
    exact ⟨h, by simp, by
      intro a ha b hb
      simp only [List.mem_singleton] at hb
      subst hb
      intro hab
      exact hn (hab ▸ ha)⟩

end entries

/-! ## Maps -/

/-- A map from keys to values in the order of insertion. -/
structure OrderedMap (κ α : Type) where
  /-- The entries in the order in which their keys came in. -/
  entries : List (κ × α)
  nodup : (entries.map Prod.fst).Nodup

namespace OrderedMap

variable {κ α β : Type}

/-- Two maps are equal if their entries are. -/
theorem eq_of_entries {a b : OrderedMap κ α} (h : a.entries = b.entries) : a = b := by
  cases a
  cases b
  cases h
  rfl

instance [DecidableEq κ] [DecidableEq α] : DecidableEq (OrderedMap κ α) := fun a b =>
  if h : a.entries = b.entries then isTrue (eq_of_entries h)
  else isFalse fun e => h (congrArg entries e)

def empty : OrderedMap κ α :=
  ⟨[], by simp⟩

instance : EmptyCollection (OrderedMap κ α) :=
  ⟨empty⟩

instance : Inhabited (OrderedMap κ α) :=
  ⟨empty⟩

/-- The keys in the order in which they came in. -/
def keys (m : OrderedMap κ α) : List κ :=
  m.entries.map Prod.fst

/-- The values in the order of their keys. -/
def values (m : OrderedMap κ α) : List α :=
  m.entries.map Prod.snd

def isEmpty (m : OrderedMap κ α) : Bool :=
  m.entries.isEmpty

@[simp] theorem keys_empty : (empty : OrderedMap κ α).keys = [] := rfl

variable [DecidableEq κ]

def get? (m : OrderedMap κ α) (key : κ) : Option α :=
  (m.entries.find? fun e => e.1 = key).map Prod.snd

def contains (m : OrderedMap κ α) (key : κ) : Bool :=
  (m.get? key).isSome

/-- Gives a key a value. A known key stays at its place, and a new one comes last. -/
def insert (m : OrderedMap κ α) (key : κ) (value : α) : OrderedMap κ α :=
  ⟨putEntry key value m.entries, nodup_putEntry m.nodup⟩

/-- Gives a key the value that `f` makes of its present one. -/
def alter (m : OrderedMap κ α) (key : κ) (f : Option α → α) : OrderedMap κ α :=
  m.insert key (f (m.get? key))

def insertAll (m : OrderedMap κ α) (entries : List (κ × α)) : OrderedMap κ α :=
  entries.foldl (fun m e => m.insert e.1 e.2) m

/-- The map that holds the entries, each key at its first place with its last value. -/
def ofList (entries : List (κ × α)) : OrderedMap κ α :=
  empty.insertAll entries

/-! ## Laws -/

@[simp] theorem get?_empty (key : κ) : (empty : OrderedMap κ α).get? key = none := rfl

/-- A known key changes no order, and a new one comes last. -/
theorem keys_insert (m : OrderedMap κ α) (key : κ) (value : α) :
    (m.insert key value).keys = if key ∈ m.keys then m.keys else m.keys ++ [key] :=
  map_fst_putEntry key value m.entries

/-- An insertion is seen under its own key and under no other. -/
theorem get?_insert (m : OrderedMap κ α) (key : κ) (value : α) (key' : κ) :
    (m.insert key value).get? key' = if key = key' then some value else m.get? key' := by
  obtain ⟨entries, nodup⟩ := m
  simp only [insert, get?]
  clear nodup
  induction entries with
  | nil => by_cases h : key = key' <;> simp [putEntry, h]
  | cons e rest ih =>
    obtain ⟨k, v⟩ := e
    by_cases hk : k = key
    · by_cases h : key = key'
      · simp [putEntry, hk, h]
      · simp [putEntry, hk, h]
    · by_cases h : k = key'
      · subst h
        have h' : key ≠ k := fun e => hk e.symm
        simp [putEntry, hk, h']
      · simp only [putEntry, hk, if_false, List.find?_cons, h, decide_false]
        exact ih

/-- A key has a value exactly if it is one of the keys. -/
theorem get?_isSome_iff (m : OrderedMap κ α) (key : κ) :
    (m.get? key).isSome ↔ key ∈ m.keys := by
  simp [get?, keys, List.find?_isSome]

end OrderedMap

end ColumnLineage
