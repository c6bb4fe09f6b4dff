import ColumnLineage.Proofs.JsonLayout
import ColumnLineage.Proofs.Maps
import ColumnLineage.Proofs.Steps

/-!
# Reading written JSON documents

A reader accepts a document if it reads one and the same value from all written forms of it and
leaves what follows. Readers of lists, objects, maps and records accept documents whose parts they
accept.
-/

namespace ColumnLineage.JsonReader

open Json (Blanks Written WrittenItems WrittenMembers escape quote separator)

variable {α β σ : Type}

/-! ## Texts -/

variable {rest : List Char}

theorem run_bind_of_ok {m : JsonReader α} {f : α → JsonReader β} {chars : List Char} {a : α}
    (h : m chars = .ok (a, rest)) : (m >>= f) chars = f a rest := by
  change (m chars >>= fun p => f p.1 p.2) = _
  rw [h]
  rfl

theorem hexValue?_hexDigit : ∀ n < 16, Text.hexValue? (Json.hexDigit n) = some n := by
  decide

theorem holdsFourBytes_cons (a b c d : Char) (rest : List Char) :
    holdsFourBytes (a :: b :: c :: d :: rest) = true := by
  have ha := a.utf8Size_pos
  have hb := b.utf8Size_pos
  have hc := c.utf8Size_pos
  have hd := d.utf8Size_pos
  simp only [holdsFourBytes, List.take, List.foldr, decide_eq_true_eq]
  omega

variable {c : Char}

theorem textFrom_plain (c : Char) (read rest : List Char) :
    textFrom .plain read (c :: rest) =
      if c = '"' then .ok (String.ofList read.reverse, rest)
      else if c = '\\' then textFrom .backslash read rest
      else if c.toNat < 32 then .error .malformed
      else textFrom .plain (c :: read) rest :=
  rfl

theorem textFrom_backslash_u (read rest : List Char) :
    textFrom .backslash read ('u' :: rest) =
      if holdsFourBytes rest then textFrom (.digits 4 0 none) read rest else .error .incomplete :=
  rfl

theorem textFrom_digit {d left value : Nat} {high : Option Nat} {read : List Char}
    (h : Text.hexValue? c = some d) :
    textFrom (.digits (left + 2) value high) read (c :: rest) =
      textFrom (.digits (left + 1) (value * 16 + d) high) read rest := by
  rw [textFrom, h]
  exact if_pos (by omega)

theorem textFrom_lastDigit {d value : Nat} {read : List Char} (h : Text.hexValue? c = some d)
    (hvalue : value * 16 + d < 0xD800) :
    textFrom (.digits 1 value none) read (c :: rest) =
      textFrom .plain (Char.ofNat (value * 16 + d) :: read) rest := by
  have hcode : ofCode (value * 16 + d) none = .ok (.inl (Char.ofNat (value * 16 + d))) := by
    unfold ofCode
    rw [if_neg (by omega), if_neg (by omega)]
  rw [textFrom, h]
  dsimp only
  rw [if_neg (by omega), hcode]

theorem textFrom_escape (c : Char) (read rest : List Char) :
    textFrom .plain read (escape c ++ rest) = textFrom .plain (c :: read) rest := by
  unfold escape
  split
  · rename_i h
    subst h
    rfl
  split
  · rename_i h
    subst h
    rfl
  split
  · rename_i h
    subst h
    rfl
  split
  · rename_i h
    subst h
    rfl
  split
  · rename_i h
    subst h
    rfl
  split
  · rename_i h
    have hc : c = Char.ofNat 8 := by rw [← h, Char.ofNat_toNat]
    rw [hc]
    rfl
  split
  · rename_i h
    have hc : c = Char.ofNat 12 := by rw [← h, Char.ofNat_toNat]
    rw [hc]
    rfl
  split
  · rename_i hcontrol
    have hhigh := hexValue?_hexDigit (c.toNat / 16) (by omega)
    have hlow := hexValue?_hexDigit (c.toNat % 16) (by omega)
    have hzero : Text.hexValue? '0' = some 0 := by decide
    have hvalue : (((0 * 16 + 0) * 16 + 0) * 16 + c.toNat / 16) * 16 + c.toNat % 16 = c.toNat := by
      omega
    simp only [List.cons_append, List.nil_append]
    rw [textFrom_plain, if_neg (by decide), if_pos rfl, textFrom_backslash_u,
      if_pos (holdsFourBytes_cons _ _ _ _ rest), textFrom_digit hzero, textFrom_digit hzero,
      textFrom_digit hhigh, textFrom_lastDigit hlow (by omega), hvalue, Char.ofNat_toNat]
  · rename_i hquote hbackslash _ _ _ _ _ hcontrol
    rw [List.singleton_append, textFrom_plain, if_neg hquote, if_neg hbackslash, if_neg hcontrol]

theorem textFrom_escapes (cs read rest : List Char) :
    textFrom .plain read (cs.flatMap escape ++ '"' :: rest) =
      .ok (String.ofList (read.reverse ++ cs), rest) := by
  induction cs generalizing read with
  | nil =>
    rw [List.flatMap_nil, List.nil_append, textFrom_plain, if_pos rfl, List.append_nil]
  | cons c cs ih =>
    rw [List.flatMap_cons, List.append_assoc, textFrom_escape, ih, List.reverse_cons,
      List.append_assoc]
    rfl

theorem toList_quote (s : String) :
    (quote s).toList = '"' :: (s.toList.flatMap escape ++ ['"']) := by
  simp [quote]

/-- A text is read back from what is written between its quotes. -/
theorem textTail_quote (s : String) (rest : List Char) :
    textTail ((quote s).toList.tail ++ rest) = .ok (s, rest) := by
  have hread := textFrom_escapes s.toList [] rest
  rw [List.reverse_nil, List.nil_append, String.ofList_toList] at hread
  rw [toList_quote, List.tail_cons, List.append_assoc]
  exact hread

/-! ## Blanks -/

variable {blanks : List Char}

theorem peek_blanks (h : Blanks blanks) (hc : isBlank c = false) (rest : List Char) :
    peek (blanks ++ c :: rest) = .ok (some c, c :: rest) := by
  have hdrop : (blanks ++ c :: rest).dropWhile isBlank = c :: rest := by
    induction blanks with
    | nil => simp [hc]
    | cons b blanks ih =>
      rw [List.cons_append, List.dropWhile_cons, if_pos (h b List.mem_cons_self)]
      exact ih fun b' hb' => h b' (List.mem_cons_of_mem b hb')
  change Except.ok (((blanks ++ c :: rest).dropWhile isBlank).head?,
    (blanks ++ c :: rest).dropWhile isBlank) = _
  rw [hdrop]
  rfl

theorem opening_blanks (h : Blanks blanks) (hc : isBlank c = false) (rest : List Char) :
    opening c (blanks ++ c :: rest) = .ok ((), rest) := by
  refine (run_bind_of_ok (peek_blanks h hc rest)).trans ?_
  dsimp only
  rw [if_pos rfl]
  rfl

/-! ## What a reader accepts -/

/-- The reader reads the value from every written form of the document, and leaves what follows. -/
def Accepts (reader : JsonReader α) (j : Json) (a : α) : Prop :=
  ∀ blanks, Blanks blanks → ∀ cs, Written j cs → ∀ rest,
    reader (blanks ++ (cs ++ rest)) = .ok (a, rest)

theorem accepts_text (s : String) : Accepts text (.text s) s := by
  intro blanks hblanks cs hcs rest
  cases hcs
  have hquote : (quote s).toList ++ rest = '"' :: ((quote s).toList.tail ++ rest) := by
    rw [toList_quote]
    rfl
  rw [hquote]
  exact (run_bind_of_ok (opening_blanks hblanks (by decide) _)).trans (textTail_quote s rest)

variable {reader : JsonReader α}

theorem Accepts.bind {j : Json} {a : α} {f : α → JsonReader β} {b : β} (h : Accepts reader j a)
    (hf : ∀ rest, f a rest = .ok (b, rest)) : Accepts (reader >>= f) j b := by
  intro blanks hblanks cs hcs rest
  exact (run_bind_of_ok (h blanks hblanks cs hcs rest)).trans (hf rest)

theorem Accepts.map {j : Json} {a : α} (h : Accepts reader j a) (f : α → β) :
    Accepts (do return f (← reader)) j (f a) :=
  h.bind fun _ => rfl

/-- The first character of a written form, which is no blank and closes nothing. -/
theorem head_of_written {j : Json} {cs : List Char} (h : Written j cs) :
    ∃ c tail, cs = c :: tail ∧ isBlank c = false ∧ c ≠ ']' ∧ c ≠ '\x7d' := by
  cases h with
  | text s => exact ⟨'"', _, toList_quote s, by decide, by decide, by decide⟩
  | list h => exact ⟨'[', _, rfl, by decide, by decide, by decide⟩
  | object h => exact ⟨'\x7b', _, rfl, by decide, by decide, by decide⟩

/-! ## Parts -/

variable {closing : Char}

theorem another_end (hb : Blanks blanks) (hc : isBlank closing = false) (first : Bool)
    (rest : List Char) :
    another closing first (blanks ++ closing :: rest) = .ok (false, closing :: rest) := by
  refine (run_bind_of_ok (peek_blanks hb hc rest)).trans ?_
  dsimp only
  rw [if_pos rfl]
  rfl

theorem another_part (hb : Blanks blanks) (hc : isBlank c = false) (hne : c ≠ closing)
    (hcomma : ',' ≠ closing) (first : Bool) (rest : List Char) :
    another closing first (separator first ++ (blanks ++ c :: rest)) = .ok (true, c :: rest) := by
  cases first with
  | true =>
    refine (run_bind_of_ok (peek_blanks hb hc rest)).trans ?_
    dsimp only
    rw [if_neg hne]
    rfl
  | false =>
    have hpeek := peek_blanks Json.blanks_nil (show isBlank ',' = false by decide)
      (blanks ++ c :: rest)
    refine (run_bind_of_ok hpeek).trans ?_
    dsimp only
    rw [if_neg hcomma, if_neg Bool.false_ne_true, if_pos rfl]
    have hskip : skip (',' :: (blanks ++ c :: rest)) = .ok ((), blanks ++ c :: rest) := rfl
    refine (run_bind_of_ok hskip).trans ((run_bind_of_ok (peek_blanks hb hc rest)).trans ?_)
    dsimp only
    rw [if_neg hne]
    rfl

variable {part : σ → JsonReader σ}

theorem parts_end (hb : Blanks blanks) (hc : isBlank closing = false) (n : Nat) (first : Bool)
    (state : σ) (rest : List Char) :
    parts closing part (n + 1) first state (blanks ++ closing :: rest) = .ok (state, rest) :=
  run_bind_of_ok (another_end hb hc first rest)

theorem parts_next {cs : List Char} {state state' : σ} (hb : Blanks blanks) (hc : isBlank c = false)
    (hne : c ≠ closing) (hcomma : ',' ≠ closing) (hpart : part state (c :: cs) = .ok (state', rest))
    (n : Nat) (first : Bool) :
    parts closing part (n + 1) first state (separator first ++ (blanks ++ c :: cs)) =
      parts closing part n false state' rest :=
  (run_bind_of_ok (another_part hb hc hne hcomma first cs)).trans (run_bind_of_ok hpart)

/-! ## Lists -/

variable {body : List Char}

theorem length_le_of_writtenItems {first : Bool} {items : List Json}
    (h : WrittenItems first items body) : items.length + 1 ≤ body.length := by
  induction items generalizing first body with
  | nil =>
    cases h with
    | nil hb => simp
  | cons j items ih =>
    cases h with
    | cons hb hj ht =>
      obtain ⟨c, tail, rfl, -⟩ := head_of_written hj
      have := ih ht
      simp
      omega

variable {f : α → Json}

theorem parts_items {as : List α} (h : ∀ a ∈ as, Accepts reader (f a) a) {first : Bool}
    (hbody : WrittenItems first (as.map f) body) {n : Nat} (hn : as.length < n) (read : List α)
    (rest : List Char) :
    parts ']' (fun read => do return (← reader) :: read) n first read (body ++ rest) =
      .ok (as.reverse ++ read, rest) := by
  induction as generalizing first body n read with
  | nil =>
    obtain ⟨n, rfl⟩ : ∃ m, n = m + 1 := ⟨n - 1, by simp at hn; omega⟩
    cases hbody with
    | nil hb =>
      rw [List.append_assoc]
      exact parts_end hb (by decide) n first read rest
  | cons a as ih =>
    obtain ⟨n, rfl⟩ : ∃ m, n = m + 1 := ⟨n - 1, by simp at hn; omega⟩
    cases hbody with
    | @cons _ _ _ blanks cs tail hb hj ht =>
      obtain ⟨c, cs, rfl, hblank, hclosing, -⟩ := head_of_written hj
      have hread := h a List.mem_cons_self [] Json.blanks_nil _ hj (tail ++ rest)
      have hpart : (do return (← reader) :: read : JsonReader (List α)) (c :: (cs ++ (tail ++ rest))) =
          .ok (a :: read, tail ++ rest) := run_bind_of_ok hread
      have hmore := ih (fun a' ha' => h a' (List.mem_cons_of_mem a ha')) ht
        (Nat.lt_of_succ_lt_succ hn) (a :: read)
      rw [List.append_assoc, List.append_assoc, List.append_assoc, List.reverse_cons,
        List.append_assoc]
      exact (parts_next hb hblank hclosing (by decide) hpart n first).trans hmore

theorem accepts_list {as : List α} (h : ∀ a ∈ as, Accepts reader (f a) a) :
    Accepts (list reader) (.list (as.map f)) as := by
  intro blanks hblanks cs hcs rest
  cases hcs with
  | @list _ body hbody =>
    have hlength : as.length < (body ++ rest).length := by
      have hle := length_le_of_writtenItems hbody
      rw [List.length_map] at hle
      rw [List.length_append]
      omega
    have hparts := parts_items h hbody hlength [] rest
    refine (run_bind_of_ok (opening_blanks hblanks (by decide) (body ++ rest))).trans ?_
    refine (run_bind_of_ok (m := get) rfl).trans ((run_bind_of_ok hparts).trans ?_)
    rw [List.append_nil, List.reverse_reverse]
    rfl

/-! ## Objects -/

variable {members : List Member}

theorem length_le_of_writtenMembers {first : Bool} (h : WrittenMembers first members body) :
    members.length + 1 ≤ body.length := by
  induction members generalizing first body with
  | nil =>
    cases h with
    | nil hb => simp
  | cons m members ih =>
    cases h with
    | cons hb hb' hj ht =>
      have := ih ht
      simp
      omega

theorem key_quote (s : String) (rest : List Char) :
    key ((quote s).toList ++ rest) = .ok (s, rest) := by
  have hquote : (quote s).toList ++ rest = '"' :: ((quote s).toList.tail ++ rest) := by
    rw [toList_quote]
    rfl
  have hpeek := peek_blanks Json.blanks_nil (show isBlank '"' = false by decide)
    ((quote s).toList.tail ++ rest)
  have hskip : skip ('"' :: ((quote s).toList.tail ++ rest)) =
      .ok ((), (quote s).toList.tail ++ rest) := rfl
  rw [hquote]
  exact (run_bind_of_ok hpeek).trans ((run_bind_of_ok hskip).trans (textTail_quote s rest))

theorem colon_run (rest : List Char) : colon (':' :: rest) = .ok ((), rest) :=
  run_bind_of_ok (peek_blanks Json.blanks_nil (show isBlank ':' = false by decide) rest)

/-- What is done with the members of an object: with the state before, each one leads to the
next state. -/
inductive Follows (part : σ → JsonReader σ) : σ → List Member → σ → Prop
  | nil (state : σ) : Follows part state [] state
  | cons {state next last : σ} {key : String} {j : Json} {members : List Member}
    (h : ∀ blanks, Blanks blanks → ∀ cs, Written j cs → ∀ rest,
      part state ((quote key).toList ++ ':' :: (blanks ++ (cs ++ rest))) = .ok (next, rest))
    (ht : Follows part next members last) : Follows part state (.mk key j :: members) last

theorem parts_members {state last : σ} (h : Follows part state members last) {first : Bool}
    (hbody : WrittenMembers first members body) {n : Nat} (hn : members.length < n)
    (rest : List Char) : parts '\x7d' part n first state (body ++ rest) = .ok (last, rest) := by
  induction h generalizing first body n with
  | nil state =>
    obtain ⟨n, rfl⟩ : ∃ m, n = m + 1 := ⟨n - 1, by simp at hn; omega⟩
    cases hbody with
    | nil hb =>
      rw [List.append_assoc]
      exact parts_end hb (by decide) n first state rest
  | @cons state next last key j members h _ ih =>
    obtain ⟨n, rfl⟩ : ∃ m, n = m + 1 := ⟨n - 1, by simp at hn; omega⟩
    cases hbody with
    | @cons _ _ _ _ blanks blanks' cs tail hb hb' hj ht =>
      have hpart := h blanks' hb' cs hj (tail ++ rest)
      have hmore := ih ht (Nat.lt_of_succ_lt_succ hn)
      have hquote : (quote key).toList = '"' :: (quote key).toList.tail := by
        rw [toList_quote]
        rfl
      rw [hquote] at hpart
      have hnext : parts '\x7d' part (n + 1) first state _ = _ :=
        parts_next hb (by decide) (by decide) (by decide) hpart n first
      have hbody : separator first ++ (blanks ++ ((quote key).toList ++
            ':' :: (blanks' ++ (cs ++ tail)))) ++ rest =
          separator first ++ (blanks ++ '"' :: ((quote key).toList.tail ++
            ':' :: (blanks' ++ (cs ++ (tail ++ rest))))) := by
        rw [hquote]
        simp
      rw [hbody]
      exact hnext.trans hmore

/-- Reads the key of a member, and puts the member before those that are read. -/
def memberPart (reader : JsonReader α) (read : List (String × α)) :
    JsonReader (List (String × α)) := do
  let k ← key
  colon
  return (k, ← reader) :: read

theorem object_eq (reader : JsonReader α) :
    object reader = do
      opening '\x7b'
      let read ← parts '\x7d' (memberPart reader) (← get).length true []
      return read.reverse :=
  rfl

theorem follows_members {es : List (String × α)} (h : ∀ e ∈ es, Accepts reader (f e.2) e.2)
    (read : List (String × α)) :
    Follows (memberPart reader) read (es.map fun e => .mk e.1 (f e.2)) (es.reverse ++ read) := by
  induction es generalizing read with
  | nil => exact .nil read
  | cons e es ih =>
    rw [List.reverse_cons, List.append_assoc]
    refine .cons (fun blanks hb cs hcs rest => ?_)
      (ih (fun e' he' => h e' (List.mem_cons_of_mem e he')) (e :: read))
    have hread := h e List.mem_cons_self blanks hb cs hcs rest
    refine (run_bind_of_ok (key_quote e.1 _)).trans ((run_bind_of_ok (colon_run _)).trans ?_)
    exact run_bind_of_ok hread

theorem accepts_object {es : List (String × α)} (h : ∀ e ∈ es, Accepts reader (f e.2) e.2) :
    Accepts (object reader) (.object (es.map fun e => .mk e.1 (f e.2))) es := by
  intro blanks hblanks cs hcs rest
  cases hcs with
  | @object _ body hbody =>
    have hlength := length_le_of_writtenMembers hbody
    have hparts := parts_members (follows_members h []) hbody
      (n := (body ++ rest).length) (by rw [List.length_append]; omega) rest
    rw [object_eq]
    refine (run_bind_of_ok (opening_blanks hblanks (by decide) (body ++ rest))).trans ?_
    refine (run_bind_of_ok (m := get) rfl).trans ((run_bind_of_ok hparts).trans ?_)
    rw [List.append_nil, List.reverse_reverse]
    rfl

theorem accepts_map {m : OrderedMap String α} (h : ∀ e ∈ m.entries, Accepts reader (f e.2) e.2) :
    Accepts (map reader) (.object (m.entries.map fun e => .mk e.1 (f e.2))) m := by
  have hmap := (accepts_object h).map OrderedMap.ofList
  rw [OrderedMap.ofList_entries] at hmap
  exact hmap

/-! ## Records -/

/-- Reads the key of a field and what the field holds. -/
def fieldPart (field : String → σ → Except JsonFault (Option (JsonReader σ))) (state : σ) :
    JsonReader σ := do
  let k ← key
  match field k state with
  | .error e => throw e
  | .ok none =>
    colon
    ignored
    return state
  | .ok (some value) =>
    colon
    value

theorem record_eq (field : String → σ → Except JsonFault (Option (JsonReader σ))) (start : σ) :
    record field start = (do
      opening '\x7b'
      parts '\x7d' (fieldPart field) (← get).length true start) :=
  rfl

theorem Follows.field {field : String → σ → Except JsonFault (Option (JsonReader σ))}
    {state next last : σ} {name : String} {j : Json} {value : JsonReader σ}
    (hfield : field name state = .ok (some value)) (h : Accepts value j next)
    (ht : Follows (fieldPart field) next members last) :
    Follows (fieldPart field) state (.mk name j :: members) last := by
  refine .cons (fun blanks hb cs hcs rest => ?_) ht
  refine (run_bind_of_ok (key_quote name _)).trans ?_
  rw [hfield]
  exact (run_bind_of_ok (colon_run _)).trans (h blanks hb cs hcs rest)

theorem accepts_record {field : String → σ → Except JsonFault (Option (JsonReader σ))}
    {start last : σ} (h : Follows (fieldPart field) start members last) :
    Accepts (record field start) (.object members) last := by
  intro blanks hblanks cs hcs rest
  cases hcs with
  | @object _ body hbody =>
    have hlength := length_le_of_writtenMembers hbody
    have hparts := parts_members h hbody
      (n := (body ++ rest).length) (by rw [List.length_append]; omega) rest
    rw [record_eq]
    refine (run_bind_of_ok (opening_blanks hblanks (by decide) (body ++ rest))).trans ?_
    exact (run_bind_of_ok (m := get) rfl).trans hparts

theorem accepts_recordOrList {byName byPosition : JsonReader α} {a : α}
    (h : Accepts byName (.object members) a) :
    Accepts (recordOrList byName byPosition) (.object members) a := by
  intro blanks hblanks cs hcs rest
  cases hcs with
  | @object _ body hbody =>
    have hpeek := peek_blanks hblanks (show isBlank '\x7b' = false by decide) (body ++ rest)
    have hread := h [] Json.blanks_nil _ (.object hbody) rest
    exact (run_bind_of_ok hpeek).trans hread

/-! ## Whole documents -/

theorem run_of_accepts {j : Json} {a : α} (h : Accepts reader j a) {document : String}
    (hwritten : Written j document.toList) : run reader document = .ok a := by
  have hread := h [] Json.blanks_nil document.toList hwritten []
  rw [List.nil_append, List.append_nil] at hread
  unfold run
  rw [hread]
  rfl

end ColumnLineage.JsonReader
