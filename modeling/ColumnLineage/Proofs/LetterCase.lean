import ColumnLineage.Analysis.Script
import ColumnLineage.Proofs.TextPieces

/-!
# The case of letters

Words without quotes are read in small letters, so a script may spell them in any case. It is cut
into the same tokens then, up to the spelling of these words, and fails at the same place if it
fails. There are two exceptions: a letter `L` right behind a number, and a letter `x` right behind a
zero, belong to the number in one case and start a word in the other.
-/

namespace ColumnLineage

namespace Token

/-! ## Texts that spell words in another case -/

/-- Whether the letter, right behind the token, goes on with it in small or in capital letters. -/
def holds : Token → Char → Bool
  | .number s, c => c.toLower = 'l' || (s = "0" && c.toLower = 'x')
  | _, _ => false

/-- Whether the second text is the first one but for the case of letters that belong to words
without quotes. The texts are cut along the tokens of the first one, of which `last` is the one
before; a first letter of a word that `kept` names stays as it is. -/
def respelled (kept : Token → Char → Bool) : Nat → Token → List Char → List Char → Bool
  | 0, _, cs, cs' => cs = cs'
  | fuel + 1, last, c :: rest, c' :: rest' =>
    match scanOne c rest with
    | .error _ => c :: rest = c' :: rest'
    | .ok (t, after) =>
      let n := rest.length - after.length
      let form := if t.isPlain then Char.toLower else id
      (c :: rest.take n).map form = (c' :: rest'.take n).map form && (!kept last c || c = c') &&
        respelled kept fuel t after (rest'.drop n)
  | _ + 1, _, cs, cs' => cs.isEmpty && cs'.isEmpty

/-- Whether the second script is the first one but for the case of unquoted words. -/
def respells (kept : Token → Char → Bool) (s s' : String) : Bool :=
  respelled kept s.toList.length .blank s.toList s'.toList

/-- The second text is read along the tokens of the first one, each in a spelling that is allowed,
until both go on alike. -/
inductive Respelling (kept : Token → Char → Bool) : Nat → Token → List Char → List Char → Prop
  | same {n : Nat} {last : Token} {cs : List Char} : Respelling kept n last cs cs
  | token {n : Nat} {last t : Token} {c c' : Char} {w w' after after' : List Char}
      (hone : scanOne c (w ++ after) = .ok (t, after))
      (hform : (c :: w).map (if t.isPlain then Char.toLower else id) =
        (c' :: w').map (if t.isPlain then Char.toLower else id))
      (hkept : kept last c = true → c = c') (hrest : Respelling kept n t after after') :
      Respelling kept (n + 1) last (c :: (w ++ after)) (c' :: (w' ++ after'))

section step

variable {x : Char} {cs left : List Char} {t : Token}

theorem scanOne_drop (h : scanOne x cs = .ok (t, left)) :
    left = cs.drop (cs.length - left.length) := by
  have hsame : ∀ b : List Char, ∀ t r, scanOne x cs = .ok (t, r) → KeepsOn t b b :=
    fun _ _ _ _ _ _ => Iff.rfl
  have hle : left.length ≤ cs.length := by
    have hnil := scanOne_end .nil x cs (by rw [List.append_nil]; exact hsame []) t left
      (by rw [List.append_nil, h]; rfl)
    rcases hnil with hlt | ⟨after, rfl, hle, -⟩
    · exact absurd hlt (Nat.not_lt_zero _)
    · rwa [List.append_nil]
  have hcut := List.take_append_drop (cs.length - left.length) cs
  have hend := scanOne_end (Near.refl (cs.drop (cs.length - left.length))) x
    (cs.take (cs.length - left.length)) (by rw [hcut]; exact hsame _) t left (by rw [hcut, h]; rfl)
  have hlength : (cs.drop (cs.length - left.length)).length = left.length := by
    rw [List.length_drop]
    omega
  rcases hend with hlt | ⟨after, hafter, -, -⟩
  · omega
  · have hnil := congrArg List.length hafter
    rw [List.length_append, hlength] at hnil
    rw [List.length_eq_zero_iff.mp (by omega : after.length = 0)] at hafter
    exact hafter

theorem scanOne_word (hblank : Text.isBlank x = false) (hname : startsName x = true)
    (htext : startsText x.toLower cs = false) :
    scanOne x cs =
      .ok (plainWord (x :: cs.takeWhile continuesName), cs.dropWhile continuesName) := by
  rw [← isSome_letteredText?] at htext
  rw [scanOne, if_neg (by rw [hblank]; decide), if_pos hname]
  cases hread : letteredText? x cs with
  | some read =>
    rw [hread] at htext
    cases htext
  | none => rfl

end step

section lower

variable {cs cs' left left' : List Char} {n : Nat} {t : Token}

theorem near_of_lower (h : cs.map Char.toLower = cs'.map Char.toLower) : Near cs cs' := by
  induction cs generalizing cs' with
  | nil =>
    rw [List.map_nil, eq_comm, List.map_eq_nil_iff] at h
    exact h ▸ .nil
  | cons c cs ih =>
    cases cs' with
    | nil => cases h
    | cons c' cs' => exact .cons (List.cons.inj h).1 (ih (List.cons.inj h).2)

theorem takeWhile_lower {p : Char → Bool} (hp : ∀ c : Char, p c.toLower = p c)
    (h : cs.map Char.toLower = cs'.map Char.toLower) :
    (cs.takeWhile p).map Char.toLower = (cs'.takeWhile p).map Char.toLower := by
  have hcomp : p ∘ Char.toLower = p := funext hp
  have hwhile : ∀ cs : List Char,
      (cs.map Char.toLower).takeWhile p = (cs.takeWhile p).map Char.toLower := by
    intro cs
    rw [List.takeWhile_map, hcomp]
  rw [← hwhile, ← hwhile, h]

theorem fold_plainWord (h : cs.map Char.toLower = cs'.map Char.toLower) :
    (plainWord cs).fold = (plainWord cs').fold := by
  have hcapitals : ∀ cs : List Char,
      (cs.map Char.toLower).flatMap capitals = cs.flatMap capitals := by
    intro cs
    rw [List.flatMap_map]
    exact congrArg (cs.flatMap ·) (funext (Text.eq_toLower_of_capitals (by decide)))
  have hvalue : Text.toLower (String.ofList cs) = Text.toLower (String.ofList cs') :=
    Text.toLower_eq_of_equalIgnoringCase (by simpa [Text.equalIgnoringCase] using h)
  unfold plainWord fold
  rw [← hcapitals cs, h, hcapitals cs']
  simp [hvalue]

theorem placeAfter_lower (cs : List Char) (place : Nat × Nat) :
    placeAfter place (cs.map Char.toLower) = placeAfter place cs := by
  induction cs generalizing place with
  | nil => rfl
  | cons c cs ih =>
    have hline : c.toLower = '\n' ↔ c = '\n' := decide_eq_decide.mp
      (Text.eq_toLower_of_capitals (p := fun c => decide (c = '\n')) (by decide) c)
    simp only [List.map_cons, placeAfter, hline, ih]

end lower

/-! ## Token by token -/

section run

variable {kept : Token → Char → Bool} {c c' : Char} {n : Nat} {last t : Token}
  {cs cs' after : List Char}

theorem respelling_of_respelled (h : respelled kept n last cs cs' = true) :
    Respelling kept n last cs cs' := by
  -- The check is unfolded here only: what follows is by induction on the relation.
  induction n generalizing last cs cs' with
  | zero => exact of_decide_eq_true h ▸ .same
  | succ n ih =>
    rcases cs with _ | ⟨c, rest⟩ <;> rcases cs' with _ | ⟨c', rest'⟩
    · exact .same
    · cases h
    · cases h
    · rw [respelled] at h
      cases hone : scanOne c rest with
      | error e =>
        rw [hone] at h
        exact of_decide_eq_true h ▸ .same
      | ok read =>
        obtain ⟨t, after⟩ := read
        rw [hone] at h
        obtain ⟨hword, hrest⟩ := Bool.and_eq_true_iff.mp h
        obtain ⟨hform, hkept⟩ := Bool.and_eq_true_iff.mp hword
        have hcut : rest.take (rest.length - after.length) ++ after = rest :=
          (congrArg (List.take _ rest ++ ·) (scanOne_drop hone)).trans (List.take_append_drop _ _)
        rw [← hcut] at hone ⊢
        rw [← List.take_append_drop (rest.length - after.length) rest']
        exact .token hone (of_decide_eq_true hform) (fun hc => by simpa [hc] using hkept) (ih hrest)

theorem Respelling.lower (h : Respelling kept n last cs cs') :
    cs.map Char.toLower = cs'.map Char.toLower := by
  induction h with
  | same => rfl
  | @token n last t c c' w w' after after' hone hform hkept hrest ih =>
    have hword : (c :: w).map Char.toLower = (c' :: w').map Char.toLower := by
      cases hplain : t.isPlain <;> simp_all
    rw [← List.cons_append, ← List.cons_append, List.map_append, List.map_append, hword, ih]

theorem holds_of_goesOn {d : Char} (hd : t.goesOn d = true) (hc : c.toLower = d.toLower) :
    t.holds c = true := by
  cases t with
  | number s =>
    rcases Bool.or_eq_true_iff.mp hd with hlong | hmark
    · simp [holds, hc, of_decide_eq_true hlong]
    · obtain ⟨hzero, hmark⟩ := Bool.and_eq_true_iff.mp hmark
      simp [holds, hc, of_decide_eq_true hzero, of_decide_eq_true hmark]
  | _ => cases hd

theorem Respelling.keepsOn (h : Respelling holds n last cs cs') : KeepsOn last cs cs' := by
  have hlower := h.lower
  intro d hd
  cases h with
  | same => rfl
  | token hone hform hkept hrest =>
    have hc := (List.cons.inj hlower).1
    constructor <;> intro he <;> obtain rfl := Option.some.inj he
    · rw [hkept (holds_of_goesOn hd rfl)]
      rfl
    · rw [hkept (holds_of_goesOn hd hc)]
      rfl

theorem scanOne_respelled {w w' after' : List Char} (hone : scanOne c (w ++ after) = .ok (t, after))
    (hform : (c :: w).map (if t.isPlain then Char.toLower else id) =
      (c' :: w').map (if t.isPlain then Char.toLower else id))
    (hafter : after.map Char.toLower = after'.map Char.toLower) (hkeeps : KeepsOn t after after') :
    ∃ t', scanOne c' (w' ++ after') = .ok (t', after') ∧ t'.fold = t.fold := by
  cases hplain : t.isPlain with
  | false =>
    obtain ⟨rfl, rfl⟩ : c = c' ∧ w = w' := by simpa [hplain] using hform
    have hend := scanOne_end (near_of_lower hafter) c w
      (fun t' r hr => (Prod.mk.inj (Except.ok.inj (hone.symm.trans hr))).1 ▸ hkeeps) t after
      (congrArg Except.toOption hone)
    rcases hend with hlt | ⟨b, hb, -, hread⟩
    · exact absurd hlt (Nat.lt_irrefl _)
    · rw [List.self_eq_append_left.mp hb] at hread
      exact ⟨t, eq_ok_of_toOption hread, rfl⟩
  | true =>
    rw [hplain, if_pos rfl] at hform
    obtain ⟨hblank, hname, htext⟩ := (scanOne_tells c _ _ _ hone).2 hplain
    have hc : c.toLower = c'.toLower := (List.cons.inj hform).1
    have hsame : ∀ {p : Char → Bool}, (∀ c : Char, p c.toLower = p c) → p c = p c' := fun hp => by
      rw [← hp c, hc, hp c']
    have hlower : (w ++ after).map Char.toLower = (w' ++ after').map Char.toLower := by
      rw [List.map_append, List.map_append, (List.cons.inj hform).2, hafter]
    -- The word of the first text, and the one of the second, which is as long.
    have hread := scanOne_word hblank hname htext
    rw [hone] at hread
    obtain ⟨rfl, hdrop⟩ := Prod.mk.inj (Except.ok.inj hread)
    have htake : (w ++ after).takeWhile continuesName = w := by
      have hcut := List.takeWhile_append_dropWhile (p := continuesName) (l := w ++ after)
      rw [← hdrop] at hcut
      exact List.append_cancel_right hcut
    have hlength := congrArg List.length (takeWhile_lower blind_name.letter hlower)
    have hword := congrArg List.length (List.cons.inj hform).2
    rw [htake] at hlength ⊢
    simp only [List.length_map] at hlength hword
    obtain ⟨htake', hdrop'⟩ := List.append_inj
      (List.takeWhile_append_dropWhile (p := continuesName) (l := w' ++ after')) (by omega)
    rw [hsame (p := Text.isBlank) (Text.eq_toLower_of_capitals (by decide))] at hblank
    rw [hsame (p := startsName) (Text.eq_toLower_of_capitals (by decide))] at hname
    rw [hc, (near_of_lower hlower).startsText] at htext
    refine ⟨_, scanOne_word hblank hname htext |>.trans ?_, fold_plainWord hform.symm⟩
    rw [htake', hdrop']

theorem Respelling.scanAt (h : Respelling holds n last cs cs') :
    (scanAt n cs').map (List.map fold) = (scanAt n cs).map (List.map fold) := by
  induction h with
  | same => rfl
  | @token n last t c c' w w' after after' hone hform hkept hrest ih =>
    obtain ⟨t', hone', hfold⟩ := scanOne_respelled hone hform hrest.lower hrest.keepsOn
    rw [Token.scanAt, Token.scanAt, hone, hone']
    dsimp only
    cases hmore : Token.scanAt n after <;> cases hmore' : Token.scanAt n after' <;>
      rw [hmore, hmore'] at ih
    · exact ih
    · cases ih
    · cases ih
    · exact congrArg Except.ok (congrArg₂ List.cons hfold (Except.ok.inj ih))

end run

/-- A script in another spelling is cut into the same tokens up to the case of unquoted words, or
fails at the same place. -/
theorem scan_respells {s s' : String} (h : respells holds s s' = true) :
    (scan s').map (List.map fold) = (scan s).map (List.map fold) := by
  have hspelled := respelling_of_respelled h
  have hlower := hspelled.lower
  have hlength : s'.toList.length = s.toList.length := by
    simpa using (congrArg List.length hlower).symm
  have hrun := hspelled.scanAt
  have herror : ∀ fault left, scanError s'.toList fault left = scanError s.toList fault left := by
    intro fault left
    unfold scanError
    rw [← placeAfter_lower (s'.toList.take _), ← placeAfter_lower (s.toList.take _), List.map_take,
      List.map_take, hlower, hlength]
  unfold scan
  rw [hlength]
  cases hcut : scanAt s.toList.length s.toList <;>
    cases hcut' : scanAt s.toList.length s'.toList <;> rw [hcut, hcut'] at hrun
  · obtain rfl := Except.error.inj hrun
    exact congrArg Except.error (herror _ _)
  · cases hrun
  · cases hrun
  · exact congrArg Except.ok (Except.ok.inj hrun)

end Token

/-! ## Scripts -/

theorem Script.parse_respells {s s' : String} (h : Token.respells Token.holds s s' = true)
    (dialect : Dialect) : parse dialect true s' = parse dialect true s := by
  have hscan := Token.scan_respells h
  unfold parse
  cases hs : Token.scan s <;> cases hs' : Token.scan s' <;> rw [hs, hs'] at hscan
  · rw [Except.error.inj hscan]
  · cases hscan
  · cases hscan
  · exact congrArg (ofTokens dialect) (Except.ok.inj hscan)

namespace AnalysisOptions

/-- A letter behind a number cannot be spelled in another case: `1l` is the number 1 with a name for
its column, and `1L` is a number. -/
theorem analyze_longNumber :
    let s := "CREATE TABLE t AS SELECT s.a + 1l FROM s"
    let s' := "CREATE TABLE t AS SELECT s.a + 1L FROM s"
    Token.respells (fun _ _ => false) s s' = true ∧
      (analyze {} ⟨∅⟩ s).lineage = .ofList [("t", ⟨["s"], .ofList [("l", ["s.a"])]⟩)] ∧
      (analyze {} ⟨∅⟩ s').lineage = .ofList [("t", ⟨["s"], .ofList [("_col_0", ["s.a"])]⟩)] := by
  decide +kernel

/-- The case of unquoted words does not matter to what a script gives and to which tables it reads,
but for a letter right behind a number that may go on with it. -/
theorem analyze_respelled {s s' : String} (h : Token.respells Token.holds s s' = true)
    (o : AnalysisOptions) (catalog : Catalog) (dialect : Dialect) :
    o.analyze catalog s' = o.analyze catalog s ∧
      discoverTables dialect s' = discoverTables dialect s := by
  constructor
  · unfold analyze AnalysisOptions.parse
    rw [Script.parse_respells h]
  · unfold discoverTables
    rw [Script.parse_respells h]

/-- Keywords and names in any case; the texts in quotes and the letter behind the number stay. -/
theorem analyze_respelled_mixed :
    let s := "CREATE TABLE t AS SELECT a \"N\", 'Q' || 1l FROM s -- End"
    let s' := "Create Table T as select A \"N\", 'Q' || 1l from S -- End"
    Token.respells Token.holds s s' = true ∧ analyze {} ⟨∅⟩ s' = analyze {} ⟨∅⟩ s ∧
      discoverTables .greenplum s' = discoverTables .greenplum s := by
  intro s s'
  have hrespells : Token.respells Token.holds s s' = true := by decide
  exact ⟨hrespells, analyze_respelled hrespells {} ⟨∅⟩ .greenplum⟩

end AnalysisOptions

end ColumnLineage
