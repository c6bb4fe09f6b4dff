import ColumnLineage.Proofs.JsonReaders
import ColumnLineage.Report.Basic

/-!
# Documents

Reports and catalogs are written as JSON documents, and read back as they were: keys, texts and
points in time are the same, and maps and lists have the same order.

* `ofJson_json`: reports and catalogs are read back from the documents that are written.
-/

namespace ColumnLineage

namespace Timestamp

/-! ## Points in time -/

theorem digitValue?_digit (n : Nat) : Text.digitValue? (digit n) = some (n % 10) := by
  have hall : ∀ k < 10, Text.digitValue? (Char.ofNat (48 + k)) = some k := by decide
  exact hall (n % 10) (Nat.mod_lt n (by decide))

theorem isDigit_digit (n : Nat) : (digit n).isDigit = true := by
  have hall : ∀ k < 10, (Char.ofNat (48 + k)).isDigit = true := by decide
  exact hall (n % 10) (Nat.mod_lt n (by decide))

theorem decimal?_two {n : Nat} (h : n ≤ 99) : Text.decimal? (two n) = some n := by
  have hvalue : (0 * 10 + n / 10 % 10) * 10 + n % 10 = n := by omega
  simp only [two, Text.decimal?, Text.decimalFrom?, digitValue?_digit, Option.bind_some,
    List.isEmpty_cons, Bool.false_eq_true, if_false, hvalue]

theorem decimal?_fourOrMore {n : Nat} (h : n ≤ 999999) : Text.decimal? (fourOrMore n) = some n := by
  unfold fourOrMore four
  split
  · have hvalue : (((0 * 10 + n / 1000 % 10) * 10 + n / 100 % 10) * 10 + n / 10 % 10) * 10 + n % 10 =
        n := by omega
    simp only [Text.decimal?, Text.decimalFrom?, digitValue?_digit, Option.bind_some,
      List.isEmpty_cons, Bool.false_eq_true, if_false, hvalue]
  split
  · have hvalue : ((((0 * 10 + n / 10000 % 10) * 10 + n / 1000 % 10) * 10 + n / 100 % 10) * 10 +
        n / 10 % 10) * 10 + n % 10 = n := by omega
    simp only [Text.decimal?, Text.decimalFrom?, digitValue?_digit, Option.bind_some,
      List.isEmpty_cons, Bool.false_eq_true, if_false, hvalue]
  · have hvalue : (((((0 * 10 + n / 100000 % 10) * 10 + n / 10000 % 10) * 10 + n / 1000 % 10) * 10 +
        n / 100 % 10) * 10 + n / 10 % 10) * 10 + n % 10 = n := by omega
    simp only [Text.decimal?, Text.decimalFrom?, digitValue?_digit, Option.bind_some,
      List.isEmpty_cons, Bool.false_eq_true, if_false, hvalue]

theorem isDigit_of_mem_fourOrMore {n : Nat} {c : Char} (h : c ∈ fourOrMore n) :
    c.isDigit = true := by
  unfold fourOrMore four at h
  split at h
  · simp only [List.mem_cons, List.not_mem_nil, or_false] at h
    rcases h with rfl | rfl | rfl | rfl <;> exact isDigit_digit _
  split at h
  · simp only [List.mem_cons, List.not_mem_nil, or_false] at h
    rcases h with rfl | rfl | rfl | rfl | rfl <;> exact isDigit_digit _
  · simp only [List.mem_cons, List.not_mem_nil, or_false] at h
    rcases h with rfl | rfl | rfl | rfl | rfl | rfl <;> exact isDigit_digit _

/-- A year is read back from the front of a text, if a dash follows it. -/
theorem year?_yearText {year : Int} (h : -262143 ≤ year ∧ year ≤ 262142) (rest : List Char) :
    year? (yearText year ++ '-' :: rest) = some (year, '-' :: rest) := by
  unfold yearText
  split
  · rename_i hfour
    have hvalue := decimal?_fourOrMore (n := year.toNat) (by omega)
    have hyear : (year.toNat : Int) = year := by omega
    rw [fourOrMore, if_pos (by omega)] at hvalue
    unfold four at hvalue ⊢
    unfold year?
    -- the first digit is no sign
    split
    · rename_i heq
      have hdigit := isDigit_digit (year.toNat / 1000)
      rw [(List.cons.inj heq).1] at hdigit
      cases hdigit
    · rename_i heq
      have hdigit := isDigit_digit (year.toNat / 1000)
      rw [(List.cons.inj heq).1] at hdigit
      cases hdigit
    · rename_i heq
      cases heq
      rw [hvalue, Option.map_some, hyear]
      rfl
    · rename_i hnone
      exact absurd rfl (hnone _ _ _ _ _)
  · have htake : ((fourOrMore year.natAbs) ++ '-' :: rest).takeWhile Char.isDigit =
        fourOrMore year.natAbs := by
      rw [List.takeWhile_append_of_pos fun c hc => isDigit_of_mem_fourOrMore hc]
      simp
    have hdrop : ((fourOrMore year.natAbs) ++ '-' :: rest).dropWhile Char.isDigit = '-' :: rest := by
      rw [List.dropWhile_append_of_pos fun c hc => isDigit_of_mem_fourOrMore hc]
      simp
    have hvalue := decimal?_fourOrMore (n := year.natAbs) (by omega)
    split
    · rw [List.cons_append, year?, htake, hdrop, hvalue]
      have hyear : -(year.natAbs : Int) = year := by omega
      rw [Option.map_some, hyear]
    · rw [List.cons_append, year?, htake, hdrop, hvalue]
      have hyear : (year.natAbs : Int) = year := by omega
      rw [Option.map_some, hyear]

theorem ofParts?_parts (t : Timestamp) :
    ofParts? t.year t.month t.day t.hour t.minute t.second = some t := by
  obtain ⟨year, month, day, hour, minute, second, h₁, h₂, h₃, h₄, h₅, h₆⟩ := t
  dsimp only
  rw [ofParts?, dif_pos h₁, dif_pos h₂, dif_pos h₃, dif_pos h₄, dif_pos h₅, dif_pos h₆]

theorem daysInMonth_le (year : Int) (month : Nat) : daysInMonth year month ≤ 31 := by
  unfold daysInMonth
  split
  · split <;> decide
  · split <;> decide

theorem ofText?_text (t : Timestamp) : ofText? t.text = some t := by
  have hday := daysInMonth_le t.year t.month
  have hm := decimal?_two (n := t.month) (by have := t.month_mem; omega)
  have hd := decimal?_two (n := t.day) (by have := t.day_mem; omega)
  have hh := decimal?_two (n := t.hour) (by have := t.hour_lt; omega)
  have hn := decimal?_two (n := t.minute) (by have := t.minute_lt; omega)
  have hs := decimal?_two (n := t.second) (by have := t.second_le; omega)
  unfold two at hm hd hh hn hs
  have htext : t.text.toList = yearText t.year ++ '-' :: [digit (t.month / 10), digit t.month, '-',
      digit (t.day / 10), digit t.day, 'T', digit (t.hour / 10), digit t.hour, ':',
      digit (t.minute / 10), digit t.minute, ':', digit (t.second / 10), digit t.second, 'Z'] := by
    simp [text, two]
  unfold ofText?
  rw [htext, year?_yearText t.year_mem]
  change ((Text.decimal? [digit (t.month / 10), digit t.month]).bind fun _ => _) = some t
  rw [hm, hd, hh, hn, hs]
  exact ofParts?_parts t

end Timestamp

/-! ## Reports -/

namespace JsonReader

theorem accepts_texts (texts : List String) : Accepts (list text) (textsJson texts) texts :=
  accepts_list fun s _ => accepts_text s

theorem accepts_columnLineage (sources : List String) :
    Accepts columnLineage (.object [.mk "lineage" (textsJson sources)]) sources := by
  have hfield := (accepts_texts sources).map some
  exact accepts_recordOrList ((accepts_record (.field rfl hfield (.nil _))).bind fun _ => rfl)

theorem accepts_tableLineage (t : TableLineage) : Accepts tableLineage t.json t := by
  obtain ⟨dependsOn, columns⟩ := t
  have hdepends := (accepts_texts dependsOn).map fun read =>
    ({ dependsOn := some read } : TableFields)
  have hmap := accepts_map (f := fun sources => .object [.mk "lineage" (textsJson sources)])
    (m := columns) fun e _ => accepts_columnLineage e.2
  have hcolumns := hmap.map fun read =>
    ({ dependsOn := some dependsOn, columns := some read } : TableFields)
  exact accepts_recordOrList
    ((accepts_record (.field rfl hdepends (.field rfl hcolumns (.nil _)))).bind fun _ => rfl)

theorem accepts_timestamp (t : Timestamp) : Accepts timestamp (.text t.text) t := by
  refine (accepts_text t.text).bind fun rest => ?_
  rw [Timestamp.ofText?_text]
  rfl

theorem accepts_report (r : Report) : Accepts report r.json r := by
  obtain ⟨date, errors, lineage⟩ := r
  have hdate := (accepts_timestamp date).map fun read => ({ date := some read } : ReportFields)
  have herrors := (accepts_map (m := errors) fun e _ => accepts_texts e.2).map fun read =>
    ({ date := some date, errors := some read } : ReportFields)
  have hlineage := (accepts_map (m := lineage) fun e _ => accepts_tableLineage e.2).map fun read =>
    ({ date := some date, errors := some errors, lineage := some read } : ReportFields)
  exact accepts_recordOrList ((accepts_record
    (.field rfl hdate (.field rfl herrors (.field rfl hlineage (.nil _))))).bind fun _ => rfl)

/-! ## Catalogs -/

theorem accepts_catalog (c : Catalog) : Accepts Catalog.reader c.json c := by
  have htable : ∀ t : TableDefinition,
      Accepts (do return TableDefinition.mk (← map text)) (Catalog.tableJson t) t := fun t =>
    (accepts_map (m := t.columns) fun e _ => accepts_text e.2).map TableDefinition.mk
  have hschema : ∀ s : Schema, Accepts (do
      return Schema.mk (← map (do return TableDefinition.mk (← map text)))) (Catalog.schemaJson s) s :=
    fun s => (accepts_map (m := s.tables) fun e _ => htable e.2).map Schema.mk
  have hdatabase : ∀ d : Database, Accepts (do
      return Database.mk (← map (do
        return Schema.mk (← map (do return TableDefinition.mk (← map text))))))
      (Catalog.databaseJson d) d :=
    fun d => (accepts_map (m := d.schemas) fun e _ => hschema e.2).map Database.mk
  exact (accepts_map (m := c.databases) fun e _ => hdatabase e.2).map Catalog.mk

end JsonReader

/-- A report is read back from its document on several lines, and a catalog from its document on one
line, with all keys, texts and orders. -/
theorem ofJson_json (r : Report) (c : Catalog) :
    Report.ofJson r.json.pretty = .ok r ∧ Catalog.ofJson c.json.compact = .ok c :=
  ⟨JsonReader.run_of_accepts (JsonReader.accepts_report r) (Json.written_prettyAt r.json 0),
    JsonReader.run_of_accepts (JsonReader.accepts_catalog c) (Json.written_compact c.json)⟩

end ColumnLineage
