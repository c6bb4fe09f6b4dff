import ColumnLineage.Lineage.Tables
import ColumnLineage.Schema.Catalog
import Mathlib.Data.List.Basic

/-!
# Completed names

Defaults are used in three places, each with a rule of its own. Names and references get a missing
catalog only if a schema stands behind it. Full names always get it, and leave out the parts that
are empty texts. Lookups complete a reference, and fall back on what is written. The three agree on
every name that has a part.

* `ObjectName.complete_then_resolve`: a completed name stays as it is, has the full name of the name
  as written, and what it means is found under the name as written.
-/

namespace ColumnLineage

variable {n : ObjectName} {r : TableReference} {d : Defaults}

/-! ## References -/

namespace TableReference

theorem isBare_ofReversed (parts : List String) :
    (ofReversed parts).isBare = decide (parts.length ≤ 1) := by
  match parts with
  | [] => rfl
  | [_] => rfl
  | [_, _] => rfl
  | _ :: _ :: _ :: _ => simp [ofReversed, isBare]

theorem isBare_ofObjectName (n : ObjectName) :
    (ofObjectName n).isBare = decide (n.parts.length ≤ 1) := by
  rw [ofObjectName, isBare_ofReversed, List.length_reverse, List.length_map]

theorem ofObjectName_single {only : Ident} (h : n.parts = [only]) :
    ofObjectName n = ⟨none, none, only.value⟩ := by
  rw [ofObjectName, h]
  rfl

theorem name_ofObjectName (name : ObjectName) :
    (ofObjectName name).name = (name.parts.getLast?.getD ⟨"", none⟩).value := by
  unfold ofObjectName
  rw [← List.map_reverse, List.getLast?_eq_head?_reverse]
  rcases name.parts.reverse with _ | ⟨table, _ | ⟨schema, _ | ⟨catalog, rest⟩⟩⟩ <;> rfl

theorem schema_or_complete (r : TableReference) (d : Defaults) :
    (r.complete d).schema.or d.schema = r.schema.or d.schema := by
  rw [complete, Option.or_assoc, Option.or_self]

/-- With or without a schema, the default catalog is the catalog if none is written. -/
theorem catalog_or_complete (r : TableReference) (d : Defaults) :
    (r.complete d).catalog.or d.catalog = r.catalog.or d.catalog := by
  unfold complete
  dsimp only
  split
  · rw [Option.or_assoc, Option.or_self]
  · rfl

theorem complete_complete (r : TableReference) (d : Defaults) :
    (r.complete d).complete d = r.complete d := by
  rw [complete, r.schema_or_complete, r.catalog_or_complete]
  unfold complete
  dsimp only
  split <;> rfl

theorem isBare_complete (r : TableReference) (d : Defaults) :
    (r.complete d).isBare = (r.isBare && d.schema.isNone) := by
  unfold isBare complete
  cases r.schema <;> cases d.schema <;> simp

/-- What is a bare name when it is complete has nothing to be completed with. -/
theorem complete_of_isBare (h : (r.complete d).isBare = true) : r.complete d = r := by
  obtain ⟨catalog, schema, name⟩ := r
  obtain ⟨defaultCatalog, defaultSchema⟩ := d
  cases schema <;> cases defaultSchema <;> simp_all [complete, isBare]

theorem isCteIn_complete (r : TableReference) (d : Defaults) (names : List String) :
    (r.complete d).isCteIn names = (r.isCteIn names && d.schema.isNone) := by
  rw [isCteIn, isBare_complete, isCteIn, Bool.and_right_comm]
  rfl

/-- To complete a name is to complete the reference that it makes. -/
theorem ofObjectName_complete (hn : n.parts ≠ []) (d : Defaults) :
    ofObjectName (n.complete d) = (ofObjectName n).complete d := by
  have hreversed : ∀ front : List String,
      ((⟨front.map (⟨·, none⟩) ++ n.parts⟩ : ObjectName).parts.map Ident.value).reverse =
        (n.parts.map Ident.value).reverse ++ front.reverse := by
    intro front
    simp [Function.comp_def]
  have hne : (n.parts.map Ident.value).reverse ≠ [] := by simpa using hn
  unfold ObjectName.complete
  dsimp only
  rw [ofObjectName, hreversed]
  unfold ofObjectName
  generalize (n.parts.map Ident.value).reverse = reversed at hne
  -- One, two or at least three parts are written, and each default is there or not.
  obtain ⟨catalog, schema⟩ := d
  rcases reversed with _ | ⟨table, _ | ⟨own, _ | ⟨first, rest⟩⟩⟩
  · exact absurd rfl hne
  · cases schema <;> cases catalog <;> rfl
  · cases catalog <;> rfl
  · rfl

theorem name_complete (hn : n.parts ≠ []) (d : Defaults) :
    (ofObjectName (n.complete d)).name = (ofObjectName n).name := by
  rw [ofObjectName_complete hn]
  rfl

end TableReference

/-! ## Names -/

namespace ObjectName

/-- A name gets no parts if the reference that it makes gets none. -/
theorem complete_of_reference
    (h : (TableReference.ofObjectName n).complete d = .ofObjectName n) : n.complete d = n := by
  unfold complete
  generalize TableReference.ofObjectName n = r at h
  obtain ⟨catalog, schema, name⟩ := r
  obtain ⟨defaultCatalog, defaultSchema⟩ := d
  cases catalog <;> cases schema <;> simp_all [TableReference.complete]

/-- A completed name lacks no part that the defaults could supply. -/
theorem complete_complete (hn : n.parts ≠ []) (d : Defaults) :
    (n.complete d).complete d = n.complete d := by
  refine complete_of_reference ?_
  rw [TableReference.ofObjectName_complete hn, TableReference.complete_complete]

theorem getLast?_complete (hn : n.parts ≠ []) (d : Defaults) :
    (n.complete d).parts.getLast? = n.parts.getLast? := by
  rw [complete]
  exact List.getLast?_append_of_ne_nil _ hn

theorem not_isBare_complete (hn : n.parts ≠ []) (hd : d.schema.isSome) :
    (TableReference.ofObjectName (n.complete d)).isBare = false := by
  rw [TableReference.ofObjectName_complete hn, TableReference.isBare_complete,
    Option.isNone_eq_false_iff.mpr hd, Bool.and_false]

/-- A name that is bare after it was completed was written so. -/
theorem eq_of_complete {only : Ident} (hn : n.parts ≠ [])
    (h : (n.complete d).parts = [only]) : n.complete d = n := by
  refine complete_of_reference (TableReference.complete_of_isBare ?_)
  rw [← TableReference.ofObjectName_complete hn, TableReference.isBare_ofObjectName, h]
  rfl

end ObjectName

/-! ## Full names and tables -/

namespace FullName

theorem resolve_complete (r : TableReference) (d : Defaults) :
    resolve (r.complete d) d = resolve r d := by
  rw [resolve, r.catalog_or_complete, r.schema_or_complete]
  rfl

theorem ofObjectName_complete (hn : n.parts ≠ []) (d : Defaults) :
    ofObjectName (n.complete d) d = ofObjectName n d := by
  rw [ofObjectName, TableReference.ofObjectName_complete hn, resolve_complete, ofObjectName]

end FullName

namespace Catalog

theorem lookup?_complete (c : Catalog) (r : TableReference) (d : Defaults) :
    c.lookup? (r.complete d) d = c.findTable? (r.complete d) := by
  rw [lookup?, TableReference.complete_complete, Option.or_self]

theorem lookup?_of_findTable? {c : Catalog} {t : TableDefinition}
    (h : c.findTable? (r.complete d) = some t) : c.lookup? r d = some t := by
  rw [lookup?, h, Option.some_or]

end Catalog

/-- To complete a name commutes with resolving it. A completed name has nothing missing. It makes the
completed reference, so it has the full name of the name as written. A lookup of the name as written
finds the table that the completed name means, and looks for what is written only if there is none. -/
theorem ObjectName.complete_then_resolve (hn : n.parts ≠ []) (d : Defaults) :
    (n.complete d).complete d = n.complete d ∧
      TableReference.ofObjectName (n.complete d) = (TableReference.ofObjectName n).complete d ∧
      FullName.ofObjectName (n.complete d) d = FullName.ofObjectName n d ∧
      ∀ c : Catalog,
        (∀ t, c.findTable? (.ofObjectName (n.complete d)) = some t →
          c.lookup? (.ofObjectName n) d = some t) ∧
        (c.findTable? (.ofObjectName (n.complete d)) = none →
          c.lookup? (.ofObjectName n) d = c.findTable? (.ofObjectName n)) := by
  have hreference := TableReference.ofObjectName_complete hn d
  refine ⟨complete_complete hn d, hreference, FullName.ofObjectName_complete hn d, fun c => ?_⟩
  rw [hreference]
  refine ⟨fun t => Catalog.lookup?_of_findTable?, fun hnone => ?_⟩
  rw [Catalog.lookup?, hnone, Option.none_or]

/-- A bare name that two schemas of a database without a name have. The default schema tells them
apart, and the empty default catalog is written out but is no part of the full name. -/
theorem ObjectName.complete_then_resolve_namesakes :
    let n : ObjectName := ⟨[⟨"T", none⟩]⟩
    let d : Defaults := ⟨some "", some "b"⟩
    let c := (Catalog.empty.addTable "" "a" "t" [("x", "INT")]).addTable "" "b" "t" [("y", "INT")]
    let full : ObjectName := ⟨[⟨"", none⟩, ⟨"b", none⟩, ⟨"T", none⟩]⟩
    n.parts ≠ [] ∧ n.complete d = full ∧ full.complete d = full ∧
      FullName.ofObjectName full d = ⟨["b", "T"]⟩ ∧ FullName.ofObjectName n d = ⟨["b", "T"]⟩ ∧
      c.findTable? (.ofObjectName n) = none ∧
      ∃ t, t.columnNames = ["y"] ∧ c.findTable? (.ofObjectName full) = some t ∧
        c.lookup? (.ofObjectName n) d = some t := by
  intro n d c full
  have hn : n.parts ≠ [] := List.cons_ne_nil _ _
  obtain ⟨hagain, -, hname, htable⟩ := complete_then_resolve hn d
  have hfull : FullName.ofObjectName full d = ⟨["b", "T"]⟩ := by decide
  have hfound : c.findTable? (.ofObjectName full) = some ⟨.ofList [("y", "INT")]⟩ := by decide
  exact ⟨hn, rfl, hagain, hfull, hname ▸ hfull, by decide, _, by decide, hfound,
    (htable c).1 _ hfound⟩

end ColumnLineage
