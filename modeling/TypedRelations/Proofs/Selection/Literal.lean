import TypedRelations.Proofs.Condition.Literal
import TypedRelations.Proofs.Selection

/-!
# Selection by a literal

The rows in which a field has a given value can be selected by a text: the name of the field between
back quotes and the value as a literal (`select_equalsText`). This works for every name that back
quotes can be put around, and does not depend on the types of the values in the rows.
-/

namespace TypedRelations.Relation

variable {relation : Relation} {name text : String} {value : Value}

/-- Selecting the rows in which a field equals a literal keeps those that have the value of the
literal under the name of the field, in their order. -/
theorem select_equalsText (reachable : relation.Reachable) (isField : name ∈ relation.schema.names)
    (readable : Condition.Readable name) (written : Condition.Writes text value) :
    relation.select (Condition.equalsText name text) =
      .ok { relation with
        name := relation.name ++ " where: " ++ Condition.equalsText name text,
        tuples := relation.tuples.filter fun tuple =>
          (relation.row tuple).get? name == some value } := by
  have tested : ∀ tuple ∈ relation.tuples,
      Condition.evaluate ⟨Condition.equalsText name text,
        .compare (.field name) (.relator .eq) (.literal value)⟩ (relation.row tuple).scope =
          .ok ((relation.row tuple).get? name == some value) := by
    intro tuple stored
    obtain ⟨found, known⟩ := exists_get? (reachable.wellFormed.length_eq stored) isField
    rw [known]
    exact Condition.evaluate_equalsText known
  refine (select_eq_ok_of_parse (Condition.parse_equalsText readable written)).mpr
    ⟨_, keepWhere_eq_ok.mpr ⟨fun tuple stored => ⟨_, tested tuple stored⟩, ?_⟩, rfl⟩
  apply List.filter_congr
  intro tuple stored
  rw [tested tuple stored]
  rfl

/-- Notes on what was measured. -/
def notes : Relation :=
  ⟨"notes", [.any "worst case"],
    [[.int Int64.minValue], [.str "don't\nand é"], [.null], [.str "null"]]⟩

theorem reachable_notes : notes.Reachable :=
  reachable_of_rows (by decide) (by decide) (by decide)

theorem text_minValue : (Value.int Int64.minValue).text = "-9223372036854775808" := by
  have least : Int64.minValue.toInt = -9223372036854775808 := by decide
  rw [Value.text, least]
  decide

/-- The least integer, a text with a line break and a quote of the other kind, and null, which is
not the text of it. -/
theorem select_equalsText_notes :
    (∃ result, notes.select "`worst case` == -9223372036854775808" = .ok result ∧
      result.tuples = [[.int Int64.minValue]]) ∧
    (∃ result, notes.select "`worst case` == \x22don't\nand é\x22" = .ok result ∧
      result.tuples = [[.str "don't\nand é"]]) ∧
    ∃ result, notes.select "`worst case` == null" = .ok result ∧ result.tuples = [[.null]] := by
  have isField : "worst case" ∈ notes.schema.names := by decide
  have readable : Condition.Readable "worst case" := ⟨by decide, by decide⟩
  have absent : Condition.doubleQuote ∉ "don't\nand é".toList := by decide
  have integer := select_equalsText reachable_notes isField readable (.int Int64.minValue)
  have string := select_equalsText reachable_notes isField readable (.doubleQuoted absent)
  have null := select_equalsText reachable_notes isField readable .null
  have integerText : Condition.equalsText "worst case" (Value.int Int64.minValue).text =
      "`worst case` == -9223372036854775808" := by
    rw [text_minValue]
    decide
  have stringText : Condition.equalsText "worst case" ("\x22" ++ "don't\nand é" ++ "\x22") =
      "`worst case` == \x22don't\nand é\x22" := by decide
  have nullText : Condition.equalsText "worst case" Value.null.text = "`worst case` == null" := by
    decide
  rw [integerText] at integer
  rw [stringText] at string
  rw [nullText] at null
  exact ⟨⟨_, integer, by rfl⟩, ⟨_, string, by rfl⟩, ⟨_, null, by rfl⟩⟩

end TypedRelations.Relation
