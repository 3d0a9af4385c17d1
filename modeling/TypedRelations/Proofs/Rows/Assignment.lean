import TypedRelations.Proofs.Condition.FieldNames
import TypedRelations.Proofs.Insertion.Filling

/-!
# Rows as assignments

The assignment that a row is turned into is built up entry by entry and would overwrite the value of
a name that came a second time. In a relation the names differ, so row and assignment have the same
values under all names. Conditions cannot tell them apart, up to the name of the scope in the error
of an unknown field (`toAssignment_interchangeable`).
-/

namespace TypedRelations

namespace Assignment

/-- A new name is added at the end. -/
theorem assign_of_not_mem {name : String} {value : Value} {entries : List (String × Value)}
    (fresh : name ∉ entries.map Prod.fst) :
    assign name value entries = entries ++ [(name, value)] := by
  induction entries with
  | nil => rfl
  | cons entry rest ih =>
      rw [List.map_cons, List.mem_cons, not_or] at fresh
      rw [assign, if_neg (Ne.symm fresh.1), ih fresh.2, List.cons_append]

/-- The induction is on the entries that are still to come; their names differ from those of the
entries before them. -/
theorem entries_foldl_insert {entries before : List (String × Value)}
    (distinct : ((before ++ entries).map Prod.fst).Nodup) :
    (entries.foldl (fun assignment (name, value) => assignment.insert name value)
      (Assignment.mk before)).entries = before ++ entries := by
  induction entries generalizing before with
  | nil => rw [List.foldl_nil, List.append_nil]
  | cons entry rest ih =>
      obtain ⟨name, value⟩ := entry
      have fresh : name ∉ before.map Prod.fst := by
        rw [List.map_append, List.map_cons] at distinct
        intro member
        exact (List.nodup_append.mp distinct).2.2 _ member _ List.mem_cons_self rfl
      rw [List.append_cons] at distinct ⊢
      dsimp only [List.foldl_cons, Assignment.insert]
      rw [assign_of_not_mem fresh]
      exact ih distinct

/-- Entries with different names make up the assignment as they are. -/
theorem entries_ofList {entries : List (String × Value)}
    (distinct : (entries.map Prod.fst).Nodup) : (ofList entries).entries = entries :=
  entries_foldl_insert distinct

end Assignment

namespace Relation

variable {relation : Relation} {tuple : Tuple}

theorem map_fst_entries (width : tuple.length = relation.schema.length) :
    (relation.row tuple).entries.map Prod.fst = relation.schema.names :=
  List.map_fst_zip (Nat.le_of_eq ((List.length_map _).trans width.symm))

theorem map_snd_entries (width : tuple.length = relation.schema.length) :
    (relation.row tuple).entries.map Prod.snd = tuple :=
  List.map_snd_zip (Nat.le_of_eq (width.trans (List.length_map _).symm))

theorem entries_toAssignment (distinct : relation.schema.names.Nodup)
    (width : tuple.length = relation.schema.length) :
    (relation.row tuple).toAssignment.entries = (relation.row tuple).entries := by
  apply Assignment.entries_ofList
  rw [map_fst_entries width]
  exact distinct

/-- A row and its assignment have the same value, or none, under every name. -/
theorem get?_toAssignment (distinct : relation.schema.names.Nodup)
    (width : tuple.length = relation.schema.length) (name : String) :
    (relation.row tuple).toAssignment.get? name = (relation.row tuple).get? name := by
  rw [Assignment.get?, entries_toAssignment distinct width]
  by_cases member : name ∈ relation.schema.names
  · obtain ⟨position, listed⟩ := List.getElem?_of_mem member
    obtain ⟨value, found⟩ := exists_get? width member
    have stands := found
    rw [get?_eq_getElem? distinct listed] at stands
    have paired : (name, value) ∈ (relation.row tuple).entries :=
      List.mem_of_getElem? (List.getElem?_zip_eq_some.mpr ⟨listed, stands⟩)
    rw [found]
    refine lookup_eq_some_of_mem ?_ paired
    rw [map_fst_entries width]
    exact distinct
  · rw [get?_eq_none member]
    apply lookup_eq_none_of_not_mem
    rw [map_fst_entries width]
    exact member

/-- A row of a relation and its assignment are interchangeable. The assignment has the names of the
fields and the values of the tuple in order, the same value or none under every name, and every
condition has the same outcome on both, up to the name of the scope in the error of an unknown
field. -/
theorem toAssignment_interchangeable (reachable : relation.Reachable) {row : Row}
    (stored : row ∈ relation.rows) :
    (row.toAssignment.entries.map Prod.fst = relation.schema.names ∧
      row.toAssignment.entries.map Prod.snd = row.tuple) ∧
    (∀ name, row.toAssignment.get? name = row.get? name ∧
      (row.get? name = none ↔ name ∉ relation.schema.names)) ∧
    ∀ condition : Condition, Condition.SameUpToScope relation.name "map"
      (condition.evaluate row.scope) (condition.evaluate row.toAssignment.scope) := by
  obtain ⟨tuple, member, rfl⟩ := List.mem_map.mp stored
  have distinct := reachable.wellFormed.names_nodup
  have width := reachable.wellFormed.length_eq member
  refine ⟨?listed, ?found, ?evaluated⟩
  case listed =>
    rw [entries_toAssignment distinct width]
    exact ⟨map_fst_entries width, map_snd_entries width⟩
  case found =>
    exact fun name => ⟨get?_toAssignment distinct width name, get?_eq_none_iff width name⟩
  case evaluated =>
    intro condition
    exact Condition.evaluate_sameUpToScope (relation.row tuple).scope
      (relation.row tuple).toAssignment.scope fun name _ =>
        (get?_toAssignment distinct width name).symm

/-- Cottages, of one of which the view is not known. -/
def cottages : Relation :=
  ⟨"cottages", [.any "beds", .any "view"], [[.int 4, .str "sea"], [.int 2, .null]]⟩

theorem reachable_cottages : cottages.Reachable :=
  reachable_of_rows (by decide) (by decide) (by decide)

/-- The null of the second cottage is in the assignment, a price is not, and a condition on the
price fails in the name of the relation or of the map. -/
theorem toAssignment_interchangeable_cottages :
    ∃ row ∈ cottages.rows,
      row.toAssignment.entries.map Prod.fst = ["beds", "view"] ∧
      row.toAssignment.get? "view" = some .null ∧ row.toAssignment.get? "price" = none ∧
      ∃ condition, Condition.parse "price < 9" = .ok condition ∧
        condition.evaluate row.scope = .error (.unknownField "price" "cottages") ∧
        condition.evaluate row.toAssignment.scope = .error (.unknownField "price" "map") := by
  have stored : cottages.row [.int 2, .null] ∈ cottages.rows := .tail _ (.head _)
  obtain ⟨⟨names, -⟩, found, evaluated⟩ := toAssignment_interchangeable reachable_cottages stored
  have scanned : Condition.Lexeme.ofText "price < 9" =
      .ok [⟨.name "price", "price".toList, 0⟩, ⟨.relator .lt, "<".toList, 6⟩,
        ⟨.int 9, "9".toList, 8⟩] := by
    rfl
  have parsed := Condition.parse_eq_ok scanned (by rfl)
  refine ⟨_, stored, names, (found "view").1, (found "price").1, _, parsed, rfl, ?_⟩
  have same := evaluated ⟨"price < 9", .compare (.field "price") (.relator .lt) (.literal (.int 9))⟩
  generalize Condition.evaluate _ (Row.toAssignment _).scope = outcome at same ⊢
  cases same
  rfl

end Relation

end TypedRelations
