import Mathlib.Data.Multiset.Bind
import TypedRelations.Relation.Basic

/-!
# Relations up to order

If neither the order of the rows nor that of the columns counts, a relation is a bag of functions
from names to values. Joins combine the pairs of rows that pass a test, and which of the relations
comes first makes no difference to these pairs (`matching_swap`).
-/

namespace TypedRelations

section Matching

variable {α β : Type} {test : α → β → Bool}

/-- The pairs of an item of the one bag and an item of the other that pass a test. -/
def matching (test : α → β → Bool) (items : Multiset α) (others : Multiset β) :
    Multiset (α × β) :=
  (items ×ˢ others).filter fun pair => test pair.1 pair.2 = true

theorem mem_matching {items : Multiset α} {others : Multiset β} {pair : α × β} :
    pair ∈ matching test items others ↔
      (pair.1 ∈ items ∧ pair.2 ∈ others) ∧ test pair.1 pair.2 = true := by
  rw [matching, Multiset.mem_filter, Multiset.mem_product]

/-- The pairs can be looked for from either side. -/
theorem matching_swap {mirrorTest : β → α → Bool} {items : Multiset α} {others : Multiset β}
    (same : ∀ item ∈ items, ∀ other ∈ others, test item other = mirrorTest other item) :
    matching mirrorTest others items = (matching test items others).map Prod.swap := by
  rw [matching, matching, ← Multiset.map_swap_product items others, Multiset.filter_map]
  congr 1
  apply Multiset.filter_congr
  intro pair member
  have parts := Multiset.mem_product.mp member
  rw [same pair.1 parts.1 pair.2 parts.2]
  rfl

end Matching

namespace Relation

/-- The rows of a relation by name. -/
def bag (relation : Relation) : Multiset (String → Option Value) :=
  (relation.tuples.map fun tuple => (relation.row tuple).get? : List (String → Option Value))

/-- A relation whose rows combine the pairs that pass a test, one list within the other. -/
theorem bag_eq_matching {relation : Relation} {test : Tuple → Tuple → Bool}
    {combine : Tuple → Tuple → Tuple} {firsts seconds : List Tuple}
    (rows : relation.tuples = firsts.flatMap fun first =>
      (seconds.filter (test first)).map (combine first)) :
    relation.bag = (matching test firsts seconds).map fun pair =>
      (relation.row (combine pair.1 pair.2)).get? := by
  have pairs : relation.tuples =
      ((firsts.product seconds).filter fun pair => test pair.1 pair.2).map
        fun pair => combine pair.1 pair.2 := by
    rw [rows, List.product, List.filter_flatMap, List.map_flatMap]
    simp only [List.filter_map, List.map_map, Function.comp_def]
  rw [bag, pairs, List.map_map, matching, Multiset.coe_product, Multiset.filter_coe,
    Multiset.map_coe]
  simp only [Bool.decide_eq_true]
  rfl

/-- Rows that are added to a relation, which may also get another name, are added to its bag. -/
theorem bag_append (relation : Relation) (name : String) (first second : List Tuple) :
    bag ⟨name, relation.schema, relation.tuples ++ first ++ second⟩ =
      relation.bag +
        ((first.map fun tuple => (relation.row tuple).get? : List (String → Option Value)) +
          (second.map fun tuple => (relation.row tuple).get? : List (String → Option Value))) := by
  rw [bag, bag, List.append_assoc, List.map_append, List.map_append, Multiset.coe_add,
    Multiset.coe_add]
  rfl

/-- Two computations make relations of which something holds, or both fail. -/
def AgreeUpTo (related : Relation → Relation → Prop) (first second : Except Error Relation) :
    Prop :=
  ((∃ result, first = .ok result) ↔ ∃ other, second = .ok other) ∧
    ∀ result other, first = .ok result → second = .ok other → related result other

/-- Following one computation to the other and back shows that they agree. -/
theorem agreeUpTo_of_forth_back {related : Relation → Relation → Prop}
    {first second : Except Error Relation}
    (forth : ∀ result, first = .ok result → ∃ other, second = .ok other ∧ related result other)
    (back : ∀ other, second = .ok other → ∃ result, first = .ok result) :
    AgreeUpTo related first second := by
  constructor
  · constructor
    · intro ⟨result, made⟩
      obtain ⟨other, otherMade, -⟩ := forth result made
      exact ⟨other, otherMade⟩
    · intro ⟨other, otherMade⟩
      exact back other otherMade
  · intro result other made otherMade
    obtain ⟨found, foundMade, same⟩ := forth result made
    cases foundMade.symm.trans otherMade
    exact same

end Relation

end TypedRelations
