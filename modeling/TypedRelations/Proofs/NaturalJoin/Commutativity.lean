import TypedRelations.Proofs.Bag
import TypedRelations.Proofs.NaturalJoin.Associativity

/-!
# Natural joins are commutative up to order

The natural join takes the values of shared fields from the left relation. Changing the relations
round changes the order of columns and rows, and puts equal values in the place of each other,
because compatible functions extend each other to functions with equal values
(`Compatible.extended_comm`). The rows are the same up to equality of values (`naturalJoin_comm`).
-/

namespace TypedRelations

/-- Both functions have equal values under every name, or none. -/
def SameValues (first second : String → Option Value) : Prop :=
  ∀ name, (first name == second name) = true

theorem Compatible.symm {first second : String → Option Value}
    (compatible : Compatible first second) : Compatible second first :=
  fun name left right atSecond atFirst => BEq.symm (compatible name right left atFirst atSecond)

theorem compatible_comm {first second : String → Option Value} :
    Compatible first second ↔ Compatible second first :=
  ⟨Compatible.symm, Compatible.symm⟩

/-- Compatible functions extend each other to functions with equal values. -/
theorem Compatible.extended_comm {first second : String → Option Value}
    (compatible : Compatible first second) :
    SameValues (extended first second) (extended second first) := by
  intro name
  cases atFirst : first name with
  | none =>
      rw [extended_right atFirst, extended, atFirst, Option.or_none]
      exact BEq.rfl
  | some value =>
      rw [extended_left atFirst]
      cases atSecond : second name with
      | none =>
          rw [extended_right atSecond, atFirst]
          exact BEq.rfl
      | some other =>
          rw [extended_left atSecond]
          exact compatible name value other atFirst atSecond

namespace Relation

variable {left right result : Relation}

section Joined

variable (leftShape : left.WellFormed) (rightShape : right.WellFormed)

include leftShape rightShape

/-- The rows of a join on shared fields extend the left rows by the right ones that they agree
with. -/
theorem bag_joined :
    (left.joined right).bag =
      (matching (left.agrees right (left.sharedPairs right)) left.tuples right.tuples).map
        fun pair => extended (left.valuesOf pair.1) (right.valuesOf pair.2) := by
  have rows : (left.joined right).bag =
      (matching (left.agrees right (left.sharedPairs right)) left.tuples right.tuples).map
        fun pair => ((left.joined right).row (left.joinedTuple right pair.1 pair.2)).get? :=
    bag_eq_matching (tuples_joined left right)
  rw [rows]
  apply Multiset.map_congr rfl
  intro pair member
  obtain ⟨⟨inLeft, inRight⟩, -⟩ := mem_matching.mp member
  rw [row, get?_eq_valueIn]
  exact valuesOf_joinedTuple (leftShape.length_eq inLeft) (rightShape.length_eq inRight)

theorem names_joined_perm :
    (left.joined right).schema.names.Perm (right.joined left).schema.names := by
  apply (List.perm_ext_iff_of_nodup (nodup_joinSchema_sharedPairs leftShape rightShape)
    (nodup_joinSchema_sharedPairs rightShape leftShape)).mpr
  intro name
  change name ∈ (left.joined right).schema.names ↔ name ∈ (right.joined left).schema.names
  rw [← List.contains_iff_mem, ← List.contains_iff_mem, contains_names_joined,
    contains_names_joined, Bool.or_comm]

theorem bag_joined_comm :
    Multiset.Rel SameValues (left.joined right).bag (right.joined left).bag := by
  have swapped : matching (right.agrees left (right.sharedPairs left)) right.tuples left.tuples =
      (matching (left.agrees right (left.sharedPairs right)) left.tuples right.tuples).map
        Prod.swap := by
    apply matching_swap
    intro first inLeft second inRight
    have firstWidth := leftShape.length_eq inLeft
    have secondWidth := rightShape.length_eq inRight
    rw [Bool.eq_iff_iff, agrees_sharedPairs_iff firstWidth secondWidth,
      agrees_sharedPairs_iff secondWidth firstWidth]
    exact compatible_comm
  rw [bag_joined leftShape rightShape, bag_joined rightShape leftShape, swapped,
    Multiset.map_map, Multiset.rel_map]
  apply Multiset.rel_refl_of_refl_on
  intro pair member
  obtain ⟨⟨inLeft, inRight⟩, agree⟩ := mem_matching.mp member
  exact ((agrees_sharedPairs_iff (leftShape.length_eq inLeft)
    (rightShape.length_eq inRight)).mp agree).extended_comm

theorem naturalJoin_swap (leftQuotable : left.Quotable) (rightQuotable : right.Quotable)
    (made : left.naturalJoin right none = .ok result) :
    right.naturalJoin left none = .ok (right.joined left) := by
  obtain ⟨combined, product⟩ := exists_product_of_naturalJoin made
  have distinct := (names_productSchema_swap left right).nodup_iff.mpr (product_eq_ok.mp product).1
  exact naturalJoin_eq_joined rightShape leftShape rightQuotable leftQuotable
    (product_eq_ok.mpr ⟨distinct, rfl⟩)

end Joined

/-- A natural join on the shared fields succeeds exactly if the join with the relations changed
round does. The two have the same names, and each has the rows of the other one, each as often, with
equal values under all names. -/
theorem naturalJoin_comm (leftReachable : left.Reachable) (rightReachable : right.Reachable)
    (leftQuotable : left.Quotable) (rightQuotable : right.Quotable) :
    AgreeUpTo
      (fun result other => result.schema.names.Perm other.schema.names ∧
        Multiset.Rel SameValues result.bag other.bag)
      (left.naturalJoin right none) (right.naturalJoin left none) := by
  have leftShape := leftReachable.wellFormed
  have rightShape := rightReachable.wellFormed
  apply agreeUpTo_of_forth_back
  · intro result made
    have other := naturalJoin_swap leftShape rightShape leftQuotable rightQuotable made
    cases eq_joined_of_naturalJoin leftShape rightShape leftQuotable rightQuotable made
    exact ⟨_, other, names_joined_perm leftShape rightShape,
      bag_joined_comm leftShape rightShape⟩
  · intro other otherMade
    exact ⟨_, naturalJoin_swap rightShape leftShape rightQuotable leftQuotable otherMade⟩

/-- A station where the level is zero. -/
def levels : Relation := ⟨"levels", [.any "level", .any "station"], [[.float ⟨0⟩, .str "north"]]⟩

/-- An alarm for a level that is negative zero. -/
def alarms : Relation :=
  ⟨"alarms", [.any "alarm", .any "level"], [[.str "dry", .float ⟨0x8000000000000000⟩]]⟩

theorem reachable_levels : levels.Reachable :=
  reachable_of_rows (by decide) (by decide) (by decide)

theorem reachable_alarms : alarms.Reachable :=
  reachable_of_rows (by decide) (by decide) (by decide)

/-- The two zeros are equal, and either join has the zero of its left relation. -/
theorem naturalJoin_comm_levels_alarms :
    ∃ result other, levels.naturalJoin alarms none = .ok result ∧
      alarms.naturalJoin levels none = .ok other ∧
      result.tuples = [[.float ⟨0⟩, .str "north", .str "dry"]] ∧
      other.tuples = [[.str "dry", .float ⟨0x8000000000000000⟩, .str "north"]] ∧
      result.schema.names.Perm other.schema.names ∧
      Multiset.Rel SameValues result.bag other.bag := by
  have levelsQuotable : levels.Quotable := ⟨by decide, by decide⟩
  have alarmsQuotable : alarms.Quotable := ⟨by decide, by decide⟩
  have made : levels.naturalJoin alarms none = .ok (levels.joined alarms) :=
    naturalJoin_eq_joined reachable_levels.wellFormed reachable_alarms.wellFormed levelsQuotable
      alarmsQuotable (product_eq_ok.mpr ⟨by decide, rfl⟩)
  have agree := naturalJoin_comm reachable_levels reachable_alarms levelsQuotable alarmsQuotable
  obtain ⟨other, otherMade⟩ := agree.1.mp ⟨_, made⟩
  have same : levels.agrees alarms (levels.sharedPairs alarms) [.float ⟨0⟩, .str "north"]
      [.str "dry", .float ⟨0x8000000000000000⟩] = true := by
    decide +kernel
  have otherSame : alarms.agrees levels (alarms.sharedPairs levels)
      [.str "dry", .float ⟨0x8000000000000000⟩] [.float ⟨0⟩, .str "north"] = true := by
    decide +kernel
  have tuples : (levels.joined alarms).tuples = [[.float ⟨0⟩, .str "north", .str "dry"]] := by
    change List.map _ (List.filter _ [_]) ++ [] = _
    rw [List.filter_cons_of_pos same]
    rfl
  have otherTuples : other.tuples =
      [[.str "dry", .float ⟨0x8000000000000000⟩, .str "north"]] := by
    rw [eq_joined_of_naturalJoin reachable_alarms.wellFormed reachable_levels.wellFormed
      alarmsQuotable levelsQuotable otherMade]
    change List.map _ (List.filter _ [_]) ++ [] = _
    rw [List.filter_cons_of_pos otherSame]
    rfl
  exact ⟨_, other, made, otherMade, tuples, otherTuples, agree.2 _ _ made otherMade⟩

end Relation

end TypedRelations
