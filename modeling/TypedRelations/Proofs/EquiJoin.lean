import TypedRelations.Proofs.NaturalJoin
import TypedRelations.Proofs.Value.Order

/-!
# What a join on an equality is

A join on the equality of two fields writes its condition as a text and has it read back. For
relations whose names can be written between back quotes the detour is without effect: the join
keeps the rows of the product in which the two fields hold the same value (`equiJoin_rows`), which
is said by `Value.Same` and not by the comparison of conditions.
-/

namespace TypedRelations

namespace Relation

variable {left right combined : Relation} {leftField rightField : String}

/-- A row has the value under one name that another row has under another name. -/
def sharesValue (left right : Relation) (leftField rightField : String)
    (first second : Tuple) : Bool :=
  (left.row first).get? leftField == (right.row second).get? rightField

theorem agrees_single (left right : Relation) (leftField rightField : String) :
    left.agrees right [(leftField, rightField)] =
      left.sharesValue right leftField rightField := by
  funext first second
  rw [agrees, List.all_cons, List.all_nil, Bool.and_true, sharesValue]

/-- Both rows have values under the names, and the test compares these values. -/
theorem exists_values (leftShape : left.WellFormed) (rightShape : right.WellFormed)
    (inLeft : leftField ∈ left.schema.names) (inRight : rightField ∈ right.schema.names)
    {first second : Tuple} (firstStored : first ∈ left.tuples)
    (secondStored : second ∈ right.tuples) :
    ∃ value other, (left.row first).get? leftField = some value ∧
      (right.row second).get? rightField = some other ∧
      (left.sharesValue right leftField rightField first second = true ↔ value.Same other) := by
  obtain ⟨value, found⟩ := exists_get? (leftShape.length_eq firstStored) inLeft
  obtain ⟨other, otherFound⟩ := exists_get? (rightShape.length_eq secondStored) inRight
  refine ⟨value, other, found, otherFound, ?_⟩
  rw [sharesValue, found, otherFound, Option.some_beq_some, Value.beq_iff_same]

/-- Whatever the names of relations and fields contain besides back quotes, a join on an equality
whose product succeeds succeeds as well. Its rows are those of the product, in their order, in which
the left field and the right field hold the same value. -/
theorem equiJoin_rows (leftReachable : left.Reachable) (rightReachable : right.Reachable)
    (leftQuotable : left.Quotable) (rightQuotable : right.Quotable)
    (made : left.product right = .ok combined) (inLeft : leftField ∈ left.schema.names)
    (inRight : rightField ∈ right.schema.names) :
    (∃ name, left.equiJoin right leftField rightField =
      .ok ⟨name, combined.schema, left.tuples.flatMap fun first =>
        (right.tuples.filter (left.sharesValue right leftField rightField first)).map
          fun second => first ++ second⟩) ∧
    ∀ first ∈ left.tuples, ∀ second ∈ right.tuples,
      ∃ value other, (left.row first).get? leftField = some value ∧
        (right.row second).get? rightField = some other ∧
        (left.sharesValue right leftField rightField first second = true ↔
          value.Same other) := by
  have leftShape := leftReachable.wellFormed
  have rightShape := rightReachable.wellFormed
  constructor
  · obtain ⟨name, joined⟩ := exists_joinOn leftShape rightShape leftQuotable rightQuotable made
      (pairs_single inLeft inRight)
    obtain ⟨-, rfl⟩ := product_eq_ok.mp made
    refine ⟨name, (equiJoin_eq_joinOn inLeft inRight).trans (joined.trans ?_)⟩
    rw [pairedTuples, agrees_single]
  · intro first firstStored second secondStored
    exact exists_values leftShape rightShape inLeft inRight firstStored secondStored

/-- Names that have to be quoted for their blanks, dots, signs and quotation marks, and a field that
is called like a connective. -/
def measured : Relation :=
  ⟨"x y.z == 'w", [.any "and"], [[.null], [.float ⟨0⟩], [.int 0]]⟩

/-- Names that have to be quoted for their letters and digits. -/
def expected : Relation :=
  ⟨"größe", [.any "1 < \"2\""], [[.float ⟨0x8000000000000000⟩], [.str "0"], [.null]]⟩

theorem reachable_measured : measured.Reachable :=
  reachable_of_rows (by decide) (by decide) (by decide)

theorem reachable_expected : expected.Reachable :=
  reachable_of_rows (by decide) (by decide) (by decide)

/-- The nulls are the same and so are the two zeros, but the integer zero is neither of them. -/
theorem equiJoin_rows_measured_expected :
    ∃ name, measured.equiJoin expected "and" "1 < \"2\"" =
      .ok ⟨name, [.any "x y.z == 'w.and", .any "größe.1 < \"2\""],
        [[.null, .null], [.float ⟨0⟩, .float ⟨0x8000000000000000⟩]]⟩ := by
  have measuredQuotable : measured.Quotable := ⟨by decide, by decide⟩
  have expectedQuotable : expected.Quotable := ⟨by decide, by decide⟩
  have product : measured.product expected = .ok _ := product_eq_ok.mpr ⟨by decide, rfl⟩
  exact (equiJoin_rows reachable_measured reachable_expected measuredQuotable expectedQuotable
    product (by decide) (by decide)).1

end Relation

end TypedRelations
