import TypedRelations.Proofs.Bag
import TypedRelations.Proofs.Condition.FieldNames
import TypedRelations.Proofs.OuterJoin
import TypedRelations.Proofs.Product

/-!
# Outer joins and their mirror images

Changing the relations of an outer join round changes its columns and the order of its rows, and a
left outer join becomes a right one. Otherwise it is the same join, as the predicate finds the same
values under the qualified names (`outerJoins_mirror`).
-/

namespace TypedRelations.Relation

/-- The side that keeps its rows, seen with the relations changed round. -/
def Side.mirror : Side → Side
  | .left => .right
  | .right => .left
  | .both => .both

@[simp] theorem Side.keepsLeft_mirror (side : Side) : side.mirror.keepsLeft = side.keepsRight := by
  cases side <;> rfl

@[simp] theorem Side.keepsRight_mirror (side : Side) : side.mirror.keepsRight = side.keepsLeft := by
  cases side <;> rfl

@[simp] theorem Side.mirror_mirror (side : Side) : side.mirror.mirror = side := by
  cases side <;> rfl

variable {left right joined mirrored result : Relation} {predicate : String}
  {first second : Tuple}

section Pairs

variable (distinct : (left.productSchema right).names.Nodup)
  (firstWidth : first.length = left.schema.length)
  (secondWidth : second.length = right.schema.length)

include distinct firstWidth secondWidth

/-- A predicate has the same truth value on two rows in either order. It may fail with different
errors, because these may name the product. -/
theorem holdsOn_swap {holds : Bool} :
    left.holdsOn right predicate first second = .ok holds ↔
      right.holdsOn left predicate second first = .ok holds := by
  cases parsed : Condition.parse predicate with
  | error error => simp only [holdsOn, parsed, bind, Except.bind, reduceCtorEq]
  | ok condition =>
      rw [holdsOn_of_parse parsed, holdsOn_of_parse parsed]
      apply Condition.evaluate_eq_ok_congr
      intro name _
      exact congrFun (get?_productSchema_swap distinct firstWidth secondWidth) name

theorem isTrueOn_swap :
    left.isTrueOn right predicate first second = right.isTrueOn left predicate second first := by
  rw [Bool.eq_iff_iff, isTrueOn_eq_true, isTrueOn_eq_true]
  exact holdsOn_swap distinct firstWidth secondWidth

theorem isFalseOn_swap :
    left.isFalseOn right predicate first second =
      right.isFalseOn left predicate second first := by
  rw [Bool.eq_iff_iff, isFalseOn_eq_true, isFalseOn_eq_true]
  exact holdsOn_swap distinct firstWidth secondWidth

end Pairs

theorem map_if {α β : Type} {firsts seconds : List α} {image otherImage : α → β} (keeps : Bool)
    (same : firsts.map image = seconds.map otherImage) :
    (if keeps then firsts else []).map image =
      (if keeps then seconds else []).map otherImage := by
  cases keeps with
  | true => exact same
  | false => rfl

theorem bag_thetaJoin (made : left.thetaJoin right predicate = .ok joined) :
    joined.bag = (matching (left.isTrueOn right predicate) left.tuples right.tuples).map
      fun pair => (joined.row (pair.1 ++ pair.2)).get? := by
  obtain ⟨-, -, -, rfl⟩ := thetaJoin_eq_ok_iff.mp made
  exact bag_eq_matching rfl

section Mirrored

variable (leftShape : left.WellFormed) (rightShape : right.WellFormed)

include leftShape rightShape

theorem thetaJoin_mirror (made : left.thetaJoin right predicate = .ok joined) :
    ∃ mirrored, right.thetaJoin left predicate = .ok mirrored ∧ joined.bag = mirrored.bag := by
  obtain ⟨distinct, readable, total, same⟩ := thetaJoin_eq_ok_iff.mp made
  have mirrorDistinct := (names_productSchema_swap left right).nodup_iff.mpr distinct
  have mirrorTotal : ∀ second ∈ right.tuples, ∀ first ∈ left.tuples,
      ∃ holds, right.holdsOn left predicate second first = .ok holds := by
    intro second inRight first inLeft
    obtain ⟨holds, onPair⟩ := total first inLeft second inRight
    exact ⟨holds, (holdsOn_swap distinct (leftShape.length_eq inLeft)
      (rightShape.length_eq inRight)).mp onPair⟩
  have mirrorMade := thetaJoin_eq_ok_iff.mpr ⟨mirrorDistinct, readable, mirrorTotal, rfl⟩
  refine ⟨_, mirrorMade, ?_⟩
  have swapped : matching (right.isTrueOn left predicate) right.tuples left.tuples =
      (matching (left.isTrueOn right predicate) left.tuples right.tuples).map Prod.swap := by
    apply matching_swap
    intro first inLeft second inRight
    exact isTrueOn_swap distinct (leftShape.length_eq inLeft) (rightShape.length_eq inRight)
  rw [bag_thetaJoin made, bag_thetaJoin mirrorMade, swapped, Multiset.map_map]
  apply Multiset.map_congr rfl
  intro pair member
  obtain ⟨⟨inLeft, inRight⟩, -⟩ := mem_matching.mp member
  rw [same]
  exact get?_productSchema_swap distinct (leftShape.length_eq inLeft)
    (rightShape.length_eq inRight)

/-- The left rows without a partner are the same in the mirror, with the nulls on the other side. -/
theorem map_unmatchedLeft (made : left.thetaJoin right predicate = .ok joined)
    (mirrorMade : right.thetaJoin left predicate = .ok mirrored) :
    (unmatchedLeft joined.tuples left.schema.length right.schema.length left.tuples).map
        (fun tuple => (joined.row tuple).get?) =
      (unmatchedRight mirrored.tuples right.schema.length left.tuples).map
        fun tuple => (mirrored.row tuple).get? := by
  have distinct := (thetaJoin_eq_ok_iff.mp made).1
  rw [unmatchedLeft, unmatchedRight, List.map_map, List.map_map,
    List.filter_congr fun first inLeft => begins_joined_eq leftShape made inLeft,
    List.filter_congr fun first inLeft => ends_joined_eq rightShape mirrorMade inLeft]
  have sameTest : ∀ first ∈ left.tuples,
      right.tuples.all (left.isFalseOn right predicate first) =
        right.tuples.all fun second => right.isFalseOn left predicate second first := by
    intro first inLeft
    rw [Bool.eq_iff_iff, List.all_eq_true, List.all_eq_true]
    apply forall₂_congr
    intro second inRight
    rw [isFalseOn_swap distinct (leftShape.length_eq inLeft) (rightShape.length_eq inRight)]
  rw [List.filter_congr sameTest]
  apply List.map_congr_left
  intro first member
  have inLeft := List.mem_of_mem_filter member
  rw [Function.comp_apply, Function.comp_apply, row, row, schema_of_thetaJoin made,
    schema_of_thetaJoin mirrorMade]
  exact get?_productSchema_swap distinct (leftShape.length_eq inLeft)
    (Tuple.length_nulls right.schema.length)

/-- An outer join succeeds only if its mirror image does, and both have the same rows by name. -/
theorem outerJoin_mirror {side : Side}
    (made : left.outerJoin right predicate side = .ok result) :
    ∃ mirrored, right.outerJoin left predicate side.mirror = .ok mirrored ∧
      result.bag = mirrored.bag := by
  obtain ⟨joined, theta, rfl⟩ := outerJoin_eq_ok.mp made
  obtain ⟨mirrored, mirrorTheta, sameJoin⟩ := thetaJoin_mirror leftShape rightShape theta
  refine ⟨_, outerJoin_eq_ok.mpr ⟨mirrored, mirrorTheta, rfl⟩, ?_⟩
  have sameLeft := map_unmatchedLeft leftShape rightShape theta mirrorTheta
  have sameRight := map_unmatchedLeft rightShape leftShape mirrorTheta theta
  rw [bag_append, bag_append, Side.keepsLeft_mirror, Side.keepsRight_mirror, sameJoin,
    map_if side.keepsLeft sameLeft, map_if side.keepsRight sameRight]
  congr 1
  exact Multiset.add_comm _ _

end Mirrored

theorem agreeUpTo_mirror (leftShape : left.WellFormed) (rightShape : right.WellFormed)
    (predicate : String) (side : Side) :
    AgreeUpTo (fun result mirrored => result.bag = mirrored.bag)
      (left.outerJoin right predicate side) (right.outerJoin left predicate side.mirror) := by
  apply agreeUpTo_of_forth_back
  · exact fun result made => outerJoin_mirror leftShape rightShape made
  · intro mirrored made
    obtain ⟨result, back, -⟩ := outerJoin_mirror rightShape leftShape made
    rw [Side.mirror_mirror] at back
    exact ⟨result, back⟩

/-- A left outer join succeeds exactly if the right outer join with the relations changed round
does, and then the two have the same rows by name, each as often. The same is true of a full outer
join and the one with the relations changed round. -/
theorem outerJoins_mirror (leftReachable : left.Reachable) (rightReachable : right.Reachable)
    (predicate : String) :
    AgreeUpTo (fun result mirrored => result.bag = mirrored.bag)
        (left.leftOuterJoin right predicate) (right.rightOuterJoin left predicate) ∧
      AgreeUpTo (fun result mirrored => result.bag = mirrored.bag)
        (left.fullOuterJoin right predicate) (right.fullOuterJoin left predicate) := by
  have mirror := agreeUpTo_mirror leftReachable.wellFormed rightReachable.wellFormed predicate
  exact ⟨mirror .left, mirror .both⟩

/-- The samples without a mark come out twice from either side, and the rows agree by name. -/
theorem outerJoins_mirror_samples_marks :
    ∃ result mirrored, samples.leftOuterJoin marks "A.x == B.y" = .ok result ∧
      marks.rightOuterJoin samples "A.x == B.y" = .ok mirrored ∧ result.bag = mirrored.bag ∧
      result.tuples =
        [[.int 1, .int 1], [.int 1, .int 1], [.int 7, .null], [.int 7, .null]] := by
  have made : samples.leftOuterJoin marks "A.x == B.y" =
      .ok ⟨"A left outer join B", [.any "A.x", .any "B.y"],
        [[.int 1, .int 1], [.int 1, .int 1], [.int 7, .null], [.int 7, .null]]⟩ :=
    outerJoin_eq_ok.mpr ⟨_, thetaJoin_samples_marks, by rfl⟩
  have mirror := (outerJoins_mirror reachable_samples reachable_marks "A.x == B.y").1
  obtain ⟨mirrored, mirrorMade⟩ := mirror.1.mp ⟨_, made⟩
  exact ⟨_, mirrored, made, mirrorMade, mirror.2 _ _ made mirrorMade, rfl⟩

end TypedRelations.Relation
