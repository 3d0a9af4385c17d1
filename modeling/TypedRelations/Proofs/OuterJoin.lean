import Mathlib.Data.List.FinRange
import TypedRelations.Proofs.Condition.Equalities
import TypedRelations.Proofs.Condition.Evaluation
import TypedRelations.Proofs.Insertion.Filling

/-!
# Outer joins by position

An outer join looks for the values of a row in the combined rows. Which rows should be kept is a
question of positions: those for which the predicate is false on every combination. The two agree,
because a predicate cannot tell equal rows apart (`outerJoin_eq_lonely`).
-/

namespace TypedRelations.Relation

variable {left right joined : Relation} {predicate : String} {first second : Tuple}

/-- The truth value of a predicate on two rows side by side. -/
def holdsOn (left right : Relation) (predicate : String) (first second : Tuple) :
    Except Error Bool := do
  let condition ← Condition.parse predicate
  condition.evaluate
    (Row.mk (left.name ++ " x " ++ right.name) (left.productSchema right) (first ++ second)).scope

/-- The predicate holds on two rows. -/
def isTrueOn (left right : Relation) (predicate : String) (first second : Tuple) : Bool :=
  (left.holdsOn right predicate first second).toOption.getD false

/-- The predicate is false on two rows. -/
def isFalseOn (left right : Relation) (predicate : String) (first second : Tuple) : Bool :=
  match left.holdsOn right predicate first second with
  | .ok false => true
  | _ => false

/-- The positions of the left rows that no right row matches, in order. -/
def lonelyLeft (left right : Relation) (predicate : String) : List (Fin left.tuples.length) :=
  (List.finRange left.tuples.length).filter fun leftPosition =>
    (List.finRange right.tuples.length).all fun rightPosition =>
      left.isFalseOn right predicate left.tuples[leftPosition] right.tuples[rightPosition]

/-- The positions of the right rows that no left row matches, in order. -/
def lonelyRight (left right : Relation) (predicate : String) : List (Fin right.tuples.length) :=
  (List.finRange right.tuples.length).filter fun rightPosition =>
    (List.finRange left.tuples.length).all fun leftPosition =>
      left.isFalseOn right predicate left.tuples[leftPosition] right.tuples[rightPosition]

/-- The left rows without a match, with nulls for the fields of the right relation. -/
def lonelyLeftTuples (left right : Relation) (predicate : String) : List Tuple :=
  (left.lonelyLeft right predicate).map fun position =>
    left.tuples[position] ++ Tuple.nulls right.schema.length

/-- The right rows without a match, with nulls for the fields of the left relation. -/
def lonelyRightTuples (left right : Relation) (predicate : String) : List Tuple :=
  (left.lonelyRight right predicate).map fun position =>
    Tuple.nulls left.schema.length ++ right.tuples[position]

theorem isTrueOn_eq_true :
    left.isTrueOn right predicate first second = true ↔
      left.holdsOn right predicate first second = .ok true := by
  rw [isTrueOn]
  cases left.holdsOn right predicate first second with
  | error error => simp [Except.toOption]
  | ok holds => simp [Except.toOption]

theorem holdsOn_of_parse {condition : Condition}
    (parsed : Condition.parse predicate = .ok condition) (first second : Tuple) :
    left.holdsOn right predicate first second =
      condition.evaluate (Row.mk (left.name ++ " x " ++ right.name) (left.productSchema right)
        (first ++ second)).scope := by
  rw [holdsOn, parsed]
  rfl

/-- Rows with equal values under one schema give equal values to the same names. -/
theorem within_of_forall₂ {tuple other : Tuple}
    (same : List.Forall₂ (fun value otherValue => (value == otherValue) = true) tuple other)
    (name : String) (schema : Schema) :
    (Row.mk name schema tuple).scope.Within (Row.mk name schema other).scope := by
  intro field value found
  rcases Option.bind_eq_some_iff.mp found with ⟨position, located, listed⟩
  rcases exists_left_at same.flip listed with ⟨otherValue, otherListed, equal⟩
  exact ⟨otherValue, Option.bind_eq_some_iff.mpr ⟨position, located, otherListed⟩, equal⟩

/-- A predicate cannot tell pairs of equal rows apart. -/
theorem holdsOn_congr {otherFirst otherSecond : Tuple} {holds : Bool}
    (sameFirst : (first == otherFirst) = true) (sameSecond : (second == otherSecond) = true)
    (holdsFirst : left.holdsOn right predicate first second = .ok holds) :
    left.holdsOn right predicate otherFirst otherSecond = .ok holds := by
  rcases bind_eq_ok.mp holdsFirst with ⟨condition, parsed, evaluated⟩
  have same := List.rel_append (forall₂_of_beq sameFirst) (forall₂_of_beq sameSecond)
  exact bind_eq_ok.mpr ⟨condition, parsed,
    Condition.evaluate_within (within_of_forall₂ same _ _) evaluated⟩

/-- A join succeeds if the product does and the predicate can be read and has a truth value on every
pair of rows. Then it has the pairs on which the predicate holds. -/
theorem thetaJoin_eq_ok_iff :
    left.thetaJoin right predicate = .ok joined ↔
      (left.productSchema right).names.Nodup ∧
        (∃ condition, Condition.parse predicate = .ok condition) ∧
        (∀ first ∈ left.tuples, ∀ second ∈ right.tuples,
          ∃ holds, left.holdsOn right predicate first second = .ok holds) ∧
        joined = ⟨left.name ++ " x " ++ right.name ++ " where: " ++ predicate,
          left.productSchema right,
          left.tuples.flatMap fun first =>
            (right.tuples.filter (left.isTrueOn right predicate first)).map (first ++ ·)⟩ := by
  have onPairs (condition : Condition) (parsed : Condition.parse predicate = .ok condition)
      (tuples : List Tuple) :
      keepWhere (fun tuple => condition.evaluate
          (Row.mk (left.name ++ " x " ++ right.name) (left.productSchema right) tuple).scope)
          (left.productTuples right) = .ok tuples ↔
        (∀ first ∈ left.tuples, ∀ second ∈ right.tuples,
          ∃ holds, left.holdsOn right predicate first second = .ok holds) ∧
        tuples = left.tuples.flatMap fun first =>
          (right.tuples.filter (left.isTrueOn right predicate first)).map (first ++ ·) := by
    have isTrue (first : Tuple) : left.isTrueOn right predicate first = fun second =>
        (left.holdsOn right predicate first second).toOption.getD false := rfl
    rw [keepWhere_eq_ok, productTuples, List.filter_flatMap]
    simp only [List.forall_mem_flatMap, List.forall_mem_map, isTrue, holdsOn_of_parse parsed,
      List.filter_map, Function.comp_def]
  rw [thetaJoin_eq_ok]
  simp only [product_eq_ok, select_eq_ok]
  constructor
  · rintro ⟨combined, ⟨distinct, rfl⟩, condition, tuples, parsed, kept, rfl⟩
    obtain ⟨total, rfl⟩ := (onPairs condition parsed tuples).mp kept
    exact ⟨distinct, ⟨condition, parsed⟩, total, rfl⟩
  · rintro ⟨distinct, ⟨condition, parsed⟩, total, rfl⟩
    exact ⟨_, ⟨distinct, rfl⟩, condition, _, parsed,
      (onPairs condition parsed _).mpr ⟨total, rfl⟩, rfl⟩

/-- A join succeeds only if the predicate has a truth value on every pair of rows, and its rows are
the pairs on which the predicate holds. -/
theorem thetaJoin_holdsOn (made : left.thetaJoin right predicate = .ok joined) :
    (∀ first ∈ left.tuples, ∀ second ∈ right.tuples,
      ∃ holds, left.holdsOn right predicate first second = .ok holds) ∧
    ∀ tuple, tuple ∈ joined.tuples ↔ ∃ first ∈ left.tuples, ∃ second ∈ right.tuples,
      left.holdsOn right predicate first second = .ok true ∧ first ++ second = tuple := by
  rcases thetaJoin_eq_ok_iff.mp made with ⟨-, -, total, rfl⟩
  refine ⟨total, fun tuple => ?_⟩
  simp only [List.mem_flatMap, List.mem_map, List.mem_filter, isTrueOn_eq_true, and_assoc]

/-! ## Rows without a match -/

theorem isFalseOn_eq_true :
    left.isFalseOn right predicate first second = true ↔
      left.holdsOn right predicate first second = .ok false := by
  rw [isFalseOn]
  cases left.holdsOn right predicate first second with
  | error error => simp
  | ok holds =>
      cases holds with
      | false => simp
      | true => simp

theorem isFalseOn_eq_not {holds : Bool}
    (onPair : left.holdsOn right predicate first second = .ok holds) :
    left.isFalseOn right predicate first second = !holds := by
  rw [isFalseOn, onPair]
  cases holds with
  | true => rfl
  | false => rfl

/-- A row is a part of no combined row exactly if the test is false on all its pairs. The rows may
be those on either side: `beside` puts a row next to one of the others, and `part` cuts it out
again. -/
theorem isPartOfNone_eq {items others combinations : List Tuple}
    {test : Tuple → Tuple → Except Error Bool} {isFalse : Tuple → Tuple → Bool}
    {beside : Tuple → Tuple → Tuple} {part : Tuple → Tuple}
    (total : ∀ item ∈ items, ∀ other ∈ others, ∃ holds, test item other = .ok holds)
    (isFalse_eq : ∀ item other holds, test item other = .ok holds → isFalse item other = !holds)
    (test_congr : ∀ item equal other holds, (item == equal) = true → test item other = .ok holds →
      test equal other = .ok holds)
    (isCombined : ∀ tuple, tuple ∈ combinations ↔ ∃ item ∈ items, ∃ other ∈ others,
      test item other = .ok true ∧ beside item other = tuple)
    (part_beside : ∀ item ∈ items, ∀ other ∈ others, part (beside item other) = item)
    {item : Tuple} (member : item ∈ items) :
    (!combinations.any fun combination => part combination == item) =
      others.all (isFalse item) := by
  rw [← Bool.not_inj_iff, Bool.not_not, Bool.eq_iff_iff, List.any_eq_true, List.not_all_eq_any_not,
    List.any_eq_true]
  constructor
  · rintro ⟨combination, inCombinations, same⟩
    rcases (isCombined combination).mp inCombinations with
      ⟨source, inItems, other, inOthers, holds, rfl⟩
    rw [part_beside source inItems other inOthers] at same
    refine ⟨other, inOthers, ?_⟩
    rw [isFalse_eq item other true (test_congr source item other true same holds)]
    rfl
  · rintro ⟨other, inOthers, notFalse⟩
    rcases total item member other inOthers with ⟨holds, tested⟩
    rw [isFalse_eq item other holds tested, Bool.not_not] at notFalse
    rw [notFalse] at tested
    refine ⟨beside item other, (isCombined _).mpr ⟨item, member, other, inOthers, tested, rfl⟩, ?_⟩
    rw [part_beside item member other inOthers]
    exact BEq.rfl

/-- A left row begins a combined row exactly if the predicate is not false on all its pairs. -/
theorem begins_joined_eq (leftShape : left.WellFormed)
    (made : left.thetaJoin right predicate = .ok joined) (inLeft : first ∈ left.tuples) :
    (!joined.tuples.any fun combination => combination.take left.schema.length == first) =
      right.tuples.all (left.isFalseOn right predicate first) := by
  rcases thetaJoin_holdsOn made with ⟨total, isJoined⟩
  refine isPartOfNone_eq total (fun _ _ _ => isFalseOn_eq_not)
    (fun _ _ _ _ same => holdsOn_congr same BEq.rfl) isJoined ?_ inLeft
  intro first inLeft second _
  rw [← leftShape.length_eq inLeft]
  exact List.take_left

/-- A right row ends a combined row exactly if the predicate is not false on all its pairs. -/
theorem ends_joined_eq (leftShape : left.WellFormed)
    (made : left.thetaJoin right predicate = .ok joined) (inRight : second ∈ right.tuples) :
    (!joined.tuples.any fun combination => combination.drop left.schema.length == second) =
      left.tuples.all fun first => left.isFalseOn right predicate first second := by
  rcases thetaJoin_holdsOn made with ⟨total, isJoined⟩
  have isJoinedRight : ∀ tuple, tuple ∈ joined.tuples ↔
      ∃ second ∈ right.tuples, ∃ first ∈ left.tuples,
        left.holdsOn right predicate first second = .ok true ∧ first ++ second = tuple := by
    intro tuple
    rw [isJoined]
    constructor
    · rintro ⟨first, inLeft, second, inRight, onPair⟩
      exact ⟨second, inRight, first, inLeft, onPair⟩
    · rintro ⟨second, inRight, first, inLeft, onPair⟩
      exact ⟨first, inLeft, second, inRight, onPair⟩
  refine isPartOfNone_eq (fun second inRight first inLeft => total first inLeft second inRight)
    (fun _ _ _ => isFalseOn_eq_not) (fun _ _ _ _ same => holdsOn_congr BEq.rfl same) isJoinedRight
    ?_ inRight
  intro second _ first inLeft
  rw [← leftShape.length_eq inLeft]
  exact List.drop_left

/-- Keeping items by a test of their positions is keeping them by a test of themselves. -/
theorem map_filter_finRange {α β : Type} (items : List α) (keep : α → Bool) (image : α → β) :
    ((List.finRange items.length).filter fun position => keep items[position]).map
        (fun position => image items[position]) =
      (items.filter keep).map image := by
  conv_rhs => rw [← List.map_getElem_finRange items, List.filter_map, List.map_map]
  rfl

theorem all_finRange {α : Type} (items : List α) (holds : α → Bool) :
    ((List.finRange items.length).all fun position => holds items[position]) =
      items.all holds := by
  conv_rhs => rw [← List.map_getElem_finRange items, List.all_map]
  rfl

theorem unmatchedLeft_eq (leftShape : left.WellFormed)
    (made : left.thetaJoin right predicate = .ok joined) :
    unmatchedLeft joined.tuples left.schema.length right.schema.length left.tuples =
      left.lonelyLeftTuples right predicate := by
  have alone : ∀ position : Fin left.tuples.length,
      ((List.finRange right.tuples.length).all fun other =>
        left.isFalseOn right predicate left.tuples[position] right.tuples[other]) =
      right.tuples.all (left.isFalseOn right predicate left.tuples[position]) :=
    fun position => all_finRange right.tuples (left.isFalseOn right predicate left.tuples[position])
  rw [lonelyLeftTuples, lonelyLeft, unmatchedLeft, funext alone]
  rw [map_filter_finRange left.tuples
    (fun first => right.tuples.all (left.isFalseOn right predicate first))
    (· ++ Tuple.nulls right.schema.length)]
  congr 1
  exact List.filter_congr fun first inLeft => begins_joined_eq leftShape made inLeft

theorem unmatchedRight_eq (leftShape : left.WellFormed)
    (made : left.thetaJoin right predicate = .ok joined) :
    unmatchedRight joined.tuples left.schema.length right.tuples =
      left.lonelyRightTuples right predicate := by
  have alone : ∀ position : Fin right.tuples.length,
      ((List.finRange left.tuples.length).all fun other =>
        left.isFalseOn right predicate left.tuples[other] right.tuples[position]) =
      left.tuples.all fun first =>
        left.isFalseOn right predicate first right.tuples[position] :=
    fun position => all_finRange left.tuples fun first =>
      left.isFalseOn right predicate first right.tuples[position]
  rw [lonelyRightTuples, lonelyRight, unmatchedRight, funext alone]
  rw [map_filter_finRange right.tuples
    (fun second => left.tuples.all fun first => left.isFalseOn right predicate first second)
    (Tuple.nulls left.schema.length ++ ·)]
  congr 1
  exact List.filter_congr fun second inRight => ends_joined_eq leftShape made inRight

/-- An outer join adds to the join the rows without a match that its side keeps. -/
theorem outerJoin_eq_lonely (leftShape : left.WellFormed)
    (made : left.thetaJoin right predicate = .ok joined) (side : Side) :
    left.outerJoin right predicate side =
      .ok ⟨left.name ++ " " ++ side.text ++ " outer join " ++ right.name, joined.schema,
        joined.tuples ++ (if side.keepsLeft then left.lonelyLeftTuples right predicate else []) ++
          (if side.keepsRight then left.lonelyRightTuples right predicate else [])⟩ := by
  rw [← unmatchedLeft_eq leftShape made, ← unmatchedRight_eq leftShape made]
  exact outerJoin_eq_ok.mpr ⟨joined, made, rfl⟩

theorem outerJoin_eq_error {error : Error} (failed : left.thetaJoin right predicate = .error error)
    (side : Side) : left.outerJoin right predicate side = .error error := by
  rw [outerJoin, failed]
  rfl

/-- The outer joins fail as the join on their predicate does. Otherwise they have its fields and its
rows, and then every row without a match, once and in order: a left row for which the predicate is
false on every right row, or a right row for which it is false on every left row. -/
theorem outerJoins_keep_lonely (leftReachable : left.Reachable) (predicate : String) :
    (∀ error, left.thetaJoin right predicate = .error error →
      left.fullOuterJoin right predicate = .error error ∧
        left.leftOuterJoin right predicate = .error error ∧
        left.rightOuterJoin right predicate = .error error) ∧
    (∀ joined, left.thetaJoin right predicate = .ok joined →
      left.fullOuterJoin right predicate =
          .ok ⟨left.name ++ " " ++ "full" ++ " outer join " ++ right.name, joined.schema,
            joined.tuples ++ left.lonelyLeftTuples right predicate ++
              left.lonelyRightTuples right predicate⟩ ∧
        left.leftOuterJoin right predicate =
          .ok ⟨left.name ++ " " ++ "left" ++ " outer join " ++ right.name, joined.schema,
            joined.tuples ++ left.lonelyLeftTuples right predicate⟩ ∧
        left.rightOuterJoin right predicate =
          .ok ⟨left.name ++ " " ++ "right" ++ " outer join " ++ right.name, joined.schema,
            joined.tuples ++ left.lonelyRightTuples right predicate⟩) := by
  constructor
  · intro error failed
    exact ⟨outerJoin_eq_error failed .both, outerJoin_eq_error failed .left,
      outerJoin_eq_error failed .right⟩
  · intro joined made
    have eq_lonely := outerJoin_eq_lonely leftReachable.wellFormed made
    refine ⟨eq_lonely .both, ?_, ?_⟩
    · rw [← List.append_nil (joined.tuples ++ left.lonelyLeftTuples right predicate)]
      exact eq_lonely .left
    · rw [← List.append_nil joined.tuples]
      exact eq_lonely .right

/-- Rows that repeat, as a projection may leave them. -/
def samples : Relation := ⟨"A", [.any "x"], [[.int 1], [.int 1], [.int 7], [.int 7]]⟩

/-- Marks to compare the samples with. -/
def marks : Relation := ⟨"B", [.any "y"], [[.int 1], [.str "z"]]⟩

theorem reachable_samples : samples.Reachable := by
  have numbered : Reachable ⟨"A", [.any "id", .any "x"],
      [[.int 1, .int 1], [.int 2, .int 1], [.int 3, .int 7], [.int 4, .int 7]]⟩ :=
    reachable_of_rows (by decide) (by decide) (by decide)
  exact .apply (.project ["x"]) trivial numbered (by rfl)

theorem reachable_marks : marks.Reachable :=
  reachable_of_rows (by decide) (by decide) (by decide)

theorem thetaJoin_samples_marks : samples.thetaJoin marks "A.x == B.y" =
    .ok ⟨"A x B where: A.x == B.y", [.any "A.x", .any "B.y"],
      [[.int 1, .int 1], [.int 1, .int 1]]⟩ := by
  have product : samples.product marks = .ok _ := product_eq_ok.mpr ⟨by decide, rfl⟩
  have readable : ∀ pair ∈ [("A.x", "B.y")],
      Condition.Readable pair.1 ∧ Condition.Readable pair.2 := by
    intro pair member
    rw [List.mem_singleton.mp member]
    exact ⟨⟨by decide, by decide⟩, ⟨by decide, by decide⟩⟩
  have parsed := Condition.parse_equalities readable
  rw [show Condition.equalitiesText [("A.x", "B.y")] = "A.x == B.y" by decide] at parsed
  exact thetaJoin_eq_ok.mpr ⟨_, product, select_eq_ok.mpr ⟨_, _, parsed, rfl, rfl⟩⟩

/-- Both equal samples match the first mark, and the two others come out twice without a match. -/
theorem outerJoins_samples_marks :
    samples.fullOuterJoin marks "A.x == B.y" =
        .ok ⟨"A full outer join B", [.any "A.x", .any "B.y"],
          [[.int 1, .int 1], [.int 1, .int 1],
            [.int 7, .null], [.int 7, .null], [.null, .str "z"]]⟩ ∧
      samples.leftOuterJoin marks "y" = .error (.unknownField "y" "A x B") := by
  have shape := reachable_samples.wellFormed
  have onLeft : samples.lonelyLeftTuples marks "A.x == B.y" =
      [[.int 7, .null], [.int 7, .null]] :=
    (unmatchedLeft_eq shape thetaJoin_samples_marks).symm.trans (by rfl)
  have onRight : samples.lonelyRightTuples marks "A.x == B.y" = [[.null, .str "z"]] :=
    (unmatchedRight_eq shape thetaJoin_samples_marks).symm.trans (by rfl)
  have both := ((outerJoins_keep_lonely reachable_samples _).2 _ thetaJoin_samples_marks).1
  rw [onLeft, onRight] at both
  have failed : samples.thetaJoin marks "y" = .error (.unknownField "y" "A x B") := by rfl
  exact ⟨both, ((outerJoins_keep_lonely reachable_samples "y").1 _ failed).2.1⟩

end TypedRelations.Relation
