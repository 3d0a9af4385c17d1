import TypedRelations.Proofs.NaturalJoin.Associativity
import TypedRelations.Proofs.OuterJoin

/-!
# Relations without repeated rows

Only an insertion and a union look for rows that are there already. The other operations repeat no
row as long as their operands do not, because the parts of a row they put together can be recovered.
There is one exception: a full outer join fills up rows from both sides with nulls, and two rows of
nulls without a match then become the same row (`outerJoin_duplicateFree_iff`).
-/

namespace TypedRelations.Relation

variable {relation left right joined result : Relation} {predicate : String}

/-- No two of the tuples are equal. -/
def Apart (tuples : List Tuple) : Prop :=
  tuples.Pairwise fun first second => (first == second) = false

/-- No row of the relation is repeated. -/
def DuplicateFree (relation : Relation) : Prop := Apart relation.tuples

theorem Apart.filter {tuples : List Tuple} (apart : Apart tuples) (keep : Tuple → Bool) :
    Apart (tuples.filter keep) :=
  List.Pairwise.filter keep apart

/-- Tuples stay apart in an image from which they can be recovered. -/
theorem Apart.map {tuples : List Tuple} (apart : Apart tuples) {image : Tuple → Tuple}
    (recovers : ∀ first ∈ tuples, ∀ second ∈ tuples, (image first == image second) = true →
      (first == second) = true) : Apart (tuples.map image) := by
  refine List.pairwise_map.mpr (List.Pairwise.imp_of_mem ?_ apart)
  intro first second inFirst inSecond differ
  rw [Bool.eq_false_iff]
  intro same
  rw [recovers first inFirst second inSecond same] at differ
  nomatch differ

theorem apart_append {first second : List Tuple} (firstApart : Apart first)
    (secondApart : Apart second)
    (across : ∀ tuple ∈ first, ∀ other ∈ second, (tuple == other) = false) :
    Apart (first ++ second) :=
  List.pairwise_append.mpr ⟨firstApart, secondApart, across⟩

/-- Combinations of tuples that are apart are apart, if both parts of a combination can be
recovered from it. -/
theorem apart_combinations {lefts rights : List Tuple} {keep : Tuple → Tuple → Bool}
    {beside : Tuple → Tuple → Tuple} (leftApart : Apart lefts) (rightApart : Apart rights)
    (recovers : ∀ first ∈ lefts, ∀ second ∈ rights, ∀ otherFirst ∈ lefts, ∀ otherSecond ∈ rights,
      keep first second = true → keep otherFirst otherSecond = true →
      (beside first second == beside otherFirst otherSecond) = true →
      (first == otherFirst) = true ∧ (second == otherSecond) = true) :
    Apart (lefts.flatMap fun first => (rights.filter (keep first)).map (beside first)) := by
  refine List.pairwise_flatMap.mpr ⟨fun first inLefts => ?_, ?_⟩
  · refine (rightApart.filter (keep first)).map fun second inSecond other inOther same => ?_
    obtain ⟨listed, kept⟩ := List.mem_filter.mp inSecond
    obtain ⟨otherListed, otherKept⟩ := List.mem_filter.mp inOther
    exact (recovers first inLefts second listed first inLefts other otherListed kept otherKept
      same).2
  · refine List.Pairwise.imp_of_mem ?_ leftApart
    intro first otherFirst inFirst inOther differ tuple member other otherMember
    obtain ⟨second, inSecond, rfl⟩ := List.mem_map.mp member
    obtain ⟨otherSecond, inOtherSecond, rfl⟩ := List.mem_map.mp otherMember
    obtain ⟨listed, kept⟩ := List.mem_filter.mp inSecond
    obtain ⟨otherListed, otherKept⟩ := List.mem_filter.mp inOtherSecond
    rw [Bool.eq_false_iff]
    intro same
    rw [(recovers first inFirst second listed otherFirst inOther otherSecond otherListed kept
      otherKept same).1] at differ
    nomatch differ

/-- The operation keeps all columns of every row that it keeps. -/
def Operation.KeepsColumns : Operation → Prop
  | .project _ => False
  | _ => True

theorem DuplicateFree.insert (free : relation.DuplicateFree) {entries : List (String × Value)}
    (made : relation.insert entries = .ok result) : result.DuplicateFree := by
  obtain ⟨-, -, fresh, rfl⟩ := insert_eq_ok.mp made
  refine apart_append free (List.pairwise_singleton _ _) fun tuple stored other added => ?_
  rw [List.mem_singleton.mp added, Bool.eq_false_iff]
  intro same
  have present : relation.tuples.contains (relation.tupleOf entries) = true :=
    List.contains_iff_exists_mem_beq.mpr ⟨tuple, stored, BEq.symm same⟩
  rw [present] at fresh
  nomatch fresh

theorem DuplicateFree.select (free : relation.DuplicateFree)
    (made : relation.select predicate = .ok result) : result.DuplicateFree := by
  obtain ⟨condition, tuples, -, kept, rfl⟩ := select_eq_ok.mp made
  obtain ⟨-, rfl⟩ := keepWhere_eq_ok.mp kept
  exact Apart.filter free _

theorem DuplicateFree.apply (free : relation.DuplicateFree) {operation : Operation}
    (keepsColumns : operation.KeepsColumns) (made : operation.apply relation = .ok result) :
    result.DuplicateFree := by
  cases operation with
  | insert entries => exact free.insert made
  | insertFlat arguments =>
      obtain ⟨entries, inserted⟩ := exists_insert_of_insertFlat made
      exact free.insert inserted
  | copy =>
      rw [← Except.ok.inj made]
      exact free
  | renamed name =>
      rw [← Except.ok.inj made]
      exact free
  | qualified qualifier =>
      rw [← Except.ok.inj made]
      exact free
  | unqualified qualifier =>
      rw [(ofTuples_eq_ok_iff.mp made).2]
      exact free
  | select predicate => exact free.select made
  | project names => exact keepsColumns.elim

theorem DuplicateFree.product (leftShape : left.WellFormed) (leftFree : left.DuplicateFree)
    (rightFree : right.DuplicateFree) (made : left.product right = .ok result) :
    result.DuplicateFree := by
  rw [(product_eq_ok.mp made).2]
  have every : left.productTuples right =
      left.tuples.flatMap fun first => (right.tuples.filter fun _ => true).map (first ++ ·) := by
    simp only [productTuples, List.filter_true]
  change Apart (left.productTuples right)
  rw [every]
  refine apart_combinations leftFree rightFree ?_
  intro first inLeft second _ otherFirst otherInLeft otherSecond _ _ _ same
  have widths := (leftShape.length_eq inLeft).trans (leftShape.length_eq otherInLeft).symm
  rwa [append_beq_append widths, Bool.and_eq_true] at same

theorem DuplicateFree.thetaJoin (leftShape : left.WellFormed) (leftFree : left.DuplicateFree)
    (rightFree : right.DuplicateFree) (made : left.thetaJoin right predicate = .ok result) :
    result.DuplicateFree := by
  obtain ⟨combined, product, selected⟩ := thetaJoin_eq_ok.mp made
  exact (leftFree.product leftShape rightFree product).select selected

theorem mem_of_position {name : String} {position : Nat}
    (found : relation.position name = .ok position) : name ∈ relation.schema.names := by
  by_contra absent
  rw [Relation.position, Schema.position?_eq_none_iff.mpr absent] at found
  cases found

/-- The columns to drop are found only if all paired names are those of fields. -/
theorem pairs_of_droppedColumns {pairs : List (String × String)} {dropped : List Nat}
    (resolved : left.droppedColumns right pairs = .ok dropped) : left.Pairs right pairs := by
  intro pair member
  obtain ⟨column, -, step⟩ := exists_left_of_forall₂ (mapM_eq_ok.mp resolved).flip member
  obtain ⟨leftPosition, leftFound, later⟩ := bind_eq_ok.mp step
  obtain ⟨rightPosition, rightFound, -⟩ := bind_eq_ok.mp later
  exact ⟨mem_of_position leftFound, mem_of_position rightFound⟩

/-- What a natural join drops of a right row can be recovered from the left row. -/
theorem second_eq_of_agrees {pairs : List (String × String)} (rightShape : right.WellFormed)
    {first second otherFirst otherSecond : Tuple}
    (secondWidth : second.length = right.schema.length)
    (otherWidth : otherSecond.length = right.schema.length)
    (agrees : left.agrees right pairs first second = true)
    (otherAgrees : left.agrees right pairs otherFirst otherSecond = true)
    (sameFirst : (first == otherFirst) = true)
    (sameRest : (right.unpairedValues pairs second == right.unpairedValues pairs otherSecond)
      = true) :
    (second == otherSecond) = true := by
  have distinct := rightShape.names_nodup
  refine beq_of_forall₂
    (forall₂_of_kept secondWidth otherWidth (forall₂_of_beq sameRest) fun position field listed
      isPaired => ?_)
  rw [unpaired, Bool.not_eq_false', List.contains_iff_mem] at isPaired
  obtain ⟨pair, inPairs, named⟩ := List.mem_map.mp isPaired
  have here := List.all_eq_true.mp agrees pair inPairs
  have there := List.all_eq_true.mp otherAgrees pair inPairs
  have at_position : right.schema.names[position]? = some field.name := by
    rw [Schema.getElem?_names, listed, Option.map_some]
  rw [named, get?_eq_getElem? distinct at_position] at here there
  have middle := get?_congr left sameFirst pair.1
  exact option_beq_iff.mp
    (PartialEquivBEq.trans (PartialEquivBEq.trans (BEq.symm here) middle) there)

theorem DuplicateFree.naturalJoin (leftShape : left.WellFormed) (rightShape : right.WellFormed)
    (leftQuotable : left.Quotable) (rightQuotable : right.Quotable)
    (leftFree : left.DuplicateFree) (rightFree : right.DuplicateFree)
    {pairs? : Option (List (String × String))}
    (made : left.naturalJoin right pairs? = .ok result) : result.DuplicateFree := by
  obtain ⟨combined, product⟩ := exists_product_of_naturalJoin made
  obtain ⟨dropped, -, resolved, -, -⟩ := naturalJoin_eq_ok.mp made
  rw [naturalJoin_eq leftShape rightShape leftQuotable rightQuotable product pairs?
    (pairs_of_droppedColumns resolved)] at made
  rw [(ofTuples_eq_ok_iff.mp made).2]
  refine apart_combinations leftFree rightFree ?_
  intro first inLeft second inRight otherFirst otherInLeft otherSecond otherInRight agrees
    otherAgrees same
  have widths := (leftShape.length_eq inLeft).trans (leftShape.length_eq otherInLeft).symm
  rw [append_beq_append widths, Bool.and_eq_true] at same
  exact ⟨same.1, second_eq_of_agrees rightShape (rightShape.length_eq inRight)
    (rightShape.length_eq otherInRight) agrees otherAgrees same.1 same.2⟩

/-! ## Outer joins -/

/-- Either relation has a row of nulls that matches no row of the other one. -/
def LonelyNulls (left right : Relation) (predicate : String) : Prop :=
  (∃ first ∈ left.tuples, (∀ value ∈ first, value = .null) ∧
    ∀ second ∈ right.tuples, left.holdsOn right predicate first second ≠ .ok true) ∧
  ∃ second ∈ right.tuples, (∀ value ∈ second, value = .null) ∧
    ∀ first ∈ left.tuples, left.holdsOn right predicate first second ≠ .ok true

theorem beq_nulls_iff {tuple : Tuple} :
    (tuple == Tuple.nulls tuple.length) = true ↔ ∀ value ∈ tuple, value = .null := by
  induction tuple with
  | nil => simp [Tuple.nulls]
  | cons value rest ih =>
      have isNull : (value == .null) = true ↔ value = .null := by
        cases value with
        | null => simp
        | _ => exact ⟨fun same => (nomatch same), fun same => (nomatch same)⟩
      rw [List.forall_mem_cons, ← ih, ← isNull, ← Bool.and_eq_true]
      rfl

theorem isFalseOn_iff {first second : Tuple}
    (total : ∃ holds, left.holdsOn right predicate first second = .ok holds) :
    left.isFalseOn right predicate first second = true ↔
      left.holdsOn right predicate first second ≠ .ok true := by
  obtain ⟨holds, onPair⟩ := total
  rw [isFalseOn_eq_not onPair, onPair]
  cases holds with
  | true => simp
  | false => simp

/-- The left rows that come out with nulls are those that match no right row. -/
theorem mem_unmatchedLeft (leftShape : left.WellFormed)
    (made : left.thetaJoin right predicate = .ok joined) {tuple : Tuple} :
    tuple ∈ unmatchedLeft joined.tuples left.schema.length right.schema.length left.tuples ↔
      ∃ first ∈ left.tuples, (∀ second ∈ right.tuples,
        left.holdsOn right predicate first second ≠ .ok true) ∧
        first ++ Tuple.nulls right.schema.length = tuple := by
  have total := (thetaJoin_holdsOn made).1
  have alone : ∀ first ∈ left.tuples,
      ((!joined.tuples.any fun combination => combination.take left.schema.length == first) = true ↔
        ∀ second ∈ right.tuples, left.holdsOn right predicate first second ≠ .ok true) := by
    intro first inLeft
    rw [begins_joined_eq leftShape made inLeft, List.all_eq_true]
    exact forall₂_congr fun second inRight => isFalseOn_iff (total first inLeft second inRight)
  simp only [unmatchedLeft, List.mem_map, List.mem_filter, and_assoc]
  exact exists_congr fun first => and_congr_right fun inLeft =>
    and_congr_left' (alone first inLeft)

theorem mem_unmatchedRight (leftShape : left.WellFormed)
    (made : left.thetaJoin right predicate = .ok joined) {tuple : Tuple} :
    tuple ∈ unmatchedRight joined.tuples left.schema.length right.tuples ↔
      ∃ second ∈ right.tuples, (∀ first ∈ left.tuples,
        left.holdsOn right predicate first second ≠ .ok true) ∧
        Tuple.nulls left.schema.length ++ second = tuple := by
  have total := (thetaJoin_holdsOn made).1
  have alone : ∀ second ∈ right.tuples,
      ((!joined.tuples.any fun combination => combination.drop left.schema.length == second)
          = true ↔
        ∀ first ∈ left.tuples, left.holdsOn right predicate first second ≠ .ok true) := by
    intro second inRight
    rw [ends_joined_eq leftShape made inRight, List.all_eq_true]
    exact forall₂_congr fun first inLeft => isFalseOn_iff (total first inLeft second inRight)
  simp only [unmatchedRight, List.mem_map, List.mem_filter, and_assoc]
  exact exists_congr fun second => and_congr_right fun inRight =>
    and_congr_left' (alone second inRight)

theorem apart_unmatchedLeft (leftShape : left.WellFormed) (leftFree : left.DuplicateFree)
    (combinations : List Tuple) (otherWidth : Nat) :
    Apart (unmatchedLeft combinations left.schema.length otherWidth left.tuples) := by
  refine (Apart.filter leftFree _).map fun first inFirst second inSecond same => ?_
  have widths := (leftShape.length_eq (List.mem_of_mem_filter inFirst)).trans
    (leftShape.length_eq (List.mem_of_mem_filter inSecond)).symm
  rw [append_beq_append widths, Bool.and_eq_true] at same
  exact same.1

theorem apart_unmatchedRight (rightFree : right.DuplicateFree) (combinations : List Tuple)
    (otherWidth : Nat) : Apart (unmatchedRight combinations otherWidth right.tuples) := by
  refine (Apart.filter rightFree _).map fun first _ second _ same => ?_
  rw [append_beq_append rfl, Bool.and_eq_true] at same
  exact same.2

/-- No combination is equal to a row that begins none, whatever this row is filled up with. -/
theorem beq_unmatchedLeft (leftShape : left.WellFormed) {combinations : List Tuple}
    {otherWidth : Nat} {tuple padded : Tuple} (combined : tuple ∈ combinations)
    (member : padded ∈
      unmatchedLeft combinations left.schema.length otherWidth left.tuples) :
    (tuple == padded) = false := by
  obtain ⟨first, unmatched, rfl⟩ := List.mem_map.mp member
  obtain ⟨inLeft, alone⟩ := List.mem_filter.mp unmatched
  rw [Bool.eq_false_iff]
  intro same
  have begins := beq_of_forall₂ (List.forall₂_take left.schema.length (forall₂_of_beq same))
  rw [← leftShape.length_eq inLeft, List.take_left, leftShape.length_eq inLeft] at begins
  rw [Bool.not_eq_true', List.any_eq_false] at alone
  exact alone tuple combined begins

theorem beq_unmatchedRight {combinations : List Tuple} {otherWidth : Nat} {tuple padded : Tuple}
    (combined : tuple ∈ combinations)
    (member : padded ∈ unmatchedRight combinations otherWidth right.tuples) :
    (tuple == padded) = false := by
  obtain ⟨second, unmatched, rfl⟩ := List.mem_map.mp member
  rw [Bool.eq_false_iff]
  intro same
  have ends := beq_of_forall₂ (List.forall₂_drop otherWidth (forall₂_of_beq same))
  rw [List.drop_left' (Tuple.length_nulls otherWidth)] at ends
  have alone := (List.mem_filter.mp unmatched).2
  rw [Bool.not_eq_true', List.any_eq_false] at alone
  exact alone tuple combined ends

/-- Rows from the two sides become the same row exactly if both hold nothing but nulls. -/
theorem padded_beq_padded {first second : Tuple} (firstWidth : first.length = left.schema.length)
    (secondWidth : second.length = right.schema.length) :
    (first ++ Tuple.nulls right.schema.length == Tuple.nulls left.schema.length ++ second) = true ↔
      (∀ value ∈ first, value = .null) ∧ ∀ value ∈ second, value = .null := by
  have widths : first.length = (Tuple.nulls left.schema.length).length := by
    rw [firstWidth, Tuple.length_nulls]
  rw [append_beq_append widths, Bool.and_eq_true, ← firstWidth, ← secondWidth, beq_nulls_iff,
    BEq.comm, beq_nulls_iff]

/-- An outer join repeats a row exactly if it keeps the rows of both sides and either side has a row
of nulls without a match. -/
theorem outerJoin_duplicateFree_iff (leftShape : left.WellFormed) (rightShape : right.WellFormed)
    (leftFree : left.DuplicateFree) (rightFree : right.DuplicateFree) {side : Side}
    (made : left.outerJoin right predicate side = .ok result) :
    result.DuplicateFree ↔ ¬ (side = .both ∧ left.LonelyNulls right predicate) := by
  obtain ⟨joined, theta, rfl⟩ := outerJoin_eq_ok.mp made
  have joinedFree := leftFree.thetaJoin leftShape rightFree theta
  have begun : Apart (joined.tuples ++
      unmatchedLeft joined.tuples left.schema.length right.schema.length left.tuples) :=
    apart_append joinedFree (apart_unmatchedLeft leftShape leftFree _ _)
      fun _ combined _ member => beq_unmatchedLeft leftShape combined member
  have ended := apart_unmatchedRight rightFree joined.tuples left.schema.length
  cases side with
  | left =>
      refine iff_of_true ?_ (fun both => nomatch both.1)
      change Apart (_ ++ _ ++ [])
      rw [List.append_nil]
      exact begun
  | right =>
      refine iff_of_true ?_ (fun both => nomatch both.1)
      change Apart (_ ++ [] ++ _)
      rw [List.append_nil]
      exact apart_append joinedFree ended fun _ combined _ member =>
        beq_unmatchedRight combined member
  | both =>
      change Apart (_ ++ _ ++ _) ↔ _
      constructor
      · rintro free ⟨-, ⟨first, inLeft, firstNulls, firstAlone⟩, second, inRight, secondNulls,
          secondAlone⟩
        have fromLeft := (mem_unmatchedLeft leftShape theta).mpr ⟨first, inLeft, firstAlone, rfl⟩
        have fromRight :=
          (mem_unmatchedRight leftShape theta).mpr ⟨second, inRight, secondAlone, rfl⟩
        have differ := (List.pairwise_append.mp free).2.2 _ (List.mem_append_right _ fromLeft) _
          fromRight
        rw [(padded_beq_padded (leftShape.length_eq inLeft) (rightShape.length_eq inRight)).mpr
          ⟨firstNulls, secondNulls⟩] at differ
        nomatch differ
      · intro notBoth
        refine apart_append begun ended fun tuple member other fromRight => ?_
        rcases List.mem_append.mp member with combined | fromLeft
        · exact beq_unmatchedRight combined fromRight
        · obtain ⟨first, inLeft, firstAlone, rfl⟩ :=
            (mem_unmatchedLeft leftShape theta).mp fromLeft
          obtain ⟨second, inRight, secondAlone, rfl⟩ :=
            (mem_unmatchedRight leftShape theta).mp fromRight
          rw [Bool.eq_false_iff]
          intro same
          obtain ⟨firstNulls, secondNulls⟩ := (padded_beq_padded (leftShape.length_eq inLeft)
            (rightShape.length_eq inRight)).mp same
          exact notBoth ⟨rfl, ⟨first, inLeft, firstNulls, firstAlone⟩, second, inRight,
            secondNulls, secondAlone⟩

/-! ## All operations -/

/-- The calls that make a relation and fill it with rows. -/
def Repertoire.insertions : Repertoire where
  creates _ _ := True
  applies
    | .insert _ | .insertFlat _ => True
    | _ => False
  combines _ := False

/-- Under what circumstances a combination keeps duplicates out that its operands do not have. The
set operations project, so they are not among these combinations. -/
def Combination.KeepsRowsApart (left right : Relation) : Combination → Prop
  | .product | .thetaJoin _ | .equiJoin _ _ | .leftOuterJoin _ | .rightOuterJoin _ => True
  | .naturalJoin _ => left.Quotable ∧ right.Quotable
  | .fullOuterJoin predicate => ¬ left.LonelyNulls right predicate
  | .union _ | .inter _ | .diff _ => False

theorem DuplicateFree.combine (leftShape : left.WellFormed) (rightShape : right.WellFormed)
    (leftFree : left.DuplicateFree) (rightFree : right.DuplicateFree) {combination : Combination}
    (keeps : combination.KeepsRowsApart left right)
    (made : combination.apply left right = .ok result) : result.DuplicateFree := by
  cases combination with
  | product => exact leftFree.product leftShape rightFree made
  | thetaJoin predicate => exact leftFree.thetaJoin leftShape rightFree made
  | equiJoin leftField rightField =>
      exact leftFree.thetaJoin leftShape rightFree (equiJoin_eq_ok made)
  | naturalJoin pairs? =>
      exact leftFree.naturalJoin leftShape rightShape keeps.1 keeps.2 rightFree made
  | fullOuterJoin predicate =>
      exact (outerJoin_duplicateFree_iff leftShape rightShape leftFree rightFree made).mpr
        fun both => keeps both.2
  | leftOuterJoin predicate =>
      exact (outerJoin_duplicateFree_iff leftShape rightShape leftFree rightFree made).mpr
        fun both => nomatch both.1
  | rightOuterJoin predicate =>
      exact (outerJoin_duplicateFree_iff leftShape rightShape leftFree rightFree made).mpr
        fun both => nomatch both.1
  | union mapping => exact keeps.elim
  | inter mapping => exact keeps.elim
  | diff mapping => exact keeps.elim

theorem Derived.duplicateFree (derived : Derived .insertions relation) :
    relation.DuplicateFree := by
  induction derived with
  | create _ made =>
      rw [(ofTuples_eq_ok_iff.mp made).2]
      exact List.Pairwise.nil
  | apply operation allowed _ made ih =>
      cases operation with
      | insert entries => exact ih.insert made
      | insertFlat arguments =>
          obtain ⟨entries, inserted⟩ := exists_insert_of_insertFlat made
          exact ih.insert inserted
      | _ => exact allowed.elim
  | combine _ allowed => exact allowed.elim

/-- What can be created and filled is what has different names, null or an accepted value in every
field, and no duplicates. -/
theorem derived_insertions_iff :
    Derived .insertions relation ↔ relation.Conforms Storable ∧ relation.DuplicateFree := by
  constructor
  · intro derived
    have preserves : ∀ combination, Repertoire.insertions.combines combination →
        combination.Preserves Storable := fun _ allowed => allowed.elim
    exact ⟨derived.conforms storageLaws_storable preserves, derived.duplicateFree⟩
  · rintro ⟨conforms, free⟩
    exact .filled trivial (fun _ _ => trivial) conforms.names_nodup conforms.admits free

theorem duplicateFree_of_union {mapping : List (String × String)}
    (made : left.union right mapping = .ok result) : result.DuplicateFree := by
  obtain ⟨fields, schema, -, -, rebuilt⟩ := setOperation_eq_ok.mp made
  rw [(ofTuples_eq_ok_iff.mp rebuilt).2]
  exact (OrderedSet.ofList _).distinct

/-- What is created and filled by insertions has no duplicates. Operations that keep all columns,
products and joins bring none in: a natural join not on names that can be quoted, and an outer join
not unless it keeps the rows of both sides and either side has a row of nulls without a match, in
which case it does. A union has none whatever its operands have. -/
theorem duplicateFree_calls (leftReachable : left.Reachable) (rightReachable : right.Reachable)
    (leftFree : left.DuplicateFree) (rightFree : right.DuplicateFree) :
    (∀ built, Derived .insertions built → built.DuplicateFree) ∧
    (∀ (operation : Operation) (result : Relation), operation.KeepsColumns →
      operation.apply left = .ok result → result.DuplicateFree) ∧
    (∀ (combination : Combination) (result : Relation), combination.KeepsRowsApart left right →
      combination.apply left right = .ok result → result.DuplicateFree) ∧
    (∀ (predicate : String) (result : Relation), left.fullOuterJoin right predicate = .ok result →
      (result.DuplicateFree ↔ ¬ left.LonelyNulls right predicate)) ∧
    ∀ (first second result : Relation) (mapping : List (String × String)),
      first.union second mapping = .ok result → result.DuplicateFree := by
  have leftShape := leftReachable.wellFormed
  have rightShape := rightReachable.wellFormed
  refine ⟨fun _ => Derived.duplicateFree, fun _ _ => leftFree.apply,
    fun _ _ => leftFree.combine leftShape rightShape rightFree, ?_,
    fun _ _ _ _ => duplicateFree_of_union⟩
  intro predicate result made
  rw [outerJoin_duplicateFree_iff leftShape rightShape leftFree rightFree made]
  exact not_congr (and_iff_right rfl)

/-- A visitor without a name beside one that has a name. -/
def visitors : Relation := ⟨"A", [.any "x"], [[.null], [.str "Ada"]]⟩

/-- A host without a name. -/
def hosts : Relation := ⟨"B", [.any "y"], [[.null]]⟩

theorem derived_hosts : Derived .insertions hosts :=
  .filled trivial (fun _ _ => trivial) (by decide) (by decide) (by decide)

theorem derived_visitors : Derived .insertions visitors :=
  .filled trivial (fun _ _ => trivial) (by decide) (by decide) (by decide)

theorem parse_visitorsBeforeHosts : Condition.parse "A.x < B.y" =
    .ok ⟨"A.x < B.y", .compare (.field "A.x") (.relator .lt) (.field "B.y")⟩ := by
  have scanned : Condition.Lexeme.ofText "A.x < B.y" =
      .ok [⟨.name "A.x", "A.x".toList, 0⟩, ⟨.relator .lt, "<".toList, 4⟩,
        ⟨.name "B.y", "B.y".toList, 6⟩] := by
    rfl
  exact Condition.parse_eq_ok scanned (by rfl)

/-- Nulls are in no order, so the visitor and the host without a name both stay alone and come out
as the same row. The product of the two relations has no duplicates. -/
theorem duplicateFree_visitors_hosts :
    (∃ result, visitors.fullOuterJoin hosts "A.x < B.y" = .ok result ∧
      result.tuples = [[.null, .null], [.str "Ada", .null], [.null, .null]] ∧
      ¬ result.DuplicateFree) ∧
    ∃ result, visitors.product hosts = .ok result ∧ result.DuplicateFree := by
  have joined : visitors.thetaJoin hosts "A.x < B.y" =
      .ok ⟨"A x B where: A.x < B.y", [.any "A.x", .any "B.y"], []⟩ :=
    thetaJoin_eq_ok.mpr ⟨_, product_eq_ok.mpr ⟨by decide, rfl⟩,
      select_eq_ok.mpr ⟨_, _, parse_visitorsBeforeHosts, rfl, rfl⟩⟩
  have made : visitors.fullOuterJoin hosts "A.x < B.y" =
      .ok ⟨"A full outer join B", [.any "A.x", .any "B.y"],
        [[.null, .null], [.str "Ada", .null], [.null, .null]]⟩ :=
    outerJoin_eq_ok.mpr ⟨_, joined, by rfl⟩
  have onPair : ∀ first ∈ visitors.tuples, ∀ second ∈ hosts.tuples,
      visitors.holdsOn hosts "A.x < B.y" first second ≠ .ok true := by
    intro first inVisitors second inHosts
    rw [List.mem_singleton.mp inHosts, holdsOn, parse_visitorsBeforeHosts]
    rcases List.mem_cons.mp inVisitors with rfl | named
    · exact fun holds => Bool.false_ne_true (Except.ok.inj holds)
    · rw [List.mem_singleton.mp named]
      exact fun holds => Bool.false_ne_true (Except.ok.inj holds)
  have lonely : visitors.LonelyNulls hosts "A.x < B.y" :=
    ⟨⟨[.null], List.mem_cons_self, by simp, onPair _ List.mem_cons_self⟩,
      [.null], List.mem_cons_self, by simp, fun first inVisitors =>
        onPair first inVisitors _ List.mem_cons_self⟩
  obtain ⟨built, -, combined, outer, -⟩ := duplicateFree_calls derived_visitors.reachable
    derived_hosts.reachable derived_visitors.duplicateFree derived_hosts.duplicateFree
  have product : visitors.product hosts = .ok _ := product_eq_ok.mpr ⟨by decide, rfl⟩
  exact ⟨⟨_, made, rfl, fun free => (outer _ _ made).mp free lonely⟩, _, product,
    combined .product _ trivial product⟩

end TypedRelations.Relation
