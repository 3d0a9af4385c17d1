import TypedRelations.Proofs.Condition.Equalities
import TypedRelations.Proofs.Insertion.Filling
import TypedRelations.Proofs.Product

/-!
# What a natural join is

A natural join qualifies all names, writes a condition on them, selects by it, drops the columns at
computed positions and takes the qualifiers off again. Here it gets a definition without names that
are put together and taken apart, and `naturalJoin_eq` says that the detour ends there, for
relations whose names can be written between back quotes.
-/

namespace TypedRelations.Relation

open Condition (Readable backQuote)

variable {relation left right combined result : Relation} {pairs : List (String × String)}

/-- The relation and its fields have names without back quotes. -/
structure Quotable (relation : Relation) : Prop where
  name : backQuote ∉ relation.name.toList
  fields : ∀ name ∈ relation.schema.names, backQuote ∉ name.toList

/-- Two rows have equal values under each pair of names. -/
def agrees (left right : Relation) (pairs : List (String × String)) (first second : Tuple) :
    Bool :=
  pairs.all fun pair => (left.row first).get? pair.1 == (right.row second).get? pair.2

/-- The field is the right field of no pair. -/
def unpaired (pairs : List (String × String)) (field : Field) : Bool :=
  !(pairs.map Prod.snd).contains field.name

/-- The values of a tuple without those of the paired fields. -/
def unpairedValues (relation : Relation) (pairs : List (String × String)) (tuple : Tuple) : Tuple :=
  ((relation.schema.zip tuple).filter fun column => unpaired pairs column.1).map Prod.snd

/-- A field of the right relation, qualified if the left relation has a field of its name. -/
def apart (left right : Relation) (field : Field) : Field :=
  if left.schema.names.contains field.name then
    { field with name := qualify right.name field.name }
  else field

/-- The fields of the left relation, then the unpaired ones of the right relation. -/
def joinSchema (left right : Relation) (pairs : List (String × String)) : Schema :=
  left.schema ++ (right.schema.filter (unpaired pairs)).map (left.apart right)

/-- The rows that agree on all pairs, side by side: every left tuple with the right tuples that it
agrees with, in their order, and without the paired values of the right one. -/
def joinTuples (left right : Relation) (pairs : List (String × String)) : List Tuple :=
  left.tuples.flatMap fun first =>
    (right.tuples.filter (left.agrees right pairs first)).map fun second =>
      first ++ right.unpairedValues pairs second

/-- All names in a list of pairs are those of fields, left and right. -/
def Pairs (left right : Relation) (pairs : List (String × String)) : Prop :=
  ∀ pair ∈ pairs, pair.1 ∈ left.schema.names ∧ pair.2 ∈ right.schema.names

theorem pairs_sharedPairs (left right : Relation) : left.Pairs right (left.sharedPairs right) := by
  intro pair member
  rcases List.mem_map.mp member with ⟨name, shared, rfl⟩
  rcases List.mem_filter.mp shared with ⟨inLeft, inRight⟩
  exact ⟨inLeft, List.contains_iff_mem.mp inRight⟩

/-- A pair of names with the qualifiers that they have in the product. -/
def qualifiedPair (left right : Relation) (pair : String × String) : String × String :=
  (qualify left.name pair.1, qualify right.name pair.2)

theorem readable_qualify {qualifier name : String} (qualifierClean : backQuote ∉ qualifier.toList)
    (nameClean : backQuote ∉ name.toList) : Readable (qualify qualifier name) := by
  have written : (qualify qualifier name).toList = qualifier.toList ++ '.' :: name.toList := by
    simp [qualify, String.toList_append]
  constructor
  · intro empty
    rw [empty] at written
    simp at written
  · rw [written, List.mem_append, List.mem_cons]
    intro present
    rcases present with inQualifier | dot | inName
    · exact qualifierClean inQualifier
    · exact absurd dot (by decide)
    · exact nameClean inName

theorem readable_qualifiedPair (leftQuotable : left.Quotable) (rightQuotable : right.Quotable)
    (known : left.Pairs right pairs) :
    ∀ pair ∈ pairs.map (left.qualifiedPair right), Readable pair.1 ∧ Readable pair.2 := by
  intro pair member
  rcases List.mem_map.mp member with ⟨plain, inPairs, rfl⟩
  rcases known plain inPairs with ⟨inLeft, inRight⟩
  exact ⟨readable_qualify leftQuotable.name (leftQuotable.fields _ inLeft),
    readable_qualify rightQuotable.name (rightQuotable.fields _ inRight)⟩

/-- A row of the product has the two values of a pair. -/
theorem exists_pairedValues (distinct : (left.productSchema right).names.Nodup)
    {first second : Tuple} (firstWidth : first.length = left.schema.length)
    (secondWidth : second.length = right.schema.length) (source : String)
    {pair : String × String} (inLeft : pair.1 ∈ left.schema.names)
    (inRight : pair.2 ∈ right.schema.names) :
    ∃ leftValue rightValue,
      (Row.mk source (left.productSchema right) (first ++ second)).get?
          (left.qualifiedPair right pair).1 = some leftValue ∧
        (Row.mk source (left.productSchema right) (first ++ second)).get?
          (left.qualifiedPair right pair).2 = some rightValue ∧
        (left.row first).get? pair.1 = some leftValue ∧
        (right.row second).get? pair.2 = some rightValue := by
  rcases exists_get? firstWidth inLeft with ⟨leftValue, leftFound⟩
  rcases exists_get? secondWidth inRight with ⟨rightValue, rightFound⟩
  refine ⟨leftValue, rightValue, ?_, ?_, leftFound, rightFound⟩
  · exact (get?_productSchema_left second firstWidth inLeft).trans leftFound
  · exact (get?_productSchema_right distinct second firstWidth inRight).trans rightFound

/-- The generated condition holds in a row of the product if its two parts agree. -/
theorem evaluate_agrees (distinct : (left.productSchema right).names.Nodup)
    {pair : String × String} (known : left.Pairs right (pair :: pairs)) {first second : Tuple}
    (firstWidth : first.length = left.schema.length)
    (secondWidth : second.length = right.schema.length) (name source : String) :
    Condition.evaluate
        ⟨source, Condition.equalities (Condition.equality (left.qualifiedPair right pair))
          (pairs.map (left.qualifiedPair right))⟩
        (Row.mk name (left.productSchema right) (first ++ second)).scope =
      .ok (left.agrees right (pair :: pairs) first second) := by
  let row := Row.mk name (left.productSchema right) (first ++ second)
  let value word := (row.get? word).getD .null
  have lookups : ∀ qualified ∈ (pair :: pairs).map (left.qualifiedPair right),
      row.scope.lookup qualified.1 = some (value qualified.1) ∧
        row.scope.lookup qualified.2 = some (value qualified.2) := by
    intro qualified member
    rcases List.mem_map.mp member with ⟨plain, inPairs, rfl⟩
    rcases known plain inPairs with ⟨inLeft, inRight⟩
    rcases exists_pairedValues distinct firstWidth secondWidth name inLeft inRight with
      ⟨leftValue, rightValue, atLeft, atRight, -, -⟩
    simp only [value, row, Row.scope, atLeft, atRight, Option.getD_some, and_self]
  refine (Condition.evaluate_equalities lookups).trans (congrArg Except.ok ?_)
  rw [← List.map_cons, List.all_map, agrees, Bool.eq_iff_iff, List.all_eq_true, List.all_eq_true]
  apply forall₂_congr
  intro plain inPairs
  rcases known plain inPairs with ⟨inLeft, inRight⟩
  rcases exists_pairedValues distinct firstWidth secondWidth name inLeft inRight with
    ⟨leftValue, rightValue, atLeft, atRight, leftFound, rightFound⟩
  simp only [Function.comp_apply, value, row, atLeft, atRight, leftFound, rightFound,
    Option.getD_some, Option.some_beq_some]

/-- The rows that a join on pairs combines, with all their values. -/
def pairedTuples (left right : Relation) (pairs : List (String × String)) : List Tuple :=
  left.tuples.flatMap fun first =>
    (right.tuples.filter (left.agrees right pairs first)).map fun second => first ++ second

theorem keepWhere_agrees (leftShape : left.WellFormed) (rightShape : right.WellFormed)
    (distinct : (left.productSchema right).names.Nodup) {pair : String × String}
    (known : left.Pairs right (pair :: pairs)) (name source : String) :
    keepWhere
        (fun tuple => Condition.evaluate
          ⟨source, Condition.equalities (Condition.equality (left.qualifiedPair right pair))
            (pairs.map (left.qualifiedPair right))⟩
          (Row.mk name (left.productSchema right) tuple).scope)
        (left.productTuples right) =
      .ok (left.pairedTuples right (pair :: pairs)) := by
  have evaluated : ∀ first ∈ left.tuples, ∀ second ∈ right.tuples, _ :=
    fun first inLeft second inRight => evaluate_agrees distinct known
      (leftShape.length_eq inLeft) (rightShape.length_eq inRight) name source
  rw [keepWhere_eq_ok]
  constructor
  · intro tuple member
    rcases List.mem_flatMap.mp member with ⟨first, inLeft, combinations⟩
    rcases List.mem_map.mp combinations with ⟨second, inRight, rfl⟩
    exact ⟨_, evaluated first inLeft second inRight⟩
  · rw [pairedTuples, productTuples, List.filter_flatMap]
    apply List.flatMap_congr
    intro first inLeft
    rw [List.filter_map]
    congr 1
    apply List.filter_congr
    intro second inRight
    change _ = ((Condition.evaluate _ _).toOption).getD false
    rw [evaluated first inLeft second inRight]
    rfl

theorem intercalate_equalityText (left right : Relation) (pairs : List (String × String)) :
    " and ".intercalate (pairs.map (left.equalityText right)) =
      Condition.equalitiesText (pairs.map (left.qualifiedPair right)) := by
  rw [Condition.equalitiesText, List.map_map]
  rfl

/-- A join on pairs succeeds as soon as the product does, provided that its condition can be read.
Its name does not matter, because the natural join gives another one. -/
theorem exists_joinOn_of_readable (leftShape : left.WellFormed) (rightShape : right.WellFormed)
    (made : left.product right = .ok combined) (known : left.Pairs right pairs)
    (readable : ∀ pair ∈ pairs.map (left.qualifiedPair right),
      Readable pair.1 ∧ Readable pair.2) :
    ∃ name, left.joinOn right pairs =
      .ok ⟨name, left.productSchema right, left.pairedTuples right pairs⟩ := by
  rcases product_eq_ok.mp made with ⟨distinct, rfl⟩
  cases pairs with
  | nil =>
      have every : ∀ first, right.tuples.filter (left.agrees right [] first) = right.tuples :=
        fun first => List.filter_eq_self.mpr fun _ _ => rfl
      simp only [pairedTuples, every]
      exact ⟨_, made⟩
  | cons pair pairs =>
      have parsed := Condition.parse_equalities readable
      have kept := keepWhere_agrees leftShape rightShape distinct known
        (left.name ++ " x " ++ right.name)
        (Condition.equalitiesText ((pair :: pairs).map (left.qualifiedPair right)))
      change ∃ name, left.thetaJoin right (" and ".intercalate _) = _
      rw [intercalate_equalityText]
      exact ⟨_, thetaJoin_eq_ok.mpr ⟨_, made, select_eq_ok.mpr ⟨_, _, parsed, kept, rfl⟩⟩⟩

theorem exists_joinOn (leftShape : left.WellFormed) (rightShape : right.WellFormed)
    (leftQuotable : left.Quotable) (rightQuotable : right.Quotable)
    (made : left.product right = .ok combined) (known : left.Pairs right pairs) :
    ∃ name, left.joinOn right pairs =
      .ok ⟨name, left.productSchema right, left.pairedTuples right pairs⟩ :=
  exists_joinOn_of_readable leftShape rightShape made known
    (readable_qualifiedPair leftQuotable rightQuotable known)

theorem position_eq_ok {name : String} (member : name ∈ relation.schema.names) :
    relation.position name = .ok ((relation.schema.position? name).getD 0) := by
  rcases Schema.exists_position?_of_mem member with ⟨position, found⟩
  rw [Relation.position, found]
  rfl

theorem pairs_single {leftField rightField : String} (inLeft : leftField ∈ left.schema.names)
    (inRight : rightField ∈ right.schema.names) : left.Pairs right [(leftField, rightField)] := by
  intro pair member
  rw [List.mem_singleton.mp member]
  exact ⟨inLeft, inRight⟩

/-- A join on an equality is a join on one pair. -/
theorem equiJoin_eq_joinOn {leftField rightField : String}
    (inLeft : leftField ∈ left.schema.names) (inRight : rightField ∈ right.schema.names) :
    left.equiJoin right leftField rightField = left.joinOn right [(leftField, rightField)] := by
  simp only [equiJoin, position_eq_ok inLeft, position_eq_ok inRight]
  rfl

/-! ## The columns that are left -/

/-- The positions of the right fields of the pairs in the product. -/
def pairedPositions (left right : Relation) (pairs : List (String × String)) : List Nat :=
  pairs.map fun pair => left.schema.length + (right.schema.position? pair.2).getD 0

theorem droppedColumns_eq_ok (known : left.Pairs right pairs) :
    left.droppedColumns right pairs = .ok (left.pairedPositions right pairs) := by
  apply mapM_eq_ok_map
  intro pair member
  rcases known pair member with ⟨inLeft, inRight⟩
  simp only [position_eq_ok inLeft, position_eq_ok inRight]
  rfl

theorem contains_pairedPositions_left {position : Nat} (before : position < left.schema.length) :
    (left.pairedPositions right pairs).contains position = false := by
  rw [Bool.eq_false_iff]
  intro paired
  rcases List.mem_map.mp (List.contains_iff_mem.mp paired) with ⟨pair, -, same⟩
  omega

/-- A column on the right is dropped if its field is paired. -/
theorem contains_pairedPositions_right (distinct : right.schema.names.Nodup)
    (known : left.Pairs right pairs) {entry : Field × Nat}
    (member : entry ∈ right.schema.zipIdx left.schema.length) :
    (left.pairedPositions right pairs).contains entry.2 = !unpaired pairs entry.1 := by
  rcases List.mem_zipIdx_iff_le_and_getElem?_sub.mp member with ⟨after, at_position⟩
  have named : right.schema.names[entry.2 - left.schema.length]? = some entry.1.name := by
    rw [Schema.getElem?_names, at_position, Option.map_some]
  have found := (Schema.position?_eq_some_iff distinct).mpr named
  rw [unpaired, Bool.not_not, Bool.eq_iff_iff, List.contains_iff_mem, List.contains_iff_mem,
    List.mem_map, pairedPositions, List.mem_map]
  constructor
  · intro ⟨pair, inPairs, same⟩
    rcases Schema.exists_position?_of_mem (known pair inPairs).2 with ⟨position, pairFound⟩
    have listed := (Schema.position?_eq_some_iff distinct).mp pairFound
    rw [pairFound, Option.getD_some] at same
    have samePosition : position = entry.2 - left.schema.length := by omega
    rw [samePosition, named] at listed
    exact ⟨pair, inPairs, (Option.some.inj listed).symm⟩
  · intro ⟨pair, inPairs, same⟩
    refine ⟨pair, inPairs, ?_⟩
    rw [same, found, Option.getD_some]
    omega

/-- The field with its name qualified. -/
def qualifiedField (qualifier : String) (field : Field) : Field :=
  { field with name := qualify qualifier field.name }

theorem joinedField_left {position : Nat} (before : position < left.schema.length)
    (field : Field) :
    left.joinedField right position (qualifiedField left.name field) = field := by
  rw [joinedField, if_pos before, qualifiedField, unqualify?_qualify]
  rfl

theorem joinedField_right {position : Nat} (after : left.schema.length ≤ position)
    (field : Field) :
    left.joinedField right position (qualifiedField right.name field) =
      left.apart right field := by
  rw [joinedField, if_neg (Nat.not_lt.mpr after), qualifiedField, unqualify?_qualify, apart]
  by_cases shared : field.name ∈ left.schema.names
  · simp [Option.filter, shared]
  · simp [Option.filter, shared]

/-- The kept columns with their places in the product, part by part. -/
theorem kept_productSchema (distinct : right.schema.names.Nodup)
    (known : left.Pairs right pairs) :
    ((left.productSchema right).zipIdx.filter fun entry =>
        !(left.pairedPositions right pairs).contains entry.2) =
      (left.schema.zipIdx.map (Prod.map (qualifiedField left.name) id)) ++
        ((right.schema.zipIdx left.schema.length).filter fun entry =>
          unpaired pairs entry.1).map (Prod.map (qualifiedField right.name) id) := by
  rw [productSchema, List.zipIdx_append, List.filter_append, Schema.length_qualified, Nat.zero_add]
  congr 1
  · rw [Schema.qualified, List.zipIdx_map]
    apply List.filter_eq_self.mpr
    intro entry member
    rcases List.mem_map.mp member with ⟨source, listed, rfl⟩
    change (!(left.pairedPositions right pairs).contains source.2) = true
    rw [contains_pairedPositions_left (lt_of_mem_zipIdx listed)]
    rfl
  · rw [Schema.qualified, List.zipIdx_map, List.filter_map]
    congr 1
    apply List.filter_congr
    intro entry member
    change (!(left.pairedPositions right pairs).contains entry.2) = _
    rw [contains_pairedPositions_right distinct known member, Bool.not_not]

theorem joined_schema (distinct : right.schema.names.Nodup) (known : left.Pairs right pairs) :
    (((left.productSchema right).zipIdx.filter fun entry =>
        !(left.pairedPositions right pairs).contains entry.2).map fun entry =>
      left.joinedField right entry.2 entry.1) = left.joinSchema right pairs := by
  rw [kept_productSchema distinct known, List.map_append, joinSchema]
  congr 1
  · rw [List.map_map]
    conv_rhs => rw [← List.zipIdx_map_fst 0 left.schema]
    apply List.map_congr_left
    intro entry member
    exact joinedField_left (lt_of_mem_zipIdx member) entry.1
  · rw [List.map_map]
    conv_rhs =>
      rw [← List.zipIdx_map_fst left.schema.length right.schema, List.filter_map, List.map_map]
    apply List.map_congr_left
    intro entry member
    have listed := List.mem_zipIdx_iff_le_and_getElem?_sub.mp (List.mem_of_mem_filter member)
    exact joinedField_right listed.1 entry.1

/-- The kept values of a row of the product are its left part and the unpaired values of its right
part. -/
theorem pick_kept_productSchema (distinct : right.schema.names.Nodup)
    (known : left.Pairs right pairs) {first second : Tuple}
    (firstWidth : first.length = left.schema.length)
    (secondWidth : second.length = right.schema.length) :
    Tuple.pick
        (((left.productSchema right).zipIdx.filter fun entry =>
          !(left.pairedPositions right pairs).contains entry.2).map Prod.snd)
        (first ++ second) =
      first ++ right.unpairedValues pairs second := by
  rw [kept_productSchema distinct known, List.map_append, Tuple.pick, List.filterMap_append,
    List.map_map, List.map_map]
  congr 1
  · have positions : left.schema.zipIdx.map (Prod.snd ∘ Prod.map (qualifiedField left.name) id) =
        first.zipIdx.map Prod.snd := by
      change left.schema.zipIdx.map Prod.snd = _
      rw [List.zipIdx_map_snd, List.zipIdx_map_snd, firstWidth]
    rw [positions, pick_positions, List.zipIdx_map_fst]
    intro entry member
    rw [List.getElem?_append_left (lt_of_mem_zipIdx member)]
    exact List.mem_zipIdx_iff_getElem?.mp member
  · have kept := pick_kept right.schema (fun entry => unpaired pairs entry.1) first second
      secondWidth.symm
    rw [firstWidth] at kept
    refine kept.trans ?_
    rw [unpairedValues]
    conv_rhs =>
      rw [← List.zipIdx_map_fst left.schema.length right.schema, List.zip_map_left,
        List.filter_map, List.map_map]
    rfl

/-- The detour of a natural join ends at its definition. -/
theorem naturalJoin_eq (leftShape : left.WellFormed) (rightShape : right.WellFormed)
    (leftQuotable : left.Quotable) (rightQuotable : right.Quotable)
    (made : left.product right = .ok combined) (pairs? : Option (List (String × String)))
    (known : left.Pairs right (pairs?.getD (left.sharedPairs right))) :
    left.naturalJoin right pairs? =
      ofTuples (left.name ++ " |x| " ++ right.name)
        (left.joinSchema right (pairs?.getD (left.sharedPairs right)))
        (left.joinTuples right (pairs?.getD (left.sharedPairs right))) := by
  rcases exists_joinOn leftShape rightShape leftQuotable rightQuotable made known with
    ⟨name, joined⟩
  have distinct := rightShape.names_nodup
  rw [naturalJoin]
  simp only [droppedColumns_eq_ok known, joined]
  change ofTuples _ _ _ = _
  rw [joined_schema distinct known]
  congr 1
  rw [pairedTuples, List.map_flatMap, joinTuples]
  apply List.flatMap_congr
  intro first inLeft
  rw [List.map_map]
  apply List.map_congr_left
  intro second chosen
  exact pick_kept_productSchema distinct known (leftShape.length_eq inLeft)
    (rightShape.length_eq (List.mem_of_mem_filter chosen))

/-! ## What it comes to -/

/-- Among the fields of the right relation, those that the left one has as well are paired. -/
theorem unpaired_sharedPairs {field : Field} (member : field ∈ right.schema) :
    unpaired (left.sharedPairs right) field = !left.schema.names.contains field.name := by
  have inRight : field.name ∈ right.schema.names := List.mem_map_of_mem member
  rw [unpaired, sharedPairs, List.map_map]
  congr 1
  rw [Bool.eq_iff_iff, List.contains_iff_mem, List.contains_iff_mem]
  simp [inRight]

/-- The join on the shared fields has the fields of the left relation and those of the right one
that the left one lacks. -/
theorem joinSchema_sharedPairs (left right : Relation) :
    left.joinSchema right (left.sharedPairs right) =
      left.schema ++ right.schema.filter fun field =>
        !left.schema.names.contains field.name := by
  rw [joinSchema, List.filter_congr fun field member => unpaired_sharedPairs member]
  congr 1
  conv_rhs => rw [← List.map_id (List.filter _ right.schema)]
  apply List.map_congr_left
  intro field member
  have absent := (List.mem_filter.mp member).2
  rw [Bool.not_eq_true'] at absent
  rw [apart, absent]
  rfl

theorem nodup_joinSchema_sharedPairs (leftShape : left.WellFormed)
    (rightShape : right.WellFormed) :
    (left.joinSchema right (left.sharedPairs right)).names.Nodup := by
  rw [joinSchema_sharedPairs, Schema.names_append, List.nodup_append]
  rw [Schema.names_filter right.schema fun name => !left.schema.names.contains name]
  refine ⟨leftShape.names_nodup, rightShape.names_nodup.filter _, ?_⟩
  intro name inLeft other inRight same
  have absent := (List.mem_filter.mp inRight).2
  rw [← same, List.contains_iff_mem.mpr inLeft] at absent
  nomatch absent

/-- A natural join on pairs of fields fails for no other reason than that two of its fields would
have one name, and on the shared fields it does not fail. If it succeeds, it is the join by
definition. -/
theorem naturalJoin_spec (leftReachable : left.Reachable) (rightReachable : right.Reachable)
    (leftQuotable : left.Quotable) (rightQuotable : right.Quotable)
    (made : left.product right = .ok combined) (pairs? : Option (List (String × String)))
    (known : ∀ pairs, pairs? = some pairs → left.Pairs right pairs) :
    (∀ error, left.naturalJoin right pairs? = .error error →
      ∃ field relation, error = .duplicateField field relation) ∧
    (pairs? = none → ∃ result, left.naturalJoin right pairs? = .ok result) ∧
    (∀ result, left.naturalJoin right pairs? = .ok result →
      result = ⟨left.name ++ " |x| " ++ right.name,
        left.joinSchema right (pairs?.getD (left.sharedPairs right)),
        left.joinTuples right (pairs?.getD (left.sharedPairs right))⟩) := by
  have leftShape := leftReachable.wellFormed
  have rightShape := rightReachable.wellFormed
  have allKnown : left.Pairs right (pairs?.getD (left.sharedPairs right)) := by
    cases pairs? with
    | none => exact pairs_sharedPairs left right
    | some pairs => exact known pairs rfl
  have joined := naturalJoin_eq leftShape rightShape leftQuotable rightQuotable made pairs? allKnown
  rw [joined]
  refine ⟨?_, ?_, ?_⟩
  · intro error failed
    rw [ofTuples] at failed
    split at failed
    · exact ⟨_, _, (Except.error.inj failed).symm⟩
    · cases failed
  · intro shared
    rw [shared]
    exact ⟨_, ofTuples_eq_ok_iff.mpr ⟨nodup_joinSchema_sharedPairs leftShape rightShape, rfl⟩⟩
  · intro result succeeded
    exact (ofTuples_eq_ok_iff.mp succeeded).2

/-- Who sits on which floor. -/
def desks : Relation :=
  ⟨"my desks", [.any "name", .any "floor"], [[.str "Ada", .int 1], [.str "Ben", .int 2]]⟩

/-- Who may be in on which floor. -/
def floors : Relation :=
  ⟨"floors", [.any "floor", .any "in"], [[.int 1, .str "Ada"], [.int 2, .str "Ada"]]⟩

theorem reachable_desks : desks.Reachable :=
  reachable_of_rows (by decide) (by decide) (by decide)

theorem reachable_floors : floors.Reachable :=
  reachable_of_rows (by decide) (by decide) (by decide)

theorem quotable_desks : desks.Quotable := ⟨by decide, by decide⟩

theorem quotable_floors : floors.Quotable := ⟨by decide, by decide⟩

theorem pairs_desks_floors : desks.Pairs floors [("name", "in")] := by
  intro pair member
  rw [List.mem_singleton.mp member]
  decide

/-- Names with blanks and reserved words are no obstacle. -/
theorem naturalJoin_desks_floors :
    desks.naturalJoin floors (some [("name", "in")]) =
        .ok ⟨"my desks |x| floors", [.any "name", .any "floor", .any "floors.floor"],
          [[.str "Ada", .int 1, .int 1], [.str "Ada", .int 1, .int 2]]⟩ ∧
      desks.joinTuples floors [("name", "in")] =
        [[.str "Ada", .int 1, .int 1], [.str "Ada", .int 1, .int 2]] := by
  have product : desks.product floors = .ok _ := product_eq_ok.mpr ⟨by decide, rfl⟩
  have spec := naturalJoin_spec reachable_desks reachable_floors quotable_desks quotable_floors
    product (some [("name", "in")]) fun pairs same => Option.some.inj same ▸ pairs_desks_floors
  have equation := naturalJoin_eq reachable_desks.wellFormed reachable_floors.wellFormed
    quotable_desks quotable_floors product (some [("name", "in")]) pairs_desks_floors
  have joined := equation.trans (by rfl)
  exact ⟨joined, (congrArg Relation.tuples (spec.2.2 _ joined)).symm⟩

end TypedRelations.Relation
