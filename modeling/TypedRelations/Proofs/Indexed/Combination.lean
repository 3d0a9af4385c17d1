import TypedRelations.Proofs.Indexed.Insertion
import TypedRelations.Proofs.Indexed.Selection

/-!
# Joins and set operations, access by access

The columns that a natural join keeps, the two parts that an outer join cuts its combinations into
and the places of the fields that a set operation maps are all found, for relations of the right
shape, and the result is that of the operations without checks.
-/

namespace TypedRelations.Indexed

variable {ε : Type} {relation left right : Relation}

/-- All combinations of a row of the left relation with a row of the right one. -/
def product (left right : Relation) : Run Error Relation :=
  ofTuples (left.name ++ " x " ++ right.name) (left.productSchema right)
    (left.productTuples right)

/-- The combinations for which a condition on the qualified fields holds. -/
def thetaJoin (left right : Relation) (predicate : String) : Run Error Relation := do
  select (← product left right) predicate

/-- The combinations in which a field of the left relation equals a field of the right one. -/
def equiJoin (left right : Relation) (leftField rightField : String) : Run Error Relation := do
  let _ ← lift (left.position leftField)
  let _ ← lift (right.position rightField)
  thetaJoin left right (left.equalityText right (leftField, rightField))

/-- The product, restricted to the rows that agree on all pairs. -/
def joinOn (left right : Relation) (pairs : List (String × String)) : Run Error Relation :=
  if pairs.isEmpty then product left right
  else thetaJoin left right (" and ".intercalate (pairs.map (left.equalityText right)))

/-- The rows of the product that agree on pairs of fields, without the right fields of the pairs. -/
def naturalJoin (left right : Relation) (pairs? : Option (List (String × String))) :
    Run Error Relation := do
  let pairs := pairs?.getD (left.sharedPairs right)
  let dropped ← lift (left.droppedColumns right pairs)
  let joined ← joinOn left right pairs
  let kept := joined.schema.zipIdx.filter fun (_, position) => !dropped.contains position
  let tuples ← joined.tuples.mapM (pick (kept.map fun (_, position) => position))
  ofTuples (left.name ++ " |x| " ++ right.name)
    (kept.map fun (field, position) => left.joinedField right position field) tuples

/-- The tuples that are the part of no combination, where the part is what an access yields. -/
def unmatched (part : Tuple → Run ε Tuple) (combinations tuples : List Tuple) :
    Run ε (List Tuple) :=
  tuples |> keepWhere fun tuple => do
    let found ← combinations.anyM fun combination => do
      return (← part combination) == tuple
    return !found

/-- The join on a condition, followed by the rows without a partner that the side keeps. -/
def outerJoin (left right : Relation) (predicate : String) (side : Relation.Side) :
    Run Error Relation := do
  let joined ← thetaJoin left right predicate
  let width := left.schema.length
  let fromLeft ←
    if side.keepsLeft then unmatched (upTo · width) joined.tuples left.tuples else .ok []
  let fromRight ←
    if side.keepsRight then unmatched (onward · width) joined.tuples right.tuples else .ok []
  return {
    name := left.name ++ " " ++ side.text ++ " outer join " ++ right.name
    schema := joined.schema
    tuples := joined.tuples ++ fromLeft.map (· ++ Tuple.nulls right.schema.length) ++
      fromRight.map (Tuple.nulls width ++ ·) }

theorem product_eq (left right : Relation) :
    product left right = lift (left.product right) :=
  ofTuples_eq _ _ _

theorem thetaJoin_eq (leftShape : left.WellFormed) (rightShape : right.WellFormed)
    (predicate : String) :
    thetaJoin left right predicate = lift (left.thetaJoin right predicate) := by
  rw [thetaJoin, Relation.thetaJoin, product_eq]
  exact lift_bind_congr fun combined made =>
    select_eq (leftShape.product rightShape made) predicate

theorem equiJoin_eq (leftShape : left.WellFormed) (rightShape : right.WellFormed)
    (leftField rightField : String) :
    equiJoin left right leftField rightField =
      lift (left.equiJoin right leftField rightField) := by
  rw [equiJoin, Relation.equiJoin]
  exact lift_bind_congr fun _ _ => lift_bind_congr fun _ _ =>
    thetaJoin_eq leftShape rightShape _

theorem joinOn_eq (leftShape : left.WellFormed) (rightShape : right.WellFormed)
    (pairs : List (String × String)) :
    joinOn left right pairs = lift (left.joinOn right pairs) := by
  rw [joinOn, Relation.joinOn]
  split
  · exact product_eq left right
  · exact thetaJoin_eq leftShape rightShape _

theorem naturalJoin_eq (leftShape : left.WellFormed) (rightShape : right.WellFormed)
    (pairs? : Option (List (String × String))) :
    naturalJoin left right pairs? = lift (left.naturalJoin right pairs?) := by
  rw [naturalJoin, Relation.naturalJoin]
  refine lift_bind_congr fun dropped _ => ?_
  rw [joinOn_eq leftShape rightShape]
  refine lift_bind_congr fun joined made => ?_
  have bounds : ∀ position ∈ (joined.schema.zipIdx.filter fun entry =>
      !dropped.contains entry.2).map Prod.snd, position < joined.schema.length := by
    intro position member
    rcases List.mem_map.mp member with ⟨entry, kept, rfl⟩
    exact lt_of_mem_zipIdx (List.mem_of_mem_filter kept)
  have picked : (joined.tuples.mapM (pick _) : Run Error (List Tuple)) = _ :=
    mapM_pick bounds fun _ => (leftShape.joinOn rightShape made).length_eq
  exact (congrArg (· >>= _) picked).trans (ofTuples_eq _ _ _)

theorem unmatched_eq {part : Tuple → Run ε Tuple} {image : Tuple → Tuple}
    {combinations : List Tuple}
    (inRange : ∀ combination ∈ combinations, part combination = .ok (image combination))
    (tuples : List Tuple) :
    unmatched part combinations tuples =
      .ok (tuples.filter fun tuple =>
        !combinations.any fun combination => image combination == tuple) := by
  refine keepWhere_eq_filter fun tuple _ => ?_
  have searched : (combinations.anyM fun combination => do
      return (← part combination) == tuple) =
      .ok (combinations.any fun combination => image combination == tuple) := by
    refine anyM_eq_any fun combination member => ?_
    rw [inRange combination member]
    rfl
  rw [searched]
  rfl

theorem outerJoin_eq (leftShape : left.WellFormed) (rightShape : right.WellFormed)
    (predicate : String) (side : Relation.Side) :
    outerJoin left right predicate side = lift (left.outerJoin right predicate side) := by
  rw [outerJoin, Relation.outerJoin, thetaJoin_eq leftShape rightShape]
  refine lift_bind_congr fun joined made => ?_
  have asWide : ∀ combination ∈ joined.tuples, left.schema.length ≤ combination.length := by
    intro combination member
    rw [(leftShape.thetaJoin rightShape made).length_eq member, Relation.schema_of_thetaJoin made,
      Relation.productSchema, List.length_append, Schema.length_qualified]
    exact Nat.le_add_right _ _
  have beginnings : (unmatched (upTo · left.schema.length) joined.tuples left.tuples :
      Run Error (List Tuple)) = _ :=
    unmatched_eq (fun combination member => upTo_eq_ok (asWide combination member)) left.tuples
  have ends : (unmatched (onward · left.schema.length) joined.tuples right.tuples :
      Run Error (List Tuple)) = _ :=
    unmatched_eq (fun combination member => onward_eq_ok (asWide combination member)) right.tuples
  simp only [beginnings, ends]
  cases side with
  | left => rfl
  | right => rfl
  | both => rfl

/-! ## Set operations -/

/-- A pair of a mapping with the places of its two fields. -/
structure Place where
  name : String
  left : Nat
  right : Nat

/-- The place of a pair whose fields have been looked up. -/
def placeOf (field : Relation.MappedField) : Place :=
  ⟨field.name, field.leftPosition, field.rightPosition⟩

/-- The place of a field that a mapping names. -/
def mapped (relation : Relation) (name : String) : Run Error Nat :=
  match relation.schema.position? name with
  | some position => .ok position
  | none => refuse (.fieldMapping name relation.name)

/-- Looks up the fields of a mapping, each pair in the left relation first. -/
def places (left right : Relation) (mapping : List (String × String)) : Run Error (List Place) :=
  mapping.mapM fun (leftField, rightField) => do
    let leftPosition ← mapped left leftField
    let rightPosition ← mapped right rightField
    return ⟨leftField, leftPosition, rightPosition⟩

/-- The fields of a set operation, with the domains of each pair combined. -/
def combinedSchema (left right : Relation) (mapping : List Place)
    (combine : Domain → Domain → Except Constraint.Clash Domain) : Run Error Schema :=
  mapping.mapM fun place => do
    let leftField ← entry left.schema place.left
    let rightField ← entry right.schema place.right
    match combine leftField.domain rightField.domain with
    | .ok domain => return ⟨place.name, domain⟩
    | .error cause => refuse (.clash cause)

/-- The set operation that combines domains in the one way and the mapped columns in the other. -/
def setOperation (word : String) (combine : Domain → Domain → Except Constraint.Clash Domain)
    (gather : List Tuple → List Tuple → List Tuple) (left right : Relation)
    (mapping : List (String × String)) : Run Error Relation := do
  let mapping ← places left right mapping
  let leftTuples ← left.tuples.mapM (pick (mapping.map Place.left))
  let rightTuples ← right.tuples.mapM (pick (mapping.map Place.right))
  let schema ← combinedSchema left right mapping combine
  ofTuples (left.name ++ word ++ right.name) schema (gather leftTuples rightTuples)

/-- The tuples of either relation, each at its first occurrence. -/
def union : Relation → Relation → List (String × String) → Run Error Relation :=
  setOperation " union " Domain.union fun leftTuples rightTuples =>
    (OrderedSet.ofList (leftTuples ++ rightTuples)).items

/-- The tuples of the left relation that the right one has as well. -/
def inter : Relation → Relation → List (String × String) → Run Error Relation :=
  setOperation " intersection " Domain.inter fun leftTuples rightTuples =>
    leftTuples.filter fun tuple => rightTuples.contains tuple

/-- The tuples of the left relation that the right one lacks. -/
def diff : Relation → Relation → List (String × String) → Run Error Relation :=
  setOperation " difference " Domain.diff fun leftTuples rightTuples =>
    leftTuples.filter fun tuple => !rightTuples.contains tuple

variable {mapping : List (String × String)} {fields : List Relation.MappedField}

theorem mapped_eq (relation : Relation) (name : String) :
    mapped relation name = lift ((relation.mapped name).map Prod.fst) := by
  rw [mapped, Relation.mapped]
  cases located : relation.schema.position? name with
  | none => rfl
  | some position =>
      rcases Schema.find?_eq_getElem? located with ⟨field, -, -, byName⟩
      rw [byName]
      rfl

theorem places_eq (left right : Relation) (mapping : List (String × String)) :
    places left right mapping = lift ((left.mappedFields right mapping).map (·.map placeOf)) := by
  rw [Relation.mappedFields, ← mapM_map]
  refine mapM_eq_lift fun pair _ => ?_
  rcases pair with ⟨leftName, rightName⟩
  simp only [mapped_eq]
  cases left.mapped leftName with
  | error error => rfl
  | ok leftField =>
      cases right.mapped rightName with
      | error error => rfl
      | ok rightField => rfl

theorem combinedSchema_eq (made : left.mappedFields right mapping = .ok fields)
    (combine : Domain → Domain → Except Constraint.Clash Domain) :
    combinedSchema left right (fields.map placeOf) combine =
      lift (Relation.combinedSchema fields combine) := by
  rw [combinedSchema, List.mapM_map]
  refine mapM_eq_lift fun field member => ?_
  rcases exists_left_of_forall₂ (Relation.mappedFields_eq_ok made) member with
    ⟨pair, -, resolves⟩
  rcases resolves.left with ⟨leftField, at_left, -, leftDomain⟩
  rcases resolves.right with ⟨rightField, at_right, -, rightDomain⟩
  change (entry left.schema field.leftPosition >>= _) = _
  rw [entry_eq_ok at_left, ok_bind]
  change (entry right.schema field.rightPosition >>= _) = _
  rw [entry_eq_ok at_right, ok_bind, leftDomain, rightDomain]
  cases combine field.leftDomain field.rightDomain with
  | error cause => rfl
  | ok domain => rfl

/-- The places of the pairs are places in the two schemas. -/
theorem lt_of_mem_placeOf (made : left.mappedFields right mapping = .ok fields) :
    (∀ position ∈ (fields.map placeOf).map Place.left, position < left.schema.length) ∧
      ∀ position ∈ (fields.map placeOf).map Place.right, position < right.schema.length := by
  rw [List.map_map, List.map_map, List.forall_mem_map, List.forall_mem_map]
  have resolved : ∀ field ∈ fields,
      ∃ pair, Relation.MappedField.Resolves left right pair field := by
    intro field member
    rcases exists_left_of_forall₂ (Relation.mappedFields_eq_ok made) member with
      ⟨pair, -, resolves⟩
    exact ⟨pair, resolves⟩
  constructor
  · intro field member
    rcases resolved field member with ⟨pair, resolves⟩
    rcases resolves.left with ⟨leftField, at_left, -, -⟩
    exact (List.getElem?_eq_some_iff.mp at_left).1
  · intro field member
    rcases resolved field member with ⟨pair, resolves⟩
    rcases resolves.right with ⟨rightField, at_right, -, -⟩
    exact (List.getElem?_eq_some_iff.mp at_right).1

/-- Rows are picked before the domains are combined, so all is in range also where these clash. -/
theorem setOperation_eq (leftShape : left.WellFormed) (rightShape : right.WellFormed)
    (word : String) (combine : Domain → Domain → Except Constraint.Clash Domain)
    (gather : List Tuple → List Tuple → List Tuple) (mapping : List (String × String)) :
    setOperation word combine gather left right mapping =
      lift (left.setOperation right word combine gather mapping) := by
  rw [setOperation, places_eq, Relation.setOperation]
  cases made : left.mappedFields right mapping with
  | error error => rfl
  | ok fields =>
      rcases lt_of_mem_placeOf made with ⟨leftBounds, rightBounds⟩
      have leftPicked : (left.tuples.mapM (pick _) : Run Error (List Tuple)) = _ :=
        mapM_pick leftBounds fun _ => leftShape.length_eq
      have rightPicked : (right.tuples.mapM (pick _) : Run Error (List Tuple)) = _ :=
        mapM_pick rightBounds fun _ => rightShape.length_eq
      rw [List.map_map] at leftPicked rightPicked
      change (left.tuples.mapM (pick ((fields.map placeOf).map Place.left)) >>= _) =
        lift (Relation.combinedSchema fields combine >>= _)
      rw [List.map_map, leftPicked, ok_bind]
      change (right.tuples.mapM (pick ((fields.map placeOf).map Place.right)) >>= _) = _
      rw [List.map_map, rightPicked, ok_bind, combinedSchema_eq made]
      exact lift_bind_congr fun schema _ => ofTuples_eq _ _ _

theorem union_eq (leftShape : left.WellFormed) (rightShape : right.WellFormed)
    (mapping : List (String × String)) :
    union left right mapping = lift (left.union right mapping) :=
  setOperation_eq leftShape rightShape _ _ _ mapping

theorem inter_eq (leftShape : left.WellFormed) (rightShape : right.WellFormed)
    (mapping : List (String × String)) :
    inter left right mapping = lift (left.inter right mapping) :=
  setOperation_eq leftShape rightShape _ _ _ mapping

theorem diff_eq (leftShape : left.WellFormed) (rightShape : right.WellFormed)
    (mapping : List (String × String)) :
    diff left right mapping = lift (left.diff right mapping) :=
  setOperation_eq leftShape rightShape _ _ _ mapping

end TypedRelations.Indexed
