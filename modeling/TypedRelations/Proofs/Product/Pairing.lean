import TypedRelations.Proofs.Insertion.Filling
import TypedRelations.Proofs.Product

/-!
# What a product pairs

A product is refused exactly if the qualified name of a left field is that of a right field, which
takes a dot in one of the names of the relations, or one name for both. Otherwise row `i * n + j`
pairs row `i` on the left with row `j` of the `n` rows on the right (`product_pairs`).
-/

namespace TypedRelations

/-- What stands before the first dot of a qualified name is the qualifier, if this has no dot. -/
theorem takeWhile_qualify {qualifier : String} (plain : '.' ∉ qualifier.toList) (name : String) :
    (qualify qualifier name).toList.takeWhile (· != '.') = qualifier.toList := by
  have parts : (qualify qualifier name).toList = qualifier.toList ++ '.' :: name.toList := by
    simp [qualify, String.toList_append]
  rw [parts, takeWhile_bne_append plain]

theorem qualifier_eq_of_qualify_eq {first second x y : String} (firstPlain : '.' ∉ first.toList)
    (secondPlain : '.' ∉ second.toList) (same : qualify first x = qualify second y) :
    first = second := by
  apply String.toList_injective
  rw [← takeWhile_qualify firstPlain x, same, takeWhile_qualify secondPlain y]

namespace Relation

variable {left right result : Relation}

/-- A product that is refused has a right field under the qualified name of a left one, and this is
the name that is reported. -/
theorem product_eq_error (leftShape : left.WellFormed) (rightShape : right.WellFormed)
    {error : Error} (failed : left.product right = .error error) :
    ∃ x ∈ left.schema.names, ∃ y ∈ right.schema.names,
      qualify left.name x = qualify right.name y ∧
        error = .duplicateField (qualify left.name x) (left.name ++ " x " ++ right.name) := by
  obtain ⟨name, twice, reported⟩ := ofTuples_eq_error failed
  rw [names_productSchema, List.count_append] at twice
  have leftOnce := List.nodup_iff_count_le_one.mp
    (leftShape.names_nodup.map (Schema.qualify_injective left.name)) name
  have rightOnce := List.nodup_iff_count_le_one.mp
    (rightShape.names_nodup.map (Schema.qualify_injective right.name)) name
  have inLeft : name ∈ left.schema.names.map (qualify left.name) :=
    List.count_pos_iff.mp (by omega)
  have inRight : name ∈ right.schema.names.map (qualify right.name) :=
    List.count_pos_iff.mp (by omega)
  obtain ⟨x, isLeft, rfl⟩ := List.mem_map.mp inLeft
  obtain ⟨y, isRight, same⟩ := List.mem_map.mp inRight
  exact ⟨x, isLeft, y, isRight, same.symm, reported⟩

theorem product_eq_error_iff (leftShape : left.WellFormed) (rightShape : right.WellFormed) :
    (∃ error, left.product right = .error error) ↔
      ∃ x ∈ left.schema.names, ∃ y ∈ right.schema.names,
        qualify left.name x = qualify right.name y := by
  constructor
  · rintro ⟨error, failed⟩
    obtain ⟨x, isLeft, y, isRight, same, -⟩ := product_eq_error leftShape rightShape failed
    exact ⟨x, isLeft, y, isRight, same⟩
  · rintro ⟨x, isLeft, y, isRight, same⟩
    cases made : left.product right with
    | error error => exact ⟨error, rfl⟩
    | ok result =>
        have distinct := (product_eq_ok.mp made).1
        rw [names_productSchema, List.nodup_append] at distinct
        exact absurd same
          (distinct.2.2 _ (List.mem_map_of_mem isLeft) _ (List.mem_map_of_mem isRight))

/-- Relations with different names have a product if their names have no dots. -/
theorem exists_product_of_plain (leftShape : left.WellFormed) (rightShape : right.WellFormed)
    (different : left.name ≠ right.name) (leftPlain : '.' ∉ left.name.toList)
    (rightPlain : '.' ∉ right.name.toList) : ∃ result, left.product right = .ok result := by
  cases made : left.product right with
  | ok result => exact ⟨result, rfl⟩
  | error error =>
      obtain ⟨x, -, y, -, same, -⟩ := product_eq_error leftShape rightShape made
      exact absurd (qualifier_eq_of_qualify_eq leftPlain rightPlain same) different

/-! ## Rows of products -/

theorem length_productTuples (left right : Relation) :
    (left.productTuples right).length = left.size * right.size := by
  simp [productTuples, size, List.length_flatMap]

/-- The rows of the right relation come in one block for each row of the left one. -/
theorem getElem?_blocks {rights : List Tuple} {j : Nat} {second : Tuple}
    (inRights : rights[j]? = some second) {lefts : List Tuple} {i : Nat} {first : Tuple}
    (inLefts : lefts[i]? = some first) :
    (lefts.flatMap fun first => rights.map fun second => first ++ second)[i * rights.length + j]? =
      some (first ++ second) := by
  have bound := (List.getElem?_eq_some_iff.mp inRights).1
  induction lefts generalizing i with
  | nil => nomatch inLefts
  | cons head rest ih =>
      rw [List.flatMap_cons]
      cases i with
      | zero =>
          cases inLefts
          rw [Nat.zero_mul, Nat.zero_add, List.getElem?_append_left (by simpa using bound),
            List.getElem?_map, inRights]
          rfl
      | succ i =>
          have behind : (i + 1) * rights.length + j = rights.length + (i * rights.length + j) := by
            rw [Nat.succ_mul, Nat.add_comm (i * rights.length), Nat.add_assoc]
          rw [behind, List.getElem?_append_right (by simp), List.length_map,
            Nat.add_sub_cancel_left]
          exact ih inLefts

/-- The row has the values of two others under the qualified names of their fields. -/
structure Joined (left right : Relation) (first second row : Row) : Prop where
  left : ∀ x ∈ left.schema.names, ∃ value,
    first.get? x = some value ∧ row.get? (qualify left.name x) = some value
  right : ∀ y ∈ right.schema.names, ∃ value,
    second.get? y = some value ∧ row.get? (qualify right.name y) = some value

theorem joined_append (leftShape : left.WellFormed) (rightShape : right.WellFormed)
    (made : left.product right = .ok result) {first second : Tuple} (inLeft : first ∈ left.tuples)
    (inRight : second ∈ right.tuples) :
    left.Joined right (left.row first) (right.row second) (result.row (first ++ second)) := by
  obtain ⟨distinct, rfl⟩ := product_eq_ok.mp made
  have firstWidth := leftShape.length_eq inLeft
  constructor
  case left =>
    intro x isField
    obtain ⟨value, found⟩ := exists_get? firstWidth isField
    exact ⟨value, found, (get?_productSchema_left second firstWidth isField).trans found⟩
  case right =>
    intro y isField
    obtain ⟨value, found⟩ := exists_get? (rightShape.length_eq inRight) isField
    exact ⟨value, found, (get?_productSchema_right distinct second firstWidth isField).trans found⟩

theorem getElem?_rows (relation : Relation) (position : Nat) :
    relation.rows[position]? = relation.tuples[position]?.map relation.row :=
  List.getElem?_map

/-- The row of a product at the place of a pair of rows is this pair. -/
theorem exists_pair (leftShape : left.WellFormed) (rightShape : right.WellFormed)
    (made : left.product right = .ok result) {i j : Nat} (inLeft : i < left.size)
    (inRight : j < right.size) :
    ∃ first second row, left.rows[i]? = some first ∧ right.rows[j]? = some second ∧
      result.rows[i * right.size + j]? = some row ∧ left.Joined right first second row := by
  have leftStored : left.tuples[i]? = some left.tuples[i] := List.getElem?_eq_getElem inLeft
  have rightStored : right.tuples[j]? = some right.tuples[j] := List.getElem?_eq_getElem inRight
  have paired : result.tuples[i * right.size + j]? = some (left.tuples[i] ++ right.tuples[j]) := by
    rw [(product_eq_ok.mp made).2]
    exact getElem?_blocks rightStored leftStored
  refine ⟨_, _, _, ?_, ?_, ?_, joined_append leftShape rightShape made
    (List.mem_of_getElem? leftStored) (List.mem_of_getElem? rightStored)⟩
  · rw [getElem?_rows, leftStored, Option.map_some]
  · rw [getElem?_rows, rightStored, Option.map_some]
  · rw [getElem?_rows, paired, Option.map_some]

/-- A product fails exactly if two of its fields would have the same name, and reports such a name.
This takes equal names of the relations, or a dot in one of them. Otherwise it pairs every left row
with every right row, in the order of the left rows and for each of them in that of the right
ones. -/
theorem product_pairs (leftReachable : left.Reachable) (rightReachable : right.Reachable) :
    ((∃ error, left.product right = .error error) ↔
      ∃ x ∈ left.schema.names, ∃ y ∈ right.schema.names,
        qualify left.name x = qualify right.name y) ∧
    (∀ error, left.product right = .error error →
      ∃ x ∈ left.schema.names, ∃ y ∈ right.schema.names,
        qualify left.name x = qualify right.name y ∧
          error = .duplicateField (qualify left.name x) (left.name ++ " x " ++ right.name)) ∧
    (left.name ≠ right.name → '.' ∉ left.name.toList → '.' ∉ right.name.toList →
      ∃ result, left.product right = .ok result) ∧
    ∀ result, left.product right = .ok result →
      result.size = left.size * right.size ∧
      ∀ i < left.size, ∀ j < right.size, ∃ first second row,
        left.rows[i]? = some first ∧ right.rows[j]? = some second ∧
          result.rows[i * right.size + j]? = some row ∧ left.Joined right first second row := by
  have leftShape := leftReachable.wellFormed
  have rightShape := rightReachable.wellFormed
  refine ⟨product_eq_error_iff leftShape rightShape,
    fun error => product_eq_error leftShape rightShape,
    exists_product_of_plain leftShape rightShape, fun result made => ⟨?size, ?rows⟩⟩
  case size =>
    rw [(product_eq_ok.mp made).2]
    exact length_productTuples left right
  case rows =>
    exact fun i inLeft j inRight => exists_pair leftShape rightShape made inLeft inRight

/-- Beds in a ward. -/
def beds : Relation := ⟨"ward", [.any "east.bed"], [[.int 1], [.int 2]]⟩

/-- Beds in a part of the ward. -/
def eastBeds : Relation := ⟨"ward.east", [.any "bed"], []⟩

/-- Who is on duty for a bed. -/
def nurses : Relation :=
  ⟨"nurses", [.any "on", .any "bed"], [[.str "Ann", .int 1], [.null, .int 2]]⟩

theorem reachable_beds : beds.Reachable :=
  reachable_of_rows (by decide) (by decide) (by decide)

theorem reachable_nurses : nurses.Reachable :=
  reachable_of_rows (by decide) (by decide) (by decide)

/-- The dots make two different names of fields one, and the product is refused. With the nurses
there are four rows, and the third of them pairs the second bed with the first nurse. -/
theorem product_pairs_wards :
    (∃ error, beds.product eastBeds = .error error ∧
      error = .duplicateField "ward.east.bed" "ward x ward.east") ∧
    ∃ result row, beds.product nurses = .ok result ∧ result.size = 4 ∧
      result.rows[2]? = some row ∧ row.get? "ward.east.bed" = some (.int 2) ∧
      row.get? "nurses.on" = some (.str "Ann") := by
  have reachableEast : eastBeds.Reachable := derived_empty trivial (by decide)
  constructor
  · obtain ⟨fails, reported, -, -⟩ := product_pairs reachable_beds reachableEast
    obtain ⟨error, failed⟩ := fails.mpr ⟨"east.bed", by decide, "bed", by decide, by decide⟩
    obtain ⟨x, isBed, y, isEast, same, rfl⟩ := reported error failed
    cases List.mem_singleton.mp isBed
    exact ⟨_, failed, congrArg₂ Error.duplicateField (by decide) (by decide)⟩
  · obtain ⟨-, -, plain, pairs⟩ := product_pairs reachable_beds reachable_nurses
    obtain ⟨result, made⟩ := plain (by decide) (by decide) (by decide)
    obtain ⟨size, rows⟩ := pairs result made
    obtain ⟨first, second, row, isFirst, isSecond, stored, paired⟩ :=
      rows 1 (by decide) 0 (by decide)
    cases isFirst
    cases isSecond
    obtain ⟨bed, isBed, underBed⟩ := paired.left "east.bed" (by decide)
    obtain ⟨nurse, isNurse, underNurse⟩ := paired.right "on" (by decide)
    cases isBed
    cases isNurse
    exact ⟨result, row, made, size, stored, underBed, underNurse⟩

end Relation

end TypedRelations
