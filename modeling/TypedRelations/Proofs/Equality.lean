import Mathlib.Data.List.Perm.Subperm
import TypedRelations.Proofs.Rows

/-!
# Equality of relations

Two relations are compared from the left: the names of the left one are looked up in the right one,
and each right tuple is read at the positions found. As long as names differ, this is the same as a
condition that prefers no side: the names are permuted, and rows at the same place have equal values
under every name (`beq_iff_alike`). So equality is an equivalence.
-/

namespace TypedRelations.Relation

variable {left middle right : Relation} {first second third : Tuple}

/-- Two tuples, each with one value per field of its relation, have equal values under every
name. -/
structure SameRow (left right : Relation) (first second : Tuple) : Prop where
  leftWidth : first.length = left.schema.length
  rightWidth : second.length = right.schema.length
  values : ∀ name, ((left.row first).get? name == (right.row second).get? name) = true

/-- Two relations have the same name, the same names of fields, and the same rows in order. -/
structure Alike (left right : Relation) : Prop where
  name : left.name = right.name
  names : left.schema.names.Perm right.schema.names
  rows : List.Forall₂ (SameRow left right) left.tuples right.tuples

theorem SameRow.symm (same : left.SameRow right first second) :
    right.SameRow left second first :=
  ⟨same.rightWidth, same.leftWidth, fun name => BEq.symm (same.values name)⟩

theorem SameRow.trans (before : left.SameRow middle first second)
    (after : middle.SameRow right second third) : left.SameRow right first third :=
  ⟨before.leftWidth, after.rightWidth, fun name =>
    PartialEquivBEq.trans (before.values name) (after.values name)⟩

theorem Alike.refl (shape : left.WellFormed) : left.Alike left where
  name := rfl
  names := .refl _
  rows := List.forall₂_same.mpr fun _ member =>
    ⟨shape.length_eq member, shape.length_eq member, fun _ => BEq.rfl⟩

theorem Alike.symm (alike : left.Alike right) : right.Alike left where
  name := alike.name.symm
  names := alike.names.symm
  rows := alike.rows.flip.imp fun _ _ => SameRow.symm

theorem Alike.trans (before : left.Alike middle) (after : middle.Alike right) :
    left.Alike right where
  name := before.name.trans after.name
  names := before.names.trans after.names
  rows := forall₂_join before.symm.rows after.rows fun _ _ _ fromLeft toRight =>
    fromLeft.symm.trans toRight

/-- A tuple equals another one read at the positions of the names if the two rows have equal values
under every name. -/
theorem beq_pick_iff (leftShape : left.WellFormed)
    (names : left.schema.names.Perm right.schema.names) {positions : List Nat}
    (located : List.Forall₂ (fun name position => right.schema.position? name = some position)
      left.schema.names positions)
    (inLeft : first ∈ left.tuples) (rightWidth : second.length = right.schema.length) :
    (first == second.pick positions) = true ↔ left.SameRow right first second := by
  have leftWidth := leftShape.length_eq inLeft
  have total : ∀ name ∈ left.schema.names, ∃ value, (left.row first).get? name = some value :=
    fun name member => exists_get? leftWidth member
  have otherTotal : ∀ name ∈ left.schema.names,
      ∃ value, (right.row second).get? name = some value :=
    fun name member => exists_get? rightWidth (names.mem_iff.mp member)
  rw [pick_eq_filterMap_get? located]
  conv => lhs; rw [← filterMap_get?_names leftShape.names_nodup leftWidth]
  have byName : List.Forall₂ (fun value other => (value == other) = true)
      (left.schema.names.filterMap (left.row first).get?)
      (left.schema.names.filterMap (right.row second).get?) ↔ _ :=
    forall₂_filterMap_iff total otherTotal
  constructor
  · intro same
    refine ⟨leftWidth, rightWidth, fun name => ?_⟩
    by_cases member : name ∈ left.schema.names
    · exact option_beq_iff.mpr (byName.mp (forall₂_of_beq same) name member)
    · rw [get?_eq_none member, get?_eq_none fun inRight => member (names.mem_iff.mpr inRight)]
      rfl
  · intro same
    exact beq_of_forall₂ (byName.mpr fun name _ => option_beq_iff.mp (same.values name))

/-- Names that all have a position elsewhere are the names there if they are as many. -/
theorem names_perm (distinct : left.schema.names.Nodup)
    (widths : left.schema.length = right.schema.length)
    (known : ∀ name ∈ left.schema.names, name ∈ right.schema.names) :
    left.schema.names.Perm right.schema.names := by
  apply (List.subperm_of_subset distinct known).perm_of_length_le
  rw [Schema.names, Schema.names, List.length_map, List.length_map]
  exact Nat.le_of_eq widths.symm

/-- Equality does not prefer a side. -/
theorem beq_iff_alike (leftShape : left.WellFormed) (rightShape : right.WellFormed) :
    (left == right) = true ↔ left.Alike right := by
  change left.beq right = true ↔ _
  rw [Relation.beq, Bool.and_eq_true, Bool.and_eq_true, Bool.and_eq_true, beq_iff_eq, beq_iff_eq,
    beq_iff_eq]
  constructor
  · rintro ⟨⟨⟨name, widths⟩, sizes⟩, rows⟩
    cases found : left.schema.names.mapM right.schema.position? with
    | none =>
        rw [found] at rows
        nomatch rows
    | some positions =>
        rw [found, List.all_eq_true] at rows
        have located := mapM_eq_some.mp found
        have names : left.schema.names.Perm right.schema.names := by
          apply names_perm leftShape.names_nodup widths
          intro other member
          obtain ⟨position, -, standsAt⟩ := exists_left_of_forall₂ located.flip member
          by_contra absent
          rw [Schema.position?_eq_none_iff.mpr absent] at standsAt
          nomatch standsAt
        refine ⟨name, names, List.forall₂_iff_zip.mpr ⟨sizes, fun {first second} member => ?_⟩⟩
        have inBoth := List.of_mem_zip member
        exact (beq_pick_iff leftShape names located inBoth.1
          (rightShape.length_eq inBoth.2)).mp (rows _ member)
  · intro alike
    have located : List.Forall₂ (fun name position => right.schema.position? name = some position)
        left.schema.names (left.schema.names.filterMap right.schema.position?) :=
      forall₂_filterMap fun name member =>
        Schema.exists_position?_of_mem (alike.names.mem_iff.mp member)
    have widths : left.schema.length = right.schema.length := by
      simpa [Schema.names] using alike.names.length_eq
    refine ⟨⟨⟨alike.name, widths⟩, alike.rows.length_eq⟩, ?_⟩
    rw [mapM_eq_some.mpr located, List.all_eq_true]
    intro pair member
    have inBoth := List.of_mem_zip member
    exact (beq_pick_iff leftShape alike.names located inBoth.1
      (rightShape.length_eq inBoth.2)).mpr (List.forall₂_zip alike.rows member)

end TypedRelations.Relation
