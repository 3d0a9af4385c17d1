import TypedRelations.Error
import TypedRelations.Row

/-!
# Relations

A relation is a named schema with tuples under it, in the order in which they came in. Relations are
plain values, of which every operation of the algebra makes a new one. In all that the library
builds the names of the fields differ, and every tuple has one value per field.
-/

namespace TypedRelations

/-- A named list of fields with tuples of values for them. -/
structure Relation where
  name : String
  schema : Schema
  tuples : List Tuple

namespace Relation

instance : Inhabited Relation := ⟨⟨"", [], []⟩⟩

/-- The relation with the given parts, provided that no two fields have the same name. -/
def ofTuples (name : String) (schema : Schema) (tuples : List Tuple) : Except Error Relation :=
  match schema.repeatedName? with
  | some repeated => .error (.duplicateField repeated name)
  | none => .ok ⟨name, schema, tuples⟩

/-- A relation without tuples. -/
def empty (name : String) (schema : Schema) : Except Error Relation := ofTuples name schema []

/-- How many tuples the relation has. -/
def size (relation : Relation) : Nat := relation.tuples.length

/-- The relation has no tuples. -/
def isEmpty (relation : Relation) : Bool := relation.tuples.isEmpty

/-- A tuple seen through the fields of the relation. -/
def row (relation : Relation) (tuple : Tuple) : Row := ⟨relation.name, relation.schema, tuple⟩

/-- The tuples of the relation, each with the fields. -/
def rows (relation : Relation) : List Row := relation.tuples.map relation.row

/-- Where a field of the relation stands. -/
def position (relation : Relation) (name : String) : Except Error Nat :=
  match relation.schema.position? name with
  | some position => .ok position
  | none => .error (.unknownField name relation.name)

/-- The columns at the given positions, in the order of the positions. -/
def pick (relation : Relation) (positions : List Nat) : Relation :=
  { relation with
    schema := positions.filterMap fun position => relation.schema[position]?
    tuples := relation.tuples.map (Tuple.pick positions) }

/-- Relations are equal if they have the same name, fields of the same names in any order, and the
same tuples in the same order, read field by field. The domains of the fields do not matter. -/
protected def beq (left right : Relation) : Bool :=
  left.name == right.name && left.schema.length == right.schema.length &&
    left.tuples.length == right.tuples.length &&
    match left.schema.names.mapM right.schema.position? with
    | some positions =>
      (left.tuples.zip right.tuples).all fun (first, second) => first == second.pick positions
    | none => false

instance : BEq Relation := ⟨Relation.beq⟩

/-- A relation can be made exactly if the names of the fields differ, and it has the given parts. -/
theorem ofTuples_eq_ok_iff {name : String} {schema : Schema} {tuples : List Tuple}
    {relation : Relation} :
    ofTuples name schema tuples = .ok relation ↔
      schema.names.Nodup ∧ relation = ⟨name, schema, tuples⟩ := by
  rw [← Schema.repeatedName?_eq_none_iff]
  cases repeated : schema.repeatedName? <;> simp [ofTuples, repeated, eq_comm]

end Relation

end TypedRelations
