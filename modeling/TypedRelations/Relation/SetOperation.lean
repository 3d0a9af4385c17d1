import TypedRelations.Relation.Basic

/-!
# Union, intersection and difference

Two relations are combined as sets under a mapping, which pairs fields of the left one with fields
of the right one. The result has one field per pair, under the name of the left field, and its
domain is combined in the way the tuples are.
-/

namespace TypedRelations.Relation

/-- A pair of a mapping with the places and the domains of its two fields. -/
structure MappedField where
  name : String
  leftPosition : Nat
  rightPosition : Nat
  leftDomain : Domain
  rightDomain : Domain

/-- The place and the domain of a field that a mapping names. -/
def mapped (relation : Relation) (name : String) : Except Error (Nat × Domain) :=
  match relation.schema.position? name, relation.schema.find? name with
  | some position, some field => .ok (position, field.domain)
  | _, _ => .error (.fieldMapping name relation.name)

/-- Looks up the fields of a mapping, each pair in the left relation first. -/
def mappedFields (left right : Relation) (mapping : List (String × String)) :
    Except Error (List MappedField) :=
  mapping.mapM fun (leftField, rightField) => do
    let (leftPosition, leftDomain) ← left.mapped leftField
    let (rightPosition, rightDomain) ← right.mapped rightField
    return ⟨leftField, leftPosition, rightPosition, leftDomain, rightDomain⟩

/-- The columns of the left relation that a mapping names, in the order of the mapping. -/
def leftTuples (relation : Relation) (mapping : List MappedField) : List Tuple :=
  relation.tuples.map (Tuple.pick (mapping.map MappedField.leftPosition))

/-- The columns of the right relation that a mapping names, in the order of the mapping. -/
def rightTuples (relation : Relation) (mapping : List MappedField) : List Tuple :=
  relation.tuples.map (Tuple.pick (mapping.map MappedField.rightPosition))

/-- The fields of a set operation, with the domains of each pair combined. -/
def combinedSchema (mapping : List MappedField)
    (combine : Domain → Domain → Except Constraint.Clash Domain) : Except Error Schema :=
  mapping.mapM fun pair =>
    match combine pair.leftDomain pair.rightDomain with
    | .ok domain => .ok ⟨pair.name, domain⟩
    | .error cause => .error (.clash cause)

/-- The set operation that combines the domains of the mapped fields in the one way and the mapped
columns in the other. The word stands between the names of the relations. -/
def setOperation (left right : Relation) (word : String)
    (combine : Domain → Domain → Except Constraint.Clash Domain)
    (gather : List Tuple → List Tuple → List Tuple) (mapping : List (String × String)) :
    Except Error Relation := do
  let fields ← left.mappedFields right mapping
  let schema ← combinedSchema fields combine
  ofTuples (left.name ++ word ++ right.name) schema
    (gather (left.leftTuples fields) (right.rightTuples fields))

/-- The tuples of either relation, each at its first occurrence. -/
def union (left right : Relation) (mapping : List (String × String)) : Except Error Relation :=
  left.setOperation right " union " Domain.union
    (fun lefts rights => (OrderedSet.ofList (lefts ++ rights)).items) mapping

/-- The tuples of the left relation that the right one has as well. -/
def inter (left right : Relation) (mapping : List (String × String)) : Except Error Relation :=
  left.setOperation right " intersection " Domain.inter
    (fun lefts rights => lefts.filter fun tuple => rights.contains tuple) mapping

/-- The tuples of the left relation that the right one lacks. -/
def diff (left right : Relation) (mapping : List (String × String)) : Except Error Relation :=
  left.setOperation right " difference " Domain.diff
    (fun lefts rights => lefts.filter fun tuple => !rights.contains tuple) mapping

end TypedRelations.Relation
