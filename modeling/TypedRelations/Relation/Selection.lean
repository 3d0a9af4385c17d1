import TypedRelations.Condition.Basic
import TypedRelations.Relation.Basic

/-!
# Selection and projection

A selection keeps the rows that satisfy a condition, and a projection keeps some of the columns.
Neither changes the order of what it keeps, and a projection keeps rows that have become equal.
-/

namespace TypedRelations.Relation

/-- The tuples that pass a test, which may fail; the first failure ends it. -/
def keepWhere (test : Tuple → Except Error Bool) : List Tuple → Except Error (List Tuple)
  | [] => .ok []
  | tuple :: rest => do
    let passes ← test tuple
    let kept ← keepWhere test rest
    return if passes then tuple :: kept else kept

/-- The rows for which a condition holds. -/
def select (relation : Relation) (predicate : String) : Except Error Relation := do
  let condition ← Condition.parse predicate
  let tuples ← keepWhere (fun tuple => condition.evaluate (relation.row tuple).scope)
    relation.tuples
  return { relation with name := relation.name ++ " where: " ++ predicate, tuples := tuples }

/-- Stands for all the fields of a relation. -/
def everyField : String := "*"

/-- The positions of the fields with the given names, in the order of the fields. -/
def positionsOf (relation : Relation) (names : List String) : List Nat :=
  (relation.schema.names.zipIdx.filter fun (name, _) =>
    names.contains everyField || names.contains name).map fun (_, position) => position

/-- The columns with the given names, in the order in which the relation has them. -/
def project (relation : Relation) (names : List String) : Except Error Relation :=
  match names.find? fun name => name != everyField && !relation.schema.names.contains name with
  | some missing => .error (.unknownField missing relation.name)
  | none => .ok (relation.pick (relation.positionsOf names))

end TypedRelations.Relation
