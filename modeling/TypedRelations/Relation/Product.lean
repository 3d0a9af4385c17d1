import TypedRelations.Condition.Name
import TypedRelations.Relation.Selection

/-!
# Products and joins on a condition

The product of two relations has a row for every pair of rows. Its fields are those of both
relations, each qualified by the name of the relation it comes from, so that a condition on the
product can tell them apart. A join is a selection from the product.
-/

namespace TypedRelations.Relation

/-- The fields of both relations, qualified by the names of the relations. -/
def productSchema (left right : Relation) : Schema :=
  left.schema.qualified left.name ++ right.schema.qualified right.name

/-- Every tuple of the left relation followed by every tuple of the right one. -/
def productTuples (left right : Relation) : List Tuple :=
  left.tuples.flatMap fun first => right.tuples.map fun second => first ++ second

/-- All combinations of a row of the left relation with a row of the right one. -/
def product (left right : Relation) : Except Error Relation :=
  ofTuples (left.name ++ " x " ++ right.name) (left.productSchema right)
    (left.productTuples right)

/-- The combinations for which a condition on the qualified fields holds. -/
def thetaJoin (left right : Relation) (predicate : String) : Except Error Relation := do
  (← left.product right).select predicate

/-- The condition that a field of the left relation equals a field of the right one. -/
def equalityText (left right : Relation) (pair : String × String) : String :=
  Condition.nameText (qualify left.name pair.1) ++ " == " ++
    Condition.nameText (qualify right.name pair.2)

/-- The combinations in which a field of the left relation equals a field of the right one. -/
def equiJoin (left right : Relation) (leftField rightField : String) : Except Error Relation := do
  let _ ← left.position leftField
  let _ ← right.position rightField
  left.thetaJoin right (left.equalityText right (leftField, rightField))

end TypedRelations.Relation
