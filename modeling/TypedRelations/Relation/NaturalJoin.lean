import TypedRelations.Relation.Product

/-!
# Natural joins

A natural join combines the rows that agree on pairs of fields and shows each pair once: the right
field of a pair is left out. The remaining fields lose their qualifier again, unless a field of the
right relation would then have the name of a field of the left one.
-/

namespace TypedRelations.Relation

/-- The fields that both relations have, in the order of the left one, each paired with its
namesake. -/
def sharedPairs (left right : Relation) : List (String × String) :=
  (left.schema.names.filter right.schema.names.contains).map fun name => (name, name)

/-- The columns of the product that a list of pairs leaves out. Each pair is looked up in the left
relation first and then in the right one. -/
def droppedColumns (left right : Relation) (pairs : List (String × String)) :
    Except Error (List Nat) :=
  pairs.mapM fun (leftField, rightField) => do
    let _ ← left.position leftField
    return left.schema.length + (← right.position rightField)

/-- The product, restricted to the rows that agree on all pairs. -/
def joinOn (left right : Relation) (pairs : List (String × String)) : Except Error Relation :=
  if pairs.isEmpty then left.product right
  else left.thetaJoin right (" and ".intercalate (pairs.map (left.equalityText right)))

/-- The field at a position of the product under the name it has in a natural join. -/
def joinedField (left right : Relation) (position : Nat) (field : Field) : Field :=
  let plainName? :=
    if position < left.schema.length then unqualify? left.name field.name
    else (unqualify? right.name field.name).filter fun name => !left.schema.names.contains name
  { field with name := plainName?.getD field.name }

/-- The rows of the product that agree on the given pairs of a left and a right field, or on all
the fields that the relations share, without the right fields of the pairs. -/
def naturalJoin (left right : Relation) (pairs? : Option (List (String × String))) :
    Except Error Relation := do
  let pairs := pairs?.getD (left.sharedPairs right)
  let dropped ← left.droppedColumns right pairs
  let joined ← left.joinOn right pairs
  let kept := joined.schema.zipIdx.filter fun (_, position) => !dropped.contains position
  ofTuples (left.name ++ " |x| " ++ right.name)
    (kept.map fun (field, position) => left.joinedField right position field)
    (joined.tuples.map (Tuple.pick (kept.map fun (_, position) => position)))

end TypedRelations.Relation
