import TypedRelations.Relation.Product

/-!
# Outer joins

An outer join is a join that does not lose the rows without a partner: after the combinations for
which the condition holds come the rows that are in none of them, filled up with nulls. A row
counts as matched if a combination holds its values.
-/

namespace TypedRelations.Relation

/-- Which relation keeps its rows without a partner. -/
inductive Side where
  | left
  | right
  | both
  deriving BEq, DecidableEq, Repr

namespace Side

/-- How the side is called in the name of the result. -/
def text : Side → String
  | .left => "left"
  | .right => "right"
  | .both => "full"

/-- The left relation keeps its rows. -/
def keepsLeft : Side → Bool
  | .left | .both => true
  | .right => false

/-- The right relation keeps its rows. -/
def keepsRight : Side → Bool
  | .right | .both => true
  | .left => false

end Side

/-- The tuples that begin no combination, with nulls for the fields of the other relation. -/
def unmatchedLeft (combinations : List Tuple) (width otherWidth : Nat) (tuples : List Tuple) :
    List Tuple :=
  (tuples.filter fun tuple => !combinations.any fun combination => combination.take width == tuple)
    |>.map (· ++ Tuple.nulls otherWidth)

/-- The tuples that end no combination, with nulls for the fields of the other relation. -/
def unmatchedRight (combinations : List Tuple) (otherWidth : Nat) (tuples : List Tuple) :
    List Tuple :=
  (tuples.filter fun tuple =>
      !combinations.any fun combination => combination.drop otherWidth == tuple)
    |>.map (Tuple.nulls otherWidth ++ ·)

/-- The join on a condition, followed by the rows without a partner that the side keeps. -/
def outerJoin (left right : Relation) (predicate : String) (side : Side) :
    Except Error Relation := do
  let joined ← left.thetaJoin right predicate
  let leftWidth := left.schema.length
  let rightWidth := right.schema.length
  let fromLeft :=
    if side.keepsLeft then unmatchedLeft joined.tuples leftWidth rightWidth left.tuples else []
  let fromRight :=
    if side.keepsRight then unmatchedRight joined.tuples leftWidth right.tuples else []
  return {
    name := left.name ++ " " ++ side.text ++ " outer join " ++ right.name
    schema := joined.schema
    tuples := joined.tuples ++ fromLeft ++ fromRight }

/-- The outer join that keeps the rows of both relations. -/
def fullOuterJoin (left right : Relation) (predicate : String) : Except Error Relation :=
  left.outerJoin right predicate .both

/-- The outer join that keeps the rows of the left relation. -/
def leftOuterJoin (left right : Relation) (predicate : String) : Except Error Relation :=
  left.outerJoin right predicate .left

/-- The outer join that keeps the rows of the right relation. -/
def rightOuterJoin (left right : Relation) (predicate : String) : Except Error Relation :=
  left.outerJoin right predicate .right

end TypedRelations.Relation
