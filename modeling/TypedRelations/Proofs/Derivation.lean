import TypedRelations.Relation.Insertion
import TypedRelations.Relation.NaturalJoin
import TypedRelations.Relation.OuterJoin
import TypedRelations.Relation.Renaming
import TypedRelations.Relation.SetOperation

/-!
# Relations that a client can derive

A client starts with relations without tuples and goes on with what the operations make of the
relations at hand; a call that fails makes none. `Derived` is the closure under the calls of a given
repertoire, and `Reachable` is the closure under all of them.
-/

namespace TypedRelations.Relation

/-- An operation on one relation, with its arguments. -/
inductive Operation where
  | insert (entries : List (String × Value))
  | insertFlat (arguments : List Value)
  | copy
  | renamed (name : String)
  | qualified (qualifier : String)
  | unqualified (qualifier : String)
  | select (predicate : String)
  | project (names : List String)

/-- What an operation makes of a relation. Relations are values, so a copy is the relation
itself. -/
def Operation.apply (relation : Relation) : Operation → Except Error Relation
  | .insert entries => relation.insert entries
  | .insertFlat arguments => relation.insertFlat arguments
  | .copy => .ok relation
  | .renamed name => .ok (relation.renamed name)
  | .qualified qualifier => .ok (relation.qualified qualifier)
  | .unqualified qualifier => relation.unqualified qualifier
  | .select predicate => relation.select predicate
  | .project names => relation.project names

/-- An operation on two relations, with its further arguments. -/
inductive Combination where
  | product
  | thetaJoin (predicate : String)
  | equiJoin (leftField rightField : String)
  | naturalJoin (pairs? : Option (List (String × String)))
  | fullOuterJoin (predicate : String)
  | leftOuterJoin (predicate : String)
  | rightOuterJoin (predicate : String)
  | union (mapping : List (String × String))
  | inter (mapping : List (String × String))
  | diff (mapping : List (String × String))

/-- What a combination makes of two relations. -/
def Combination.apply (left right : Relation) : Combination → Except Error Relation
  | .product => left.product right
  | .thetaJoin predicate => left.thetaJoin right predicate
  | .equiJoin leftField rightField => left.equiJoin right leftField rightField
  | .naturalJoin pairs? => left.naturalJoin right pairs?
  | .fullOuterJoin predicate => left.fullOuterJoin right predicate
  | .leftOuterJoin predicate => left.leftOuterJoin right predicate
  | .rightOuterJoin predicate => left.rightOuterJoin right predicate
  | .union mapping => left.union right mapping
  | .inter mapping => left.inter right mapping
  | .diff mapping => left.diff right mapping

/-- The calls that a client may make. -/
structure Repertoire where
  creates : String → Schema → Prop
  applies : Operation → Prop
  combines : Combination → Prop

namespace Repertoire

/-- Every call with every argument. -/
def full : Repertoire := ⟨fun _ _ => True, fun _ => True, fun _ => True⟩

/-- Every call but the two that take tuples and domains away from a relation. -/
def withoutReductions : Repertoire :=
  { full with combines := fun
      | .inter _ | .diff _ => False
      | _ => True }

end Repertoire

/-- The relations that the calls of a repertoire build up. -/
inductive Derived (repertoire : Repertoire) : Relation → Prop where
  | create {name : String} {schema : Schema} {relation : Relation}
      (allowed : repertoire.creates name schema)
      (made : Relation.empty name schema = .ok relation) : Derived repertoire relation
  | apply {operand relation : Relation} (operation : Operation)
      (allowed : repertoire.applies operation) (derived : Derived repertoire operand)
      (made : operation.apply operand = .ok relation) : Derived repertoire relation
  | combine {left right relation : Relation} (combination : Combination)
      (allowed : repertoire.combines combination)
      (leftDerived : Derived repertoire left) (rightDerived : Derived repertoire right)
      (made : combination.apply left right = .ok relation) : Derived repertoire relation

/-- The relations that any calls build up. -/
def Reachable (relation : Relation) : Prop := Derived .full relation

theorem derived_empty {repertoire : Repertoire} {name : String} {schema : Schema}
    (allowed : repertoire.creates name schema) (distinct : schema.names.Nodup) :
    Derived repertoire ⟨name, schema, []⟩ :=
  .create allowed (ofTuples_eq_ok_iff.mpr ⟨distinct, rfl⟩)

/-- A client who may do anything reaches what a restricted client does. -/
theorem Derived.reachable {repertoire : Repertoire} {relation : Relation}
    (derived : Derived repertoire relation) : relation.Reachable := by
  induction derived with
  | create _ made => exact .create trivial made
  | apply operation _ _ made ih => exact .apply operation trivial ih made
  | combine combination _ _ _ made leftIH rightIH =>
      exact .combine combination trivial leftIH rightIH made

end TypedRelations.Relation
