import TypedRelations.Relation.Insertion
import TypedRelations.Relation.NaturalJoin
import TypedRelations.Relation.OuterJoin
import TypedRelations.Relation.SetOperation
import TypedRelations.Table

/-!
# A tour of the algebra

Two small relations about people and a few relations of numbers, put through every operation of
the algebra. `Demonstration.relations` is the text that the command line prints: each result under
its name.
-/

namespace TypedRelations.Demonstration

/-- Why the tour cannot be given. -/
inductive Failure where
  /-- An operation failed that should have succeeded. -/
  | unexpected (error : Error)
  /-- A row was stored that should have been refused. -/
  | notRefused

/-- The wording of a failure. -/
def Failure.message : Failure → String
  | .unexpected error => error.message
  | .notRefused => "expected the insert to be rejected"

/-- The result of an operation that is not meant to fail. -/
def expect {α : Type} (result : Except Error α) : Except Failure α :=
  result.mapError .unexpected

/-- Checks that a relation refuses a row because of its values or because it has the row
already. -/
def expectRefusal (relation : Relation) (entries : List (String × Value)) :
    Except Failure Unit :=
  match relation.insert entries with
  | .error (.validation ..) | .error (.duplicateRow _) => .ok ()
  | .error error => .error (.unexpected error)
  | .ok _ => .error .notRefused

/-- The names of people. An identifier is one of four numbers or a string of one or two
characters. -/
def people : Except Failure Relation := do
  let identifier : Field := ⟨"id", Domain.empty
    |>.withValues [.int 1, .int 2, .int 3, .int 4]
    |>.withTypes [.str]
    |>.withConstraints [.stringLength 1 2]⟩
  let name : Field := ⟨"name", Domain.empty
    |>.withValues (["Pupuce", "Japon", "Bocdom", "Stove", "Poyz", "Salohy"].map .str)
    |>.withConstraints [.stringLength 1 6]⟩
  let relation ← expect (Relation.empty "Person" [identifier, name])
  let relation ← expect (relation.insert [("id", .int 1), ("name", .str "Pupuce")])
  expectRefusal relation [("id", .int 2), ("name", .str "RAKOTOBE")]
  let relation ← expect (relation.insert [("id", .int 3), ("name", .str "Japon")])
  expect (relation.insert [("id", .str "20"), ("name", .str "Salohy")])

/-- The ages of people. -/
def details : Except Failure Relation := do
  let identifier : Field := ⟨"id", Domain.empty
    |>.withTypes [.int, .str]
    |>.withConstraints [.range 1 32]⟩
  let age : Field := ⟨"age", Domain.empty
    |>.withTypes [.int]
    |>.withConstraints [.range 16 32, .positive none]⟩
  let relation ← expect (Relation.empty "PersonDetails" [identifier, age])
  let relation ← expect (relation.insert [("id", .int 1), ("age", .int 16)])
  expectRefusal relation [("id", .int 2), ("age", .int 38)]
  let relation ← expect (relation.insert [("id", .int 3), ("age", .int 20)])
  expectRefusal relation [("id", .int 100), ("age", .int 20)]
  expect (relation.insert [("id", .str "20"), ("age", .int 32)])

/-- A relation with one field of integers. -/
def numbers (name : String) (integers : List Int64) : Except Failure Relation := do
  let relation ← expect (Relation.empty name [⟨"id", Domain.empty.withTypes [.int]⟩])
  integers.foldlM (fun relation integer => expect (relation.insert [("id", .int integer)])) relation

/-- A relation as the tour shows it: its name, its table and an empty line. -/
def exhibit (relation : Relation) : String :=
  relation.name ++ "\n" ++ Table.render relation ++ "\n\n"

/-- The relations of the tour, in order. -/
def results : Except Failure (List Relation) := do
  let people ← people
  let details ← details
  let first ← numbers "A" [1, 2]
  let second ← numbers "B" [2, 3]
  let lower ← numbers "Relation1" [1, 2, 3]
  let upper ← numbers "Relation2" [2, 3, 4]
  return [
    people,
    details,
    ← expect (people.project ["id"]),
    ← expect (people.select "name == 'Japon' or id == '20'"),
    ← expect (people.product details),
    ← expect (people.thetaJoin details
      "Person.id == PersonDetails.id and PersonDetails.age > 16"),
    ← expect (people.equiJoin details "id" "id"),
    ← expect (people.naturalJoin details none),
    ← expect (first.fullOuterJoin second "A.id == B.id"),
    ← expect (first.leftOuterJoin second "A.id == B.id"),
    ← expect (first.rightOuterJoin second "A.id == B.id"),
    ← expect (lower.union upper [("id", "id")]),
    ← expect (lower.inter upper [("id", "id")]),
    ← expect (lower.diff upper [("id", "id")])]

/-- The text of the tour. -/
def relations : Except Failure String := do
  return String.join ((← results).map exhibit)

end TypedRelations.Demonstration
