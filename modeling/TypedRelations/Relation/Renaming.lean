import TypedRelations.Relation.Basic

/-!
# Renaming

A relation can be given another name, and its fields can be given or relieved of a qualifier.
Putting a qualifier in front of all names keeps them different from each other; taking one off may
make two of them equal.
-/

namespace TypedRelations.Relation

/-- The relation under another name. -/
def renamed (relation : Relation) (name : String) : Relation := { relation with name := name }

/-- The relation with a qualifier in front of the names of all fields. -/
def qualified (relation : Relation) (qualifier : String) : Relation :=
  { relation with schema := relation.schema.qualified qualifier }

/-- The relation without the qualifier in the names that have it. -/
def unqualified (relation : Relation) (qualifier : String) : Except Error Relation :=
  ofTuples relation.name (relation.schema.unqualified qualifier) relation.tuples

end TypedRelations.Relation
