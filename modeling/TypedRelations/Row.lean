import TypedRelations.Assignment
import TypedRelations.Field

/-!
# Tuples and rows

A tuple holds one value per field and knows nothing about names. A row is a tuple together with
the schema it belongs to, so that its values can be asked for by name.
-/

namespace TypedRelations

/-- The values of one row, in the order of the fields. -/
abbrev Tuple := List Value

namespace Tuple

/-- The values at the given positions, in the order of the positions. -/
def pick (positions : List Nat) (tuple : Tuple) : Tuple :=
  positions.filterMap fun position => tuple[position]?

/-- A tuple of nulls. -/
def nulls (width : Nat) : Tuple := List.replicate width .null

@[simp] theorem length_nulls (width : Nat) : (nulls width).length = width := List.length_replicate

end Tuple

/-- A tuple seen through the fields of the relation that holds it. -/
structure Row where
  relation : String
  schema : Schema
  tuple : Tuple

namespace Row

/-- The value of the field with the given name. -/
def get? (row : Row) (name : String) : Option Value :=
  (row.schema.position? name).bind fun position => row.tuple[position]?

/-- The names of the fields with their values, in order. -/
def entries (row : Row) : List (String × Value) := row.schema.names.zip row.tuple

/-- The row as an assignment of values to names. -/
def toAssignment (row : Row) : Assignment := .ofList row.entries

/-- The row as the place where a condition looks up its fields. -/
def scope (row : Row) : Scope := ⟨row.relation, row.get?⟩

end Row

end TypedRelations
