import TypedRelations.Relation.Basic

/-!
# Inserting rows

A row is inserted by naming fields and giving their values; the fields that are not named hold null.
Each value is checked against the domain of its field, in the order given, and then the whole tuple
against those stored already. The nulls of fields that are not named are not checked.
-/

namespace TypedRelations.Relation

/-- Checks named values one after the other. The names already given come first. -/
def checkEntries (relation : Relation) (given : List String) :
    List (String × Value) → Except Error Unit
  | [] => .ok ()
  | (name, value) :: rest =>
    match relation.schema.find? name with
    | none => .error (.unknownField name relation.name)
    | some field =>
      if given.contains name then .error (.duplicateField name relation.name)
      else
        match field.rejection? value with
        | some rejection => .error (.validation name value rejection)
        | none => relation.checkEntries (name :: given) rest

/-- The tuple that holds the given values, and null in every field that is not named. -/
def tupleOf (relation : Relation) (entries : List (String × Value)) : Tuple :=
  relation.schema.names.map fun name => (entries.lookup name).getD .null

/-- The relation with one more row, given by the values of some of its fields. -/
def insert (relation : Relation) (entries : List (String × Value)) : Except Error Relation :=
  if relation.schema.length < entries.length then
    .error (.arity relation.name (.tooMany relation.schema.length entries.length))
  else do
    relation.checkEntries [] entries
    if relation.tuples.contains (relation.tupleOf entries) then
      .error (.duplicateRow relation.name)
    else
      .ok { relation with tuples := relation.tuples ++ [relation.tupleOf entries] }

/-- Reads a flat list of names and values, which begins at the given position. -/
def entriesFrom (position : Nat) : List Value → Except ArityFault (List (String × Value))
  | [] => .ok []
  | .str name :: value :: rest => (entriesFrom (position + 2) rest).map ((name, value) :: ·)
  | found :: _ => .error (.notAName position found)

/-- The named values of a flat list in which names and values take turns. -/
def entriesOfFlat (arguments : List Value) : Except ArityFault (List (String × Value)) :=
  if arguments.length % 2 = 1 then .error (.oddCount arguments.length)
  else entriesFrom 0 arguments

/-- The relation with one more row, given by names and values that take turns. -/
def insertFlat (relation : Relation) (arguments : List Value) : Except Error Relation :=
  match entriesOfFlat arguments with
  | .ok entries => relation.insert entries
  | .error fault => .error (.arity relation.name fault)

end TypedRelations.Relation
