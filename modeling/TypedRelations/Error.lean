import TypedRelations.Condition.Fault
import TypedRelations.Domain

/-!
# Errors

Everything that an operation on relations can refuse, told apart by cause. The wording of all of
them is in `Error.message`; nothing else in the library looks at it.
-/

namespace TypedRelations

/-- Why a list of arguments does not fit the fields of a relation. -/
inductive ArityFault where
  /-- A flat list of names and values ends with a name. -/
  | oddCount (count : Nat)
  /-- A flat list has a value where a name is expected. -/
  | notAName (position : Nat) (found : Value)
  /-- There are more values than fields. -/
  | tooMany (limit count : Nat)
  deriving Repr

/-- The wording of an arity fault. -/
def ArityFault.message : ArityFault → String
  | .oddCount count =>
    "expected " ++ toString (count + 1) ++ s!" arguments instead of just {count}"
  | .notAName position found => s!"expected a field name at position {position}, found `{found}`"
  | .tooMany limit count => s!"expected at most {limit} fields, got {count}"

/-- Why an operation fails. -/
inductive Error where
  /-- The arguments of an insertion do not form pairs of a field and a value. -/
  | arity (relation : String) (fault : ArityFault)
  /-- There is no field of this name. -/
  | unknownField (name relation : String)
  /-- The domain of a field rejects a value. -/
  | validation (field : String) (value : Value) (rejection : Domain.Rejection)
  /-- The relation has this row already. -/
  | duplicateRow (relation : String)
  /-- Two fields of one relation have the same name, or a row gives one field two values. -/
  | duplicateField (name relation : String)
  /-- Two constraints cannot be combined. -/
  | clash (cause : Constraint.Clash)
  /-- A field mapping names a field that its relation lacks. -/
  | fieldMapping (field relation : String)
  /-- A condition is malformed or has no truth value. -/
  | condition (source : String) (fault : Condition.Fault)

/-- The wording of an error. -/
def Error.message : Error → String
  | .arity relation fault =>
    s!"invalid insert arguments for relation `{relation}`: " ++ fault.message
  | .unknownField name relation => s!"field `{name}` does not exist in `{relation}`"
  | .validation field value rejection =>
    s!"invalid value `{value}` for field `{field}`: " ++ rejection.message
  | .duplicateRow relation => s!"tuple already exists in `{relation}`"
  | .duplicateField name relation => s!"field `{name}` appears more than once in `{relation}`"
  | .clash cause => cause.message
  | .fieldMapping field relation =>
    s!"field mapping refers to `{field}`, which is not a field of `{relation}`"
  | .condition source fault => s!"invalid condition `{source}`: " ++ fault.message

instance : ToString Error := ⟨Error.message⟩

end TypedRelations
