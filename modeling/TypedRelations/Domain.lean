import TypedRelations.Constraint
import TypedRelations.OrderedSet

/-!
# Domains

A domain accepts the values that it lists, and those of the types it allows that satisfy all of its
constraints. Null is of no type that could be allowed. Domains are combined part by part: listed
values and types as sets, and constraints kind by kind, each one on the left with the first of its
kind on the right. A kind that only one of them constrains stays unconstrained.
-/

namespace TypedRelations

/-- The legal values of a field. -/
structure Domain where
  values : OrderedSet Value
  types : OrderedSet ValueType
  constraints : List Constraint

namespace Domain

/-- The domain that admits nothing. -/
def empty : Domain := ⟨.empty, .empty, []⟩

instance : Inhabited Domain := ⟨empty⟩

/-- Lists further values. -/
def withValues (domain : Domain) (values : List Value) : Domain :=
  { domain with values := domain.values.insertAll values }

/-- Allows further types. -/
def withTypes (domain : Domain) (types : List ValueType) : Domain :=
  { domain with types := domain.types.insertAll types }

/-- Imposes further constraints. -/
def withConstraints (domain : Domain) (constraints : List Constraint) : Domain :=
  { domain with constraints := domain.constraints ++ constraints }

/-- The domain of every value but null. -/
def any : Domain := empty.withTypes [.int, .float, .str, .bool]

/-- Domains are equal if they list the same values, allow the same types, both in any order, and
have the same constraints in the same order. -/
instance : BEq Domain :=
  ⟨fun left right =>
    left.values == right.values && left.types == right.types &&
      left.constraints == right.constraints⟩

/-- Texts between braces, separated by commas. -/
def braced (texts : List String) : String := "\x7b" ++ ", ".intercalate texts ++ "\x7d"

/-- The listed values between braces. -/
def valuesText (values : OrderedSet Value) : String := braced (values.items.map Value.text)

/-- The allowed types between braces. -/
def typesText (types : OrderedSet ValueType) : String := braced (types.items.map ValueType.text)

/-- The text of a domain: all of its parts in order. -/
def text (domain : Domain) : String :=
  "Domain(values=" ++ valuesText domain.values ++ ", types=" ++ typesText domain.types ++
    ", constraints=[" ++ ", ".intercalate (domain.constraints.map Constraint.text) ++ "])"

instance : ToString Domain := ⟨text⟩

/-- Why a domain rejects a value. -/
inductive Rejection where
  /-- The value is null, and the listed values do not include null. -/
  | nullNotListed (values : OrderedSet Value)
  /-- The type of the value is allowed, but a constraint is violated. -/
  | violated (constraint : Constraint) (violation : Constraint.Violation)
  /-- The value is not listed and its type is not allowed. -/
  | notAllowed (values : OrderedSet Value) (type : ValueType) (types : OrderedSet ValueType)

/-- The wording of a rejection. -/
def Rejection.message : Rejection → String
  | .nullNotListed values => "null is not one of the allowed values " ++ valuesText values
  | .violated constraint violation => constraint.text ++ " violated: " ++ violation.message
  | .notAllowed values type types =>
    "not one of the allowed values " ++ valuesText values ++ " and type `" ++ type.text ++
      "` is not one of the allowed types " ++ typesText types

/-- Why a domain rejects a value; none if the value is legal. A listed value is legal whatever the
constraints say; of several violated constraints the first one is reported. -/
def rejection? (domain : Domain) (value : Value) : Option Rejection :=
  if domain.values.contains value then none
  else if value.isNull then some (.nullNotListed domain.values)
  else if domain.types.contains value.type then
    domain.constraints.findSome? fun constraint =>
      (constraint.violation? value).map (.violated constraint)
  else some (.notAllowed domain.values value.type domain.types)

/-- The value is legal in the domain. -/
def accepts (domain : Domain) (value : Value) : Bool := (domain.rejection? value).isNone

/-- A value is legal if it is listed, or if it is not null, of an allowed type, and accepted by
every constraint. -/
theorem accepts_eq (domain : Domain) (value : Value) :
    domain.accepts value =
      (domain.values.contains value ||
        (!value.isNull && domain.types.contains value.type &&
          domain.constraints.all (·.accepts value))) := by
  unfold accepts rejection?
  cases listed : domain.values.contains value <;> simp
  cases null : value.isNull <;> simp
  cases allowed : domain.types.contains value.type <;> simp
  rw [Bool.eq_iff_iff]
  simp [Constraint.accepts]

/-- The constraints of the left domain that the right one has a constraint of the same kind for,
each with the first such constraint. -/
def pairedConstraints (left right : Domain) : List (Constraint × Constraint) :=
  left.constraints.filterMap fun constraint =>
    (right.constraints.find? (·.sameKind constraint)).map (constraint, ·)

/-- The domain with the given values and types, and with the constraints of the two domains
combined kind by kind. The first clash is reported. -/
def combine (left right : Domain) (values : OrderedSet Value) (types : OrderedSet ValueType)
    (operation : Constraint → Constraint → Except Constraint.Clash Constraint) :
    Except Constraint.Clash Domain := do
  let constraints ← (left.pairedConstraints right).mapM fun (first, second) =>
    operation first second
  return ⟨values, types, constraints⟩

/-- The values and types of either domain, with the constraints united kind by kind. -/
def union (left right : Domain) : Except Constraint.Clash Domain :=
  left.combine right (left.values.union right.values) (left.types.union right.types)
    Constraint.union

/-- The values and types that the domains have in common, with the constraints intersected kind by
kind. -/
def inter (left right : Domain) : Except Constraint.Clash Domain :=
  left.combine right (left.values.inter right.values) (left.types.inter right.types)
    Constraint.inter

/-- The values and types that only the left domain has, with its constraints cut by those of the
right one. -/
def diff (left right : Domain) : Except Constraint.Clash Domain :=
  left.combine right (left.values.diff right.values) (left.types.diff right.types)
    Constraint.diff

end Domain

end TypedRelations
