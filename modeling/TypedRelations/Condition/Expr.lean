import TypedRelations.Condition.Fault

/-!
# Condition expressions

An expression combines literals and the fields of a row. Evaluating one asks a scope for the value
of each field. Values are never converted: two values of different types satisfy no comparison,
not even "is not equal to".
-/

namespace TypedRelations

/-- Where the fields of a condition get their values from. -/
structure Scope where
  name : String
  lookup : String → Option Value

namespace Scope

/-- The scope without fields, for conditions on literals alone. -/
def literals : Scope := ⟨"literals", fun _ => none⟩

end Scope

namespace Condition

/-- How two values are compared: by a relator, or by whether the left string is part of the right
one, plainly or negated. -/
inductive Comparison where
  | relator (sign : Relator)
  | containment (negated : Bool)
  deriving BEq, DecidableEq, Repr

/-- A condition as a tree. -/
inductive Expr where
  | literal (value : Value)
  | field (name : String)
  | not (operand : Expr)
  | and (left right : Expr)
  | or (left right : Expr)
  | compare (left : Expr) (comparison : Comparison) (right : Expr)
  deriving Repr, Inhabited

/-- Why an expression has no value in a scope. -/
inductive Failure where
  /-- The scope has no field of this name. -/
  | unresolved (name : String)
  /-- The operands do not fit the operator. -/
  | fault (fault : Fault)
  deriving Repr

/-- The relator holds between two values of one type. Equality is that of values; the others ask
for the order of the two and so never hold between nulls. -/
def Relator.holds (relator : Relator) (left right : Value) : Bool :=
  match relator with
  | .eq => left == right
  | .ne => left != right
  | .lt => left.order? right == some .lt
  | .le => left.order? right == some .lt || left.order? right == some .eq
  | .gt => left.order? right == some .gt
  | .ge => left.order? right == some .gt || left.order? right == some .eq

/-- The first list of characters stands somewhere in the second one. -/
def occursIn (part : List Char) : List Char → Bool
  | [] => part.isEmpty
  | character :: rest => part.isPrefixOf (character :: rest) || occursIn part rest

/-- The search finds exactly the infixes. -/
theorem occursIn_iff {part whole : List Char} : occursIn part whole = true ↔ part <:+: whole := by
  induction whole with
  | nil => simp [occursIn]
  | cons character rest ih =>
    simp only [occursIn, Bool.or_eq_true, List.isPrefixOf_iff_prefix, ih, List.infix_cons_iff]

/-- Compares two values. Values of different types satisfy no comparison; containment between
values of one type needs strings. -/
def Comparison.test (comparison : Comparison) (left right : Value) : Except Failure Bool :=
  if left.type ≠ right.type then .ok false
  else
    match comparison with
    | .relator sign => .ok (sign.holds left right)
    | .containment negated =>
      match left, right with
      | .str part, .str whole => .ok (occursIn part.toList whole.toList != negated)
      | _, _ => .error (.fault (.notStrings left right))

/-- Values of different types satisfy no comparison. -/
theorem Comparison.test_of_type_ne {left right : Value} (types : left.type ≠ right.type)
    (comparison : Comparison) : comparison.test left right = .ok false :=
  if_pos types

/-- Relators fail for no values, and hold between values of one type only. -/
theorem Comparison.test_relator (sign : Relator) (left right : Value) :
    (relator sign).test left right = .ok (left.type == right.type && sign.holds left right) := by
  by_cases types : left.type = right.type
  · rw [test, if_neg (not_not_intro types), beq_iff_eq.mpr types, Bool.true_and]
  · rw [test_of_type_ne types, beq_false_of_ne types, Bool.false_and]

/-- The truth value that an operand has to be. -/
def truth (value : Value) : Except Failure Bool :=
  match value with
  | .bool truth => .ok truth
  | _ => .error (.fault (.notBoolean value))

namespace Expr

/-- The value of an expression in a scope. A connective evaluates its left operand first, and its
right one only if the left one does not decide the result. -/
def eval (scope : Scope) : Expr → Except Failure Value
  | .literal value => .ok value
  | .field name =>
    match scope.lookup name with
    | some value => .ok value
    | none => .error (.unresolved name)
  | .not operand => do
    let holds ← truth (← operand.eval scope)
    return .bool !holds
  | .and left right => do
    let holds ← truth (← left.eval scope)
    if holds then return .bool (← truth (← right.eval scope)) else return .bool false
  | .or left right => do
    let holds ← truth (← left.eval scope)
    if holds then return .bool true else return .bool (← truth (← right.eval scope))
  | .compare left comparison right => do
    let leftValue ← left.eval scope
    let rightValue ← right.eval scope
    return .bool (← comparison.test leftValue rightValue)

/-- The truth value of an expression in a scope. -/
def holds (expr : Expr) (scope : Scope) : Except Failure Bool := do
  truth (← expr.eval scope)

end Expr

end Condition

end TypedRelations
