import TypedRelations.Proofs.Condition.Evaluation

/-!
# The fields that a condition refers to

A condition asks its scope for the fields whose names occur in it and for nothing else
(`evaluate_congr`). The name of the scope is seen in errors only (`evaluate_eq_ok_congr`), and only
in that of an unknown field (`evaluate_sameUpToScope`).
-/

namespace TypedRelations.Condition

namespace Expr

/-- The names of the fields that an expression refers to, from left to right. -/
def fieldNames : Expr → List String
  | .literal _ => []
  | .field name => [name]
  | .not operand => operand.fieldNames
  | .and left right => left.fieldNames ++ right.fieldNames
  | .or left right => left.fieldNames ++ right.fieldNames
  | .compare left _ right => left.fieldNames ++ right.fieldNames

variable {first second : Scope}

/-- Evaluation depends only on the values of the fields that the expression refers to. -/
theorem eval_congr {expr : Expr}
    (agree : ∀ name ∈ expr.fieldNames, first.lookup name = second.lookup name) :
    expr.eval first = expr.eval second := by
  induction expr with
  | literal value => rfl
  | field name =>
      have same := agree name (by simp [fieldNames])
      simp only [eval, same]
  | not operand ih =>
      simp only [eval]
      rw [ih agree]
  | and left right leftIH rightIH =>
      simp only [eval]
      rw [leftIH fun name member => agree name (by simp [fieldNames, member]),
        rightIH fun name member => agree name (by simp [fieldNames, member])]
  | or left right leftIH rightIH =>
      simp only [eval]
      rw [leftIH fun name member => agree name (by simp [fieldNames, member]),
        rightIH fun name member => agree name (by simp [fieldNames, member])]
  | compare left comparison right leftIH rightIH =>
      simp only [eval]
      rw [leftIH fun name member => agree name (by simp [fieldNames, member]),
        rightIH fun name member => agree name (by simp [fieldNames, member])]

end Expr

/-- Scopes of one name that agree on the fields of a condition cannot be told apart by it. -/
theorem evaluate_congr {condition : Condition} {first second : Scope}
    (name : first.name = second.name)
    (agree : ∀ name ∈ condition.expr.fieldNames, first.lookup name = second.lookup name) :
    condition.evaluate first = condition.evaluate second := by
  simp only [evaluate, Expr.holds, Expr.eval_congr agree, name]

/-- Scopes that agree on the fields of a condition give it the same truth value. -/
theorem evaluate_eq_ok_congr {condition : Condition} {first second : Scope} {holds : Bool}
    (agree : ∀ name ∈ condition.expr.fieldNames, first.lookup name = second.lookup name) :
    condition.evaluate first = .ok holds ↔ condition.evaluate second = .ok holds := by
  simp only [evaluate_eq_ok, Expr.holds, Expr.eval_congr agree]

/-- Two outcomes are the same truth value or the same error, except that the error of an unknown
field names the one scope in the first outcome and the other scope in the second. -/
inductive SameUpToScope (scope other : String) : Except Error Bool → Except Error Bool → Prop where
  | truth (holds : Bool) : SameUpToScope scope other (.ok holds) (.ok holds)
  | unknownField (name : String) :
      SameUpToScope scope other (.error (.unknownField name scope))
        (.error (.unknownField name other))
  | fault (source : String) (fault : Fault) :
      SameUpToScope scope other (.error (.condition source fault))
        (.error (.condition source fault))

/-- Scopes that agree on the fields of a condition can be told apart by their names only. -/
theorem evaluate_sameUpToScope {condition : Condition} (first second : Scope)
    (agree : ∀ name ∈ condition.expr.fieldNames, first.lookup name = second.lookup name) :
    SameUpToScope first.name second.name (condition.evaluate first)
      (condition.evaluate second) := by
  rw [evaluate, evaluate, Expr.holds, Expr.holds, Expr.eval_congr agree]
  cases condition.expr.eval second >>= truth with
  | ok holds => exact .truth holds
  | error failure =>
      cases failure with
      | unresolved name => exact .unknownField name
      | fault fault => exact .fault condition.source fault

end TypedRelations.Condition
