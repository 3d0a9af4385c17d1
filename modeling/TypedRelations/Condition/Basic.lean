import TypedRelations.Condition.Grammar
import TypedRelations.Error

/-!
# Conditions

A condition is a Boolean expression over the fields of a row, together with the text it was read
from, which names it in errors.
-/

namespace TypedRelations

/-- A condition that has been read. -/
structure Condition where
  source : String
  expr : Condition.Expr
  deriving Repr, Inhabited

namespace Condition

/-- Reads a condition. -/
def parse (source : String) : Except Error Condition :=
  match Expr.ofText source with
  | .ok expr => .ok ⟨source, expr⟩
  | .error fault => .error (.condition source fault)

/-- A text is read in two steps. -/
theorem parse_eq_ok {source : String} {lexemes : List Lexeme} {expr : Expr}
    (scanned : Lexeme.ofText source = .ok lexemes) (read : Expr.ofLexemes lexemes = .ok expr) :
    parse source = .ok ⟨source, expr⟩ := by
  have whole : Expr.ofText source = .ok expr := by
    rw [Expr.ofText, scanned]
    exact read
  rw [parse, whole]

/-- The truth value of a condition in a scope. -/
def evaluate (condition : Condition) (scope : Scope) : Except Error Bool :=
  match condition.expr.holds scope with
  | .ok truth => .ok truth
  | .error (.unresolved name) => .error (.unknownField name scope.name)
  | .error (.fault fault) => .error (.condition condition.source fault)

/-- Reads a condition on literals and evaluates it. -/
def evaluateText (source : String) : Except Error Bool := do
  (← parse source).evaluate .literals

instance : ToString Condition := ⟨source⟩

end Condition

end TypedRelations
