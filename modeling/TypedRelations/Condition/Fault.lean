import TypedRelations.Condition.Token

/-!
# What can be wrong with a condition

A text is not a condition if a piece of it is no token, or if a token stands where the grammar
expects another. A condition that reads well can still fail when it is evaluated: where a truth
value is needed, another value may turn up, and containment is defined on strings alone.
-/

namespace TypedRelations.Condition

/-- What the grammar expects at a place where something else was found. -/
inductive Expectation where
  | operand
  | closingParen
  | containmentAfterNot
  | endOfInput
  deriving BEq, DecidableEq, Repr

/-- The wording of an expectation. -/
def Expectation.text : Expectation → String
  | .operand => "an operand"
  | .closingParen => "`)`"
  | .containmentAfterNot => "`in` after `not`"
  | .endOfInput => "end of input"

/-- Why a text is not a condition, or why a condition has no truth value. -/
inductive Fault where
  /-- No token begins at the position, which counts the bytes before it in UTF-8. -/
  | unexpectedText (text : String) (position : Nat)
  /-- The grammar does not allow the token found at the position. -/
  | unexpectedToken (expected : Expectation) (found : Token) (position : Nat)
  /-- The text ends too early. -/
  | unexpectedEnd (expected : Expectation)
  /-- A value stands where a truth value is needed. -/
  | notBoolean (value : Value)
  /-- Containment was asked of values that are not strings. -/
  | notStrings (left right : Value)
  deriving Repr

/-- The wording of a fault. -/
def Fault.message : Fault → String
  | .unexpectedText text position => s!"unexpected `{text}` at position {position}"
  | .unexpectedToken expected found position =>
    "expected " ++ expected.text ++ s!", found `{found}` at position {position}"
  | .unexpectedEnd expected => "expected " ++ expected.text ++ ", found end of input"
  | .notBoolean value => s!"expected a boolean, found `{value}`"
  | .notStrings left right => s!"`in` expects string operands, found `{left}` and `{right}`"

end TypedRelations.Condition
