import TypedRelations.Condition.Expr
import TypedRelations.Condition.Lexeme

/-!
# The grammar of conditions

```
condition   := conjunction ("or" conjunction)*
conjunction := negation ("and" negation)*
negation    := "not" negation | comparison
comparison  := operand (operator operand)?
operator    := "==" | "!=" | "<" | "<=" | ">" | ">=" | "in" | "not" "in"
operand     := literal | name | "(" condition ")"
```

Chains group to the left, comparisons do not chain, and parentheses leave no trace in the tree. Each
rule is a reader, which takes the lexemes of one phrase off the front of a list. `Reader.condition`
ties the knot; its bound on the depth may be the number of lexemes.
-/

namespace TypedRelations.Condition

/-- Takes a phrase off the front of a list of lexemes. -/
abbrev Reader := List Lexeme → Except Fault (Expr × List Lexeme)

/-- The fault of finding the next lexeme, or the end, where something else is expected. -/
def unexpected (expected : Expectation) : List Lexeme → Fault
  | [] => .unexpectedEnd expected
  | lexeme :: _ => .unexpectedToken expected lexeme.token lexeme.start

/-- The comparison that the lexemes begin with, and the lexemes after it; none if they begin with
no comparison. A `not` in this place has to be followed by `in`. -/
def leadingComparison? (lexemes : List Lexeme) :
    Except Fault (Option (Comparison × List Lexeme)) :=
  match lexemes with
  | ⟨.relator sign, _, _⟩ :: rest => .ok (some (.relator sign, rest))
  | ⟨.containment, _, _⟩ :: rest => .ok (some (.containment false, rest))
  | ⟨.negation, _, _⟩ :: ⟨.containment, _, _⟩ :: rest => .ok (some (.containment true, rest))
  | ⟨.negation, _, _⟩ :: rest => .error (unexpected .containmentAfterNot rest)
  | _ => .ok none

namespace Reader

/-- A literal, a name, or a phrase between parentheses. -/
def operand (inner : Reader) : Reader
  | ⟨.openParen, _, _⟩ :: rest => do
    let (expr, rest) ← inner rest
    match rest with
    | ⟨.closeParen, _, _⟩ :: rest => return (expr, rest)
    | rest => throw (unexpected .closingParen rest)
  | ⟨.null, _, _⟩ :: rest => .ok (.literal .null, rest)
  | ⟨.bool value, _, _⟩ :: rest => .ok (.literal (.bool value), rest)
  | ⟨.int value, _, _⟩ :: rest => .ok (.literal (.int value), rest)
  | ⟨.float value, _, _⟩ :: rest => .ok (.literal (.float value), rest)
  | ⟨.str value, _, _⟩ :: rest => .ok (.literal (.str value), rest)
  | ⟨.name word, _, _⟩ :: rest => .ok (.field word, rest)
  | lexemes => .error (unexpected .operand lexemes)

/-- An operand, or two of them with a comparison in between. -/
def comparison (inner : Reader) : Reader := fun lexemes => do
  let (left, rest) ← operand inner lexemes
  match ← leadingComparison? rest with
  | none => return (left, rest)
  | some (comparison, rest) =>
    let (right, rest) ← operand inner rest
    return (.compare left comparison right, rest)

/-- A comparison after any number of `not`. -/
def negation (inner : Reader) : Reader
  | ⟨.negation, _, _⟩ :: rest => do
    let (operand, rest) ← negation inner rest
    return (.not operand, rest)
  | lexemes => comparison inner lexemes

/-- Extends a conjunction by what follows it, at most the given number of times. -/
def moreConjuncts (inner : Reader) : Nat → Expr → Reader
  | bound + 1, left, ⟨.conjunction, _, _⟩ :: rest => do
    let (right, rest) ← negation inner rest
    moreConjuncts inner bound (.and left right) rest
  | _, left, lexemes => .ok (left, lexemes)

/-- Negations joined by `and`. -/
def conjunction (inner : Reader) (bound : Nat) : Reader := fun lexemes => do
  let (left, rest) ← negation inner lexemes
  moreConjuncts inner bound left rest

/-- Extends a disjunction by what follows it, at most the given number of times. -/
def moreDisjuncts (inner : Reader) (bound : Nat) : Nat → Expr → Reader
  | remaining + 1, left, ⟨.disjunction, _, _⟩ :: rest => do
    let (right, rest) ← conjunction inner bound rest
    moreDisjuncts inner bound remaining (.or left right) rest
  | _, left, lexemes => .ok (left, lexemes)

/-- Conjunctions joined by `or`. -/
def disjunction (inner : Reader) (bound : Nat) : Reader := fun lexemes => do
  let (left, rest) ← conjunction inner bound lexemes
  moreDisjuncts inner bound bound left rest

/-- A whole condition, with at most the given depth of parentheses and the given length of
chains. -/
def condition : Nat → Reader
  | 0 => fun lexemes => .error (unexpected .operand lexemes)
  | bound + 1 => disjunction (condition bound) bound

end Reader

/-- The tree of a list of lexemes, all of which have to belong to it. -/
def Expr.ofLexemes (lexemes : List Lexeme) : Except Fault Expr := do
  let (expr, rest) ← Reader.condition (lexemes.length + 1) lexemes
  if rest.isEmpty then return expr else throw (unexpected .endOfInput rest)

/-- The tree of a text. A piece that is no token is reported before anything the grammar has to
say. -/
def Expr.ofText (source : String) : Except Fault Expr := do
  Expr.ofLexemes (← Lexeme.ofText source)

end TypedRelations.Condition
