import TypedRelations.Assignment
import TypedRelations.Proofs.Condition.FieldNames

/-!
# Conditions that cannot fail

Evaluating a condition fails if a name is unknown, if an operand of a connective is no truth value,
or if containment is asked of two values of one type that are not strings. The last two can be
excluded by the shape of the condition, without the types of the fields (`Condition.isSafe`), and
then it has a truth value in every scope that knows its names (`evaluate_succeeds`).
-/

namespace TypedRelations

theorem Value.exists_str_of_type {value : Value} (isStr : value.type = .str) :
    ∃ text, value = .str text := by
  cases value with
  | str text => exact ⟨text, rfl⟩
  | _ => nomatch isStr

namespace Condition

/-- The comparison is by a relator. -/
def Comparison.isRelator : Comparison → Bool
  | .relator _ => true
  | .containment _ => false

namespace Expr

/-- The expression is a comparison, a connective or a Boolean literal. -/
def isTruth : Expr → Bool
  | .literal (.bool _) | .not _ | .and _ _ | .or _ _ | .compare _ _ _ => true
  | .literal _ | .field _ => false

/-- The expression is a string literal. -/
def isText : Expr → Bool
  | .literal (.str _) => true
  | _ => false

/-- Everywhere in the expression, the operands of a connective are comparisons, connectives or
Boolean literals, and one operand of containment is a string literal. -/
def operandsFit : Expr → Bool
  | .literal _ | .field _ => true
  | .not operand => operand.isTruth && operand.operandsFit
  | .and left right | .or left right =>
    left.isTruth && right.isTruth && left.operandsFit && right.operandsFit
  | .compare left comparison right =>
    (comparison.isRelator || left.isText || right.isText) &&
      left.operandsFit && right.operandsFit

variable {scope : Scope} {expr : Expr} {value : Value}

/-- Comparisons and connectives have no values but truth values. -/
theorem exists_bool_of_isTruth (isTruth : expr.isTruth = true)
    (evaluated : expr.eval scope = .ok value) : ∃ holds, value = .bool holds := by
  cases expr with
  | literal literal =>
      cases literal with
      | bool holds => exact ⟨holds, (Except.ok.inj evaluated).symm⟩
      | _ => nomatch isTruth
  | field name => nomatch isTruth
  | not operand =>
      rw [eval_not, bind_eq_ok] at evaluated
      obtain ⟨holds, -, same⟩ := evaluated
      exact ⟨!holds, (Except.ok.inj same).symm⟩
  | and left right =>
      rw [eval_and, bind_eq_ok] at evaluated
      obtain ⟨holds, -, later⟩ := evaluated
      cases holds with
      | false => exact ⟨false, (Except.ok.inj later).symm⟩
      | true =>
          obtain ⟨holds, -, same⟩ := bind_eq_ok.mp later
          exact ⟨holds, (Except.ok.inj same).symm⟩
  | or left right =>
      rw [eval_or, bind_eq_ok] at evaluated
      obtain ⟨holds, -, later⟩ := evaluated
      cases holds with
      | true => exact ⟨true, (Except.ok.inj later).symm⟩
      | false =>
          obtain ⟨holds, -, same⟩ := bind_eq_ok.mp later
          exact ⟨holds, (Except.ok.inj same).symm⟩
  | compare left comparison right =>
      obtain ⟨-, -, holds, -, -, -, same⟩ := eval_compare_eq_ok.mp evaluated
      exact ⟨holds, same⟩

theorem type_of_isText (isText : expr.isText = true) (evaluated : expr.eval scope = .ok value) :
    value.type = .str := by
  cases expr with
  | literal literal =>
      cases literal with
      | str text =>
          cases evaluated
          rfl
      | _ => nomatch isText
  | _ => nomatch isText

end Expr

/-- A test by a relator succeeds. So does one by containment if one of the values is a string: the
other one is a string as well, or it is of another type and the test is false. -/
theorem Comparison.exists_test {comparison : Comparison} {left right : Value}
    (fits : comparison.isRelator = true ∨ left.type = .str ∨ right.type = .str) :
    ∃ holds, comparison.test left right = .ok holds := by
  by_cases types : left.type = right.type
  · cases comparison with
    | relator sign => exact ⟨_, test_relator sign left right⟩
    | containment negated =>
        have isStr : left.type = .str := by
          rcases fits with impossible | isStr | isStr
          · nomatch impossible
          · exact isStr
          · exact types.trans isStr
        obtain ⟨part, rfl⟩ := Value.exists_str_of_type isStr
        obtain ⟨whole, rfl⟩ := Value.exists_str_of_type (types.symm.trans isStr)
        exact ⟨_, rfl⟩
  · exact ⟨false, comparison.test_of_type_ne types⟩

namespace Expr

variable {scope : Scope} {expr : Expr}

/-- The expression has a value in the scope. -/
def Succeeds (scope : Scope) (expr : Expr) : Prop := ∃ value, expr.eval scope = .ok value

theorem Succeeds.exists_holds (succeeds : expr.Succeeds scope) (isTruth : expr.isTruth = true) :
    ∃ holds, expr.holds scope = .ok holds := by
  obtain ⟨value, evaluated⟩ := succeeds
  obtain ⟨holds, rfl⟩ := exists_bool_of_isTruth isTruth evaluated
  exact ⟨holds, bind_eq_ok.mpr ⟨_, evaluated, rfl⟩⟩

/-- The induction is on the expression. The check of an expression includes the checks of its
operands, and says of the operands of a connective that their values are truth values. -/
theorem succeeds_of_operandsFit (fit : expr.operandsFit = true)
    (resolved : ∀ name ∈ expr.fieldNames, (scope.lookup name).isSome = true) :
    expr.Succeeds scope := by
  induction expr with
  | literal literal => exact ⟨literal, rfl⟩
  | field name =>
      obtain ⟨value, found⟩ := Option.isSome_iff_exists.mp (resolved name List.mem_cons_self)
      exact ⟨value, eval_field_eq_ok.mpr found⟩
  | not operand ih =>
      simp only [operandsFit, Bool.and_eq_true] at fit
      obtain ⟨holds, operandHolds⟩ := (ih fit.2 resolved).exists_holds fit.1
      rw [Succeeds, eval_not, operandHolds]
      exact ⟨_, rfl⟩
  | and left right leftIH rightIH =>
      simp only [operandsFit, Bool.and_eq_true] at fit
      obtain ⟨⟨⟨leftTruth, rightTruth⟩, leftFit⟩, rightFit⟩ := fit
      rw [fieldNames, List.forall_mem_append] at resolved
      obtain ⟨leftHolds, leftDone⟩ := (leftIH leftFit resolved.1).exists_holds leftTruth
      obtain ⟨rightHolds, rightDone⟩ := (rightIH rightFit resolved.2).exists_holds rightTruth
      rw [Succeeds, eval_and, leftDone, rightDone]
      cases leftHolds with
      | false => exact ⟨_, rfl⟩
      | true => exact ⟨_, rfl⟩
  | or left right leftIH rightIH =>
      simp only [operandsFit, Bool.and_eq_true] at fit
      obtain ⟨⟨⟨leftTruth, rightTruth⟩, leftFit⟩, rightFit⟩ := fit
      rw [fieldNames, List.forall_mem_append] at resolved
      obtain ⟨leftHolds, leftDone⟩ := (leftIH leftFit resolved.1).exists_holds leftTruth
      obtain ⟨rightHolds, rightDone⟩ := (rightIH rightFit resolved.2).exists_holds rightTruth
      rw [Succeeds, eval_or, leftDone, rightDone]
      cases leftHolds with
      | false => exact ⟨_, rfl⟩
      | true => exact ⟨_, rfl⟩
  | compare left comparison right leftIH rightIH =>
      simp only [operandsFit, Bool.and_eq_true, Bool.or_eq_true] at fit
      obtain ⟨⟨fits, leftFit⟩, rightFit⟩ := fit
      rw [fieldNames, List.forall_mem_append] at resolved
      obtain ⟨leftValue, leftDone⟩ := leftIH leftFit resolved.1
      obtain ⟨rightValue, rightDone⟩ := rightIH rightFit resolved.2
      have fitting : comparison.isRelator = true ∨ leftValue.type = .str ∨
          rightValue.type = .str := by
        rcases fits with (isRelator | leftText) | rightText
        · exact .inl isRelator
        · exact .inr (.inl (type_of_isText leftText leftDone))
        · exact .inr (.inr (type_of_isText rightText rightDone))
      obtain ⟨holds, tested⟩ := Comparison.exists_test fitting
      exact ⟨_, eval_compare_eq_ok.mpr ⟨_, _, holds, leftDone, rightDone, tested, rfl⟩⟩

end Expr

/-- The condition as a whole and all operands of its connectives are comparisons, connectives or
Boolean literals, and one operand of every containment is a string literal. -/
def isSafe (condition : Condition) : Bool := condition.expr.isTruth && condition.expr.operandsFit

/-- A safe condition has a truth value in every scope that knows its names, whatever values it gives
them. -/
theorem evaluate_succeeds {condition : Condition} {scope : Scope} (safe : condition.isSafe = true)
    (resolved : ∀ name ∈ condition.expr.fieldNames, (scope.lookup name).isSome = true) :
    ∃ holds, condition.evaluate scope = .ok holds := by
  rw [isSafe, Bool.and_eq_true] at safe
  obtain ⟨holds, done⟩ := (Expr.succeeds_of_operandsFit safe.2 resolved).exists_holds safe.1
  exact ⟨holds, evaluate_eq_ok.mpr done⟩

/-- A comparison between parentheses is compared with a field, and a string literal is looked for in
another field. -/
def mixed : Condition :=
  ⟨"not ((level < limit) == open) and ('n' not in limit or false)",
    .and (.not (.compare (.compare (.field "level") (.relator .lt) (.field "limit"))
        (.relator .eq) (.field "open")))
      (.or (.compare (.literal (.str "n")) (.containment true) (.field "limit"))
        (.literal (.bool false)))⟩

theorem parse_mixed : parse mixed.source = .ok mixed := by
  have scanned : Lexeme.ofText mixed.source =
      .ok [⟨.negation, "not".toList, 0⟩, ⟨.openParen, "(".toList, 4⟩, ⟨.openParen, "(".toList, 5⟩,
        ⟨.name "level", "level".toList, 6⟩, ⟨.relator .lt, "<".toList, 12⟩,
        ⟨.name "limit", "limit".toList, 14⟩, ⟨.closeParen, ")".toList, 19⟩,
        ⟨.relator .eq, "==".toList, 21⟩, ⟨.name "open", "open".toList, 24⟩,
        ⟨.closeParen, ")".toList, 28⟩, ⟨.conjunction, "and".toList, 30⟩,
        ⟨.openParen, "(".toList, 34⟩, ⟨.str "n", "'n'".toList, 35⟩, ⟨.negation, "not".toList, 39⟩,
        ⟨.containment, "in".toList, 43⟩, ⟨.name "limit", "limit".toList, 46⟩,
        ⟨.disjunction, "or".toList, 52⟩, ⟨.bool false, "false".toList, 55⟩,
        ⟨.closeParen, ")".toList, 60⟩] := by
    rfl
  exact parse_eq_ok scanned (by rfl)

/-- Fields that have none of the types that the condition suggests. -/
def unsuited : Assignment := ⟨[("level", .null), ("limit", .int 3), ("open", .str "yes")]⟩

/-- Fields that have them. -/
def suited : Assignment := ⟨[("level", .str "a"), ("limit", .str "b"), ("open", .bool false)]⟩

/-- The condition has a truth value either way: containment is false between different types, also
if it is negated. -/
theorem evaluate_succeeds_mixed :
    parse mixed.source = .ok mixed ∧ mixed.isSafe = true ∧
      (∀ fields ∈ [unsuited, suited], ∃ holds, mixed.evaluate fields.scope = .ok holds) ∧
      mixed.evaluate unsuited.scope = .ok false ∧ mixed.evaluate suited.scope = .ok true := by
  have safe : mixed.isSafe = true := by decide
  have resolved : ∀ fields ∈ [unsuited, suited],
      ∀ name ∈ mixed.expr.fieldNames, (fields.scope.lookup name).isSome = true := by
    decide
  exact ⟨parse_mixed, safe, fun fields member => evaluate_succeeds safe (resolved fields member),
    rfl, rfl⟩

end Condition

end TypedRelations
