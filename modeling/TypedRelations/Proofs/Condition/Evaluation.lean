import TypedRelations.Assignment
import TypedRelations.Condition.Basic
import TypedRelations.Proofs.Outcome

/-!
# What a condition can tell apart

A condition sees its scope through the values of names, and it cannot tell equal values apart, not
even the two zeros and the many NaNs. So a condition that has a truth value in one scope has the
same one in every scope that gives equal values to the names of the first (`evaluate_within`), and
what the literals alone decide is the same in all scopes (`evaluate_persists`).
-/

namespace TypedRelations

namespace Value

/-- Equal values are the same but for floating-point numbers, of which equality sees the rank. -/
theorem eq_or_float_of_beq {left right : Value} (same : (left == right) = true) :
    left = right ∨
      ∃ first second, left = .float first ∧ right = .float second ∧ first.rank = second.rank := by
  have types := type_eq_of_beq same
  cases left with
  | float first =>
      cases right with
      | float second =>
          right
          exact ⟨first, second, rfl, rfl, by simpa [Binary64.sameRank] using same⟩
      | _ => nomatch types
  | _ => cases right <;> simp_all [type]

theorem order?_congr_left {first second : Value} (same : (first == second) = true)
    (right : Value) : first.order? right = second.order? right := by
  rcases eq_or_float_of_beq same with rfl | ⟨x, y, rfl, rfl, ranks⟩
  · rfl
  · cases right <;> simp [order?, Binary64.rankCompare, ranks]

theorem order?_congr_right {first second : Value} (same : (first == second) = true)
    (left : Value) : left.order? first = left.order? second := by
  rcases eq_or_float_of_beq same with rfl | ⟨x, y, rfl, rfl, ranks⟩
  · rfl
  · cases left <;> simp [order?, Binary64.rankCompare, ranks]

end Value

/-- Every name that the first scope knows has an equal value in the second one. -/
def Scope.Within (small large : Scope) : Prop :=
  ∀ name value, small.lookup name = some value →
    ∃ other, large.lookup name = some other ∧ (value == other) = true

theorem Scope.literals_within (scope : Scope) : Scope.literals.Within scope := nofun

namespace Condition

variable {left leftOther right rightOther : Value}

theorem Relator.holds_congr (relator : Relator) (sameLeft : (left == leftOther) = true)
    (sameRight : (right == rightOther) = true) :
    relator.holds left right = relator.holds leftOther rightOther := by
  have order : left.order? right = leftOther.order? rightOther :=
    (Value.order?_congr_left sameLeft right).trans (Value.order?_congr_right sameRight leftOther)
  have equal : (left == right) = (leftOther == rightOther) :=
    (BEq.congr_left sameLeft).trans (BEq.congr_right sameRight)
  cases relator <;> simp [holds, order, equal, bne]

/-- Strings that are equal are the same, and containment is defined on nothing else. -/
theorem Comparison.test_congr {comparison : Comparison} {holds : Bool}
    (sameLeft : (left == leftOther) = true) (sameRight : (right == rightOther) = true)
    (tested : comparison.test left right = .ok holds) :
    comparison.test leftOther rightOther = .ok holds := by
  have leftTypes := Value.type_eq_of_beq sameLeft
  have rightTypes := Value.type_eq_of_beq sameRight
  rw [test.eq_def] at tested ⊢
  rw [← leftTypes, ← rightTypes]
  split at tested
  next differ =>
    rw [if_pos differ]
    exact tested
  next alike =>
    rw [if_neg alike]
    cases comparison with
    | relator sign =>
        dsimp only at tested ⊢
        rw [← sign.holds_congr sameLeft sameRight]
        exact tested
    | containment negated =>
        dsimp only at tested ⊢
        split at tested
        next part whole =>
          rcases Value.eq_or_float_of_beq sameLeft with rfl | ⟨_, _, isFloat, -⟩
          · rcases Value.eq_or_float_of_beq sameRight with rfl | ⟨_, _, isFloat, -⟩
            · exact tested
            · nomatch isFloat
          · nomatch isFloat
        next => nomatch tested

/-- Only a Boolean value has a truth value, and only the same Boolean value equals it. -/
theorem truth_congr {value other : Value} {holds : Bool} (same : (value == other) = true)
    (isTruth : truth value = .ok holds) : truth other = .ok holds := by
  rcases Value.eq_or_float_of_beq same with rfl | ⟨_, _, rfl, -⟩
  · exact isTruth
  · nomatch isTruth

namespace Expr

variable {scope : Scope} {operand first second : Expr} {value : Value}

theorem eval_field_eq_ok {name : String} :
    (field name).eval scope = .ok value ↔ scope.lookup name = some value := by
  rw [eval]
  cases scope.lookup name <;> simp

theorem eval_not :
    (not operand).eval scope = operand.holds scope >>= fun holds => .ok (.bool !holds) := by
  rw [holds, bind_assoc]
  rfl

theorem eval_and :
    (and first second).eval scope = first.holds scope >>= fun holds =>
      if holds then second.holds scope >>= fun holds => .ok (.bool holds)
      else .ok (.bool false) := by
  rw [eval, Expr.holds, Expr.holds, bind_assoc, bind_assoc]
  rfl

theorem eval_or :
    (or first second).eval scope = first.holds scope >>= fun holds =>
      if holds then .ok (.bool true)
      else second.holds scope >>= fun holds => .ok (.bool holds) := by
  rw [eval, Expr.holds, Expr.holds, bind_assoc, bind_assoc]
  rfl

theorem eval_compare_eq_ok {comparison : Comparison} :
    (compare first comparison second).eval scope = .ok value ↔
      ∃ left right holds, first.eval scope = .ok left ∧ second.eval scope = .ok right ∧
        comparison.test left right = .ok holds ∧ value = .bool holds := by
  simp only [eval, bind_eq_ok, pure, Except.pure, Except.ok.injEq]
  constructor
  · rintro ⟨left, leftEvaluated, right, rightEvaluated, holds, tested, rfl⟩
    exact ⟨left, right, holds, leftEvaluated, rightEvaluated, tested, rfl⟩
  · rintro ⟨left, right, holds, leftEvaluated, rightEvaluated, tested, rfl⟩
    exact ⟨left, leftEvaluated, right, rightEvaluated, holds, tested, rfl⟩

end Expr

/-! ## Evaluations in a larger scope -/

variable {small large : Scope}

/-- The expression has a value in the larger scope that is equal to its value in the smaller one. -/
def Expr.Transfers (small large : Scope) (expr : Expr) : Prop :=
  ∀ value, expr.eval small = .ok value →
    ∃ other, expr.eval large = .ok other ∧ (value == other) = true

theorem Expr.Transfers.holds {expr : Expr} (transfers : expr.Transfers small large) {holds : Bool}
    (holdsSmall : expr.holds small = .ok holds) : expr.holds large = .ok holds := by
  rcases bind_eq_ok.mp holdsSmall with ⟨value, evaluated, isTruth⟩
  rcases transfers value evaluated with ⟨other, alsoEvaluated, same⟩
  exact bind_eq_ok.mpr ⟨other, alsoEvaluated, truth_congr same isTruth⟩

/-- Every expression transfers. The induction is on the expression; an operand that is passed over
in the one scope is passed over in the other, because the truth values before it are the same. -/
theorem Expr.transfers_of_within (within : small.Within large) (expr : Expr) :
    expr.Transfers small large := by
  induction expr with
  | literal literal => exact fun value evaluated => ⟨value, evaluated, BEq.rfl⟩
  | field name =>
      intro value evaluated
      rcases within name value (eval_field_eq_ok.mp evaluated) with ⟨other, found, same⟩
      exact ⟨other, eval_field_eq_ok.mpr found, same⟩
  | not operand ih =>
      intro value evaluated
      rw [eval_not] at evaluated ⊢
      rcases bind_eq_ok.mp evaluated with ⟨holds, holdsSmall, same⟩
      rw [ih.holds holdsSmall]
      exact ⟨value, same, BEq.rfl⟩
  | and left right leftIH rightIH =>
      intro value evaluated
      rw [eval_and] at evaluated ⊢
      rcases bind_eq_ok.mp evaluated with ⟨holds, holdsSmall, later⟩
      rw [leftIH.holds holdsSmall]
      cases holds with
      | false => exact ⟨value, later, BEq.rfl⟩
      | true =>
          rcases bind_eq_ok.mp later with ⟨also, alsoSmall, same⟩
          refine ⟨value, ?_, BEq.rfl⟩
          change (right.holds large >>= _) = _
          rw [rightIH.holds alsoSmall]
          exact same
  | or left right leftIH rightIH =>
      intro value evaluated
      rw [eval_or] at evaluated ⊢
      rcases bind_eq_ok.mp evaluated with ⟨holds, holdsSmall, later⟩
      rw [leftIH.holds holdsSmall]
      cases holds with
      | true => exact ⟨value, later, BEq.rfl⟩
      | false =>
          rcases bind_eq_ok.mp later with ⟨also, alsoSmall, same⟩
          refine ⟨value, ?_, BEq.rfl⟩
          change (right.holds large >>= _) = _
          rw [rightIH.holds alsoSmall]
          exact same
  | compare left comparison right leftIH rightIH =>
      intro value evaluated
      rcases eval_compare_eq_ok.mp evaluated with
        ⟨leftValue, rightValue, holds, leftEvaluated, rightEvaluated, tested, rfl⟩
      rcases leftIH leftValue leftEvaluated with ⟨leftOther, leftAlso, sameLeft⟩
      rcases rightIH rightValue rightEvaluated with ⟨rightOther, rightAlso, sameRight⟩
      have alsoTested := Comparison.test_congr sameLeft sameRight tested
      exact ⟨_, eval_compare_eq_ok.mpr ⟨_, _, holds, leftAlso, rightAlso, alsoTested, rfl⟩,
        BEq.rfl⟩

theorem evaluate_eq_ok {condition : Condition} {scope : Scope} {holds : Bool} :
    condition.evaluate scope = .ok holds ↔ condition.expr.holds scope = .ok holds := by
  rw [evaluate]
  split <;> simp_all

/-- A condition that has a truth value in a scope keeps it in every larger scope. -/
theorem evaluate_within (within : small.Within large) {condition : Condition} {holds : Bool}
    (evaluated : condition.evaluate small = .ok holds) : condition.evaluate large = .ok holds :=
  evaluate_eq_ok.mpr ((condition.expr.transfers_of_within within).holds
    (evaluate_eq_ok.mp evaluated))

/-- The truth value of a condition respects the equality of values and persists when a scope grows.
If the literals of a condition decide it, they decide it in every scope. -/
theorem evaluate_persists {source : String} {condition : Condition}
    (parsed : parse source = .ok condition) :
    (∀ small large : Scope, small.Within large →
      ∀ holds, condition.evaluate small = .ok holds → condition.evaluate large = .ok holds) ∧
    ∀ holds, evaluateText source = .ok holds → ∀ scope, condition.evaluate scope = .ok holds := by
  refine ⟨fun small large within holds => evaluate_within within, ?_⟩
  intro holds evaluated scope
  rw [evaluateText, parsed] at evaluated
  exact evaluate_within scope.literals_within evaluated

/-- A level of zero, and a limit that is no number. -/
def firstReading : Assignment :=
  ⟨[("level", .float ⟨0⟩), ("limit", .float ⟨0x7FF8000000000000⟩)]⟩

/-- The other zero, another encoding that is no number, and a note in front of the two. -/
def secondReading : Assignment :=
  ⟨[("note", .null), ("limit", .float ⟨0xFFF8000000000001⟩),
    ("level", .float ⟨0x8000000000000000⟩)]⟩

theorem firstReading_within : firstReading.scope.Within secondReading.scope := by
  intro name value found
  have found : firstReading.entries.lookup name = some value := found
  by_cases level : name = "level"
  · cases level
    cases Option.some.inj found
    exact ⟨_, rfl, by decide +kernel⟩
  by_cases limit : name = "limit"
  · cases limit
    cases Option.some.inj found
    exact ⟨_, rfl, by decide +kernel⟩
  simp [firstReading, List.lookup_cons, beq_false_of_ne, level, limit] at found

/-- The level is below the limit. -/
def belowLimit : Expr := .compare (.field "level") (.relator .lt) (.field "limit")

theorem eval_belowLimit : belowLimit.eval firstReading.scope = .ok (.bool true) := by
  have holds : Relator.lt.holds (.float ⟨0⟩) (.float ⟨0x7FF8000000000000⟩) = true := by
    decide +kernel
  exact Expr.eval_compare_eq_ok.mpr ⟨_, _, true, rfl, rfl, congrArg Except.ok holds, rfl⟩

theorem parse_belowLimit_or_note :
    parse "level < limit or note" =
      .ok ⟨"level < limit or note", .or belowLimit (.field "note")⟩ := by
  have scanned : Lexeme.ofText "level < limit or note" =
      .ok [⟨.name "level", "level".toList, 0⟩, ⟨.relator .lt, "<".toList, 6⟩,
        ⟨.name "limit", "limit".toList, 8⟩, ⟨.disjunction, "or".toList, 14⟩,
        ⟨.name "note", "note".toList, 17⟩] := by
    rfl
  exact parse_eq_ok scanned (by rfl)

theorem parse_not_belowLimit_and_note :
    parse "not level < limit and note" =
      .ok ⟨"not level < limit and note", .and (.not belowLimit) (.field "note")⟩ := by
  have scanned : Lexeme.ofText "not level < limit and note" =
      .ok [⟨.negation, "not".toList, 0⟩, ⟨.name "level", "level".toList, 4⟩,
        ⟨.relator .lt, "<".toList, 10⟩, ⟨.name "limit", "limit".toList, 12⟩,
        ⟨.conjunction, "and".toList, 18⟩, ⟨.name "note", "note".toList, 22⟩] := by
    rfl
  exact parse_eq_ok scanned (by rfl)

theorem parse_literals :
    parse "1 < 2 or note" =
      .ok ⟨"1 < 2 or note",
        .or (.compare (.literal (.int 1)) (.relator .lt) (.literal (.int 2))) (.field "note")⟩ := by
  have scanned : Lexeme.ofText "1 < 2 or note" =
      .ok [⟨.int 1, "1".toList, 0⟩, ⟨.relator .lt, "<".toList, 2⟩, ⟨.int 2, "2".toList, 4⟩,
        ⟨.disjunction, "or".toList, 6⟩, ⟨.name "note", "note".toList, 9⟩] := by
    rfl
  exact parse_eq_ok scanned (by rfl)

/-- The level is below the limit in both readings, and the note, which could not decide anything, is
not asked for, be the result true or false. Nor is it if two literals come first, in whatever
scope. -/
theorem evaluate_persists_readings :
    (∃ condition, parse "level < limit or note" = .ok condition ∧
      condition.evaluate firstReading.scope = .ok true ∧
      condition.evaluate secondReading.scope = .ok true) ∧
    (∃ condition, parse "not level < limit and note" = .ok condition ∧
      condition.evaluate firstReading.scope = .ok false ∧
      condition.evaluate secondReading.scope = .ok false) ∧
    ∃ condition, parse "1 < 2 or note" = .ok condition ∧
      ∀ scope, condition.evaluate scope = .ok true := by
  refine ⟨⟨_, parse_belowLimit_or_note, ?_⟩, ⟨_, parse_not_belowLimit_and_note, ?_⟩,
    ⟨_, parse_literals, ?_⟩⟩
  · have holds : evaluate ⟨"level < limit or note", .or belowLimit (.field "note")⟩
        firstReading.scope = .ok true := by
      rw [evaluate_eq_ok, Expr.holds, Expr.eval_or, Expr.holds, eval_belowLimit]
      rfl
    exact ⟨holds, (evaluate_persists parse_belowLimit_or_note).1 _ _ firstReading_within true holds⟩
  · have fails : evaluate ⟨"not level < limit and note", .and (.not belowLimit) (.field "note")⟩
        firstReading.scope = .ok false := by
      rw [evaluate_eq_ok, Expr.holds, Expr.eval_and, Expr.holds, Expr.eval_not, Expr.holds,
        eval_belowLimit]
      rfl
    exact ⟨fails,
      (evaluate_persists parse_not_belowLimit_and_note).1 _ _ firstReading_within false fails⟩
  · have decided : evaluateText "1 < 2 or note" = .ok true := by
      rw [evaluateText, parse_literals]
      rfl
    exact (evaluate_persists parse_literals).2 true decided

end Condition

end TypedRelations
