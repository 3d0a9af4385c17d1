import TypedRelations.Assignment
import TypedRelations.Proofs.Condition.Evaluation
import TypedRelations.Proofs.Value.Order

/-!
# Comparisons of fields

Between values of different types every comparison is false, be it by "is not equal to" or by
containment. Values of one type other than null are totally ordered by the relators, and nulls are
equal without being ordered (`comparisons_ordered`). All six relators are answered from the one
order of the two values (`Relator.holds_eq_accepts`).
-/

namespace TypedRelations

namespace Condition

/-- The relator holds between values that are in the order. -/
def Relator.accepts (relator : Relator) (order : Ordering) : Bool :=
  match relator with
  | .eq => order == .eq
  | .ne => order != .eq
  | .lt => order == .lt
  | .le => order != .gt
  | .gt => order == .gt
  | .ge => order != .lt

theorem Relator.holds_eq_accepts {left right : Value} {order : Ordering}
    (ordered : left.order? right = some order)
    (equal : order = .eq ↔ (left == right) = true) (relator : Relator) :
    relator.holds left right = relator.accepts order := by
  have same : (left == right) = (order == .eq) := by
    rw [Bool.eq_iff_iff, ← equal, beq_iff_eq]
  cases relator <;> simp only [holds, accepts, bne, ordered, same]
  all_goals cases order <;> rfl

end Condition

namespace Scope

open Condition

/-- A comparison of two fields has the truth value in the scope, whatever text it was read from. -/
def Answers (scope : Scope) (left : String) (comparison : Comparison) (right : String)
    (holds : Bool) : Prop :=
  ∀ source, Condition.evaluate ⟨source, .compare (.field left) comparison (.field right)⟩ scope =
    .ok holds

/-- The relator is true of the two fields. -/
def Affirms (scope : Scope) (left : String) (relator : Relator) (right : String) : Prop :=
  scope.Answers left (.relator relator) right true

variable {scope : Scope} {x y z : String} {a b c : Value}

theorem answers_iff (first : scope.lookup x = some a) (second : scope.lookup y = some b)
    {comparison : Comparison} {holds : Bool} :
    scope.Answers x comparison y holds ↔ comparison.test a b = .ok holds := by
  have evaluated (source : String) :
      Condition.evaluate ⟨source, .compare (.field x) comparison (.field y)⟩ scope = .ok holds ↔
        comparison.test a b = .ok holds := by
    rw [evaluate_eq_ok, Expr.holds, bind_eq_ok]
    constructor
    · rintro ⟨value, compared, isTruth⟩
      obtain ⟨left, right, truth, foundLeft, foundRight, tested, rfl⟩ :=
        Expr.eval_compare_eq_ok.mp compared
      cases first.symm.trans (Expr.eval_field_eq_ok.mp foundLeft)
      cases second.symm.trans (Expr.eval_field_eq_ok.mp foundRight)
      cases isTruth
      exact tested
    · intro tested
      have left := Expr.eval_field_eq_ok.mpr first
      have right := Expr.eval_field_eq_ok.mpr second
      exact ⟨_, Expr.eval_compare_eq_ok.mpr ⟨a, b, holds, left, right, tested, rfl⟩, rfl⟩
  constructor
  · exact fun answers => (evaluated "").mp (answers "")
  · exact fun tested source => (evaluated source).mpr tested

theorem answers_relator (first : scope.lookup x = some a) (second : scope.lookup y = some b)
    (relator : Relator) :
    scope.Answers x (.relator relator) y (a.type == b.type && relator.holds a b) :=
  (answers_iff first second).mpr (Comparison.test_relator relator a b)

theorem affirms_iff (first : scope.lookup x = some a) (second : scope.lookup y = some b)
    {relator : Relator} :
    scope.Affirms x relator y ↔ a.type = b.type ∧ relator.holds a b = true := by
  rw [Affirms, answers_iff first second, Comparison.test_relator, Except.ok.injEq,
    Bool.and_eq_true, beq_iff_eq]

theorem answers_of_type_ne (first : scope.lookup x = some a) (second : scope.lookup y = some b)
    (types : a.type ≠ b.type) (comparison : Comparison) : scope.Answers x comparison y false :=
  (answers_iff first second).mpr (comparison.test_of_type_ne types)

/-- Nulls are equal and satisfy no other relator. -/
theorem answers_null (first : scope.lookup x = some .null) (second : scope.lookup y = some .null)
    (relator : Relator) : scope.Answers x (.relator relator) y (relator == .eq) := by
  rw [answers_iff first second]
  cases relator <;> rfl

theorem affirms_lt_iff (first : scope.lookup x = some a) (second : scope.lookup y = some b) :
    scope.Affirms x .lt y ↔ a.Precedes b := by
  rw [affirms_iff first second, Relator.holds, beq_iff_eq, Value.order?_eq_lt_iff]
  exact and_iff_right_of_imp Value.Precedes.type_eq

theorem affirms_eq_iff (first : scope.lookup x = some a) (second : scope.lookup y = some b) :
    scope.Affirms x .eq y ↔ a.Same b := by
  rw [affirms_iff first second, Relator.holds, Value.beq_iff_same]
  exact and_iff_right_of_imp fun same => Value.type_eq_of_beq (Value.beq_iff_same.mpr same)

/-- The relators order the two fields: one of "less than", "equal" and "greater than" holds, and the
others are made up of these. -/
structure Orders (scope : Scope) (left right : String) : Prop where
  decided (relator : Relator) : ∃ holds, scope.Answers left (.relator relator) right holds
  exactlyOne :
    scope.Affirms left .lt right ∧ ¬ scope.Affirms left .eq right ∧ ¬ scope.Affirms right .lt left ∨
      ¬ scope.Affirms left .lt right ∧ scope.Affirms left .eq right ∧
        ¬ scope.Affirms right .lt left ∨
      ¬ scope.Affirms left .lt right ∧ ¬ scope.Affirms left .eq right ∧ scope.Affirms right .lt left
  le_iff : scope.Affirms left .le right ↔
    scope.Affirms left .lt right ∨ scope.Affirms left .eq right
  gt_iff : scope.Affirms left .gt right ↔ scope.Affirms right .lt left
  ge_iff : scope.Affirms left .ge right ↔ scope.Affirms right .le left
  ne_iff : scope.Affirms left .ne right ↔ ¬ scope.Affirms left .eq right

/-- Two fields with values of one type are answered from the order of these, and the other way round
from the reversed order. -/
theorem exists_order (first : scope.lookup x = some a) (second : scope.lookup y = some b)
    (types : a.type = b.type) (notNull : a.type ≠ .null) :
    ∃ order, ∀ relator : Relator,
      (scope.Affirms x relator y ↔ relator.accepts order = true) ∧
        (scope.Affirms y relator x ↔ relator.accepts order.swap = true) := by
  obtain ⟨order, ordered, reversed, equal⟩ := Value.exists_order types notNull
  have alsoEqual : order.swap = .eq ↔ (b == a) = true := by
    rw [Ordering.swap_eq_eq, equal, BEq.comm]
  refine ⟨order, fun relator => ⟨?_, ?_⟩⟩
  · rw [affirms_iff first second, relator.holds_eq_accepts ordered equal]
    exact and_iff_right types
  · rw [affirms_iff second first, relator.holds_eq_accepts reversed alsoEqual]
    exact and_iff_right types.symm

theorem orders_of_type_eq (first : scope.lookup x = some a) (second : scope.lookup y = some b)
    (types : a.type = b.type) (notNull : a.type ≠ .null) : scope.Orders x y := by
  obtain ⟨order, answered⟩ := exists_order first second types notNull
  constructor
  case decided => exact fun relator => ⟨_, answers_relator first second relator⟩
  all_goals simp only [(answered _).1, (answered _).2]
  all_goals cases order <;> decide

/-- What comparisons say of the values that three fields hold. Values of one type are ordered unless
they are null, by size, by bytes and with NaN last, and the order is transitive. Of the relators,
only equality holds between nulls. No comparison holds between values of different types, and none
fails. -/
theorem comparisons_ordered (first : scope.lookup x = some a) (second : scope.lookup y = some b)
    (third : scope.lookup z = some c) :
    (a.type = b.type → a.type ≠ .null → scope.Orders x y) ∧
    (scope.Affirms x .lt y → scope.Affirms y .lt z → scope.Affirms x .lt z) ∧
    (scope.Affirms x .lt y ↔ a.Precedes b) ∧
    (scope.Affirms x .eq y ↔ a.Same b) ∧
    (a = .null → b = .null → ∀ relator, scope.Answers x (.relator relator) y (relator == .eq)) ∧
    (a.type ≠ b.type → ∀ comparison, scope.Answers x comparison y false) := by
  refine ⟨orders_of_type_eq first second, ?transitive, affirms_lt_iff first second,
    affirms_eq_iff first second, ?nulls, answers_of_type_ne first second⟩
  case transitive =>
    rw [affirms_lt_iff first second, affirms_lt_iff second third, affirms_lt_iff first third]
    exact Value.Precedes.trans
  case nulls =>
    rintro rfl rfl
    exact answers_null first second

/-- The two zeros and a number that is none, two texts, and a null. -/
def measurement : Assignment :=
  ⟨[("zero", .float ⟨0⟩), ("negative", .float ⟨0x8000000000000000⟩),
    ("undefined", .float ⟨0x7FF8000000000000⟩), ("latin", .str "z"), ("accented", .str "é"),
    ("missing", .null)]⟩

/-- The zeros are equal and lie below what is no number. The accented letter comes after the plain
one, because its bytes are greater. A null equals itself and is in no relation to a text, not even
that of being different. -/
theorem comparisons_ordered_measurement :
    (measurement.scope.Affirms "zero" .eq "negative" ∧
      measurement.scope.Affirms "zero" .lt "undefined") ∧
    (measurement.scope.Affirms "latin" .lt "accented" ∧
      measurement.scope.Orders "latin" "accented") ∧
    measurement.scope.Answers "missing" (.relator .eq) "missing" true ∧
      measurement.scope.Answers "missing" (.relator .ne) "latin" false := by
  have zero : measurement.scope.lookup "zero" = some (.float ⟨0⟩) := rfl
  have negative : measurement.scope.lookup "negative" = some (.float ⟨0x8000000000000000⟩) := rfl
  have undefined : measurement.scope.lookup "undefined" = some (.float ⟨0x7FF8000000000000⟩) := rfl
  have latin : measurement.scope.lookup "latin" = some (.str "z") := rfl
  have accented : measurement.scope.lookup "accented" = some (.str "é") := rfl
  have missing : measurement.scope.lookup "missing" = some .null := rfl
  obtain ⟨-, -, -, equal, -, -⟩ := comparisons_ordered zero negative undefined
  obtain ⟨-, -, below, -, -, -⟩ := comparisons_ordered zero undefined undefined
  obtain ⟨ordered, -, before, -, -, -⟩ := comparisons_ordered latin accented accented
  obtain ⟨-, -, -, -, nulls, -⟩ := comparisons_ordered missing missing missing
  obtain ⟨-, -, -, -, -, mismatch⟩ := comparisons_ordered missing latin latin
  refine ⟨⟨equal.mpr ?zeros, below.mpr ?special⟩, ⟨before.mpr (.str (by decide +kernel)),
    ordered rfl nofun⟩, nulls rfl rfl .eq, mismatch nofun (.relator .ne)⟩
  case zeros => exact Value.beq_iff_same.mp (by decide +kernel)
  case special => exact .float (Binary64.precedes_of_rank_lt (by decide +kernel))

end Scope

end TypedRelations
