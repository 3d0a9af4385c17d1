import TypedRelations.Value

/-!
# Constraints

A constraint restricts the values of the types it governs and lets every other value pass. Bounds on
numbers are floating-point numbers as given: a NaN admits no number, and neither does a lower bound
above the upper one. Two constraints of one kind are combined when the domains that carry them are
united, intersected or subtracted; combining two bounds skips a NaN.
-/

namespace TypedRelations

/-- A rule that restricts the values of a domain. -/
inductive Constraint where
  /-- Rejects null. -/
  | notNull
  /-- Bounds the number of characters of a string; both bounds are allowed lengths. -/
  | stringLength (min max : UInt64)
  /-- Bounds numbers of either type; both bounds are allowed numbers. -/
  | range (min max : Binary64)
  /-- Rejects negative numbers, and numbers above the maximum if there is one. -/
  | positive (max : Option Binary64)
  deriving Repr, Inhabited

namespace Constraint

/-- What a constraint is about. Only constraints of one kind can be combined. -/
inductive Kind where
  | notNull
  | stringLength
  | range
  | positive
  deriving BEq, DecidableEq, ReflBEq, LawfulBEq, Repr

/-- The name of the kind. -/
def Kind.text : Kind → String
  | .notNull => "NotNull"
  | .stringLength => "StringLength"
  | .range => "Range"
  | .positive => "Positive"

instance : ToString Kind := ⟨Kind.text⟩

/-- The kind of a constraint. -/
def kind : Constraint → Kind
  | .notNull => .notNull
  | .stringLength .. => .stringLength
  | .range .. => .range
  | .positive .. => .positive

/-- The two constraints are about the same thing. -/
def sameKind (left right : Constraint) : Bool := left.kind == right.kind

/-- The text of a constraint: its kind and its bounds. -/
def text : Constraint → String
  | .notNull => "NotNull"
  | .stringLength min max => s!"StringLength({min}, {max})"
  | .range min max => "Range(" ++ min.text ++ ", " ++ max.text ++ ")"
  | .positive (some max) => "Positive(max=" ++ max.text ++ ")"
  | .positive none => "Positive"

instance : ToString Constraint := ⟨text⟩

/-- Constraints are equal if they are of one kind and have numerically equal bounds, so a
constraint with a NaN bound is not even equal to itself. -/
protected def beq : Constraint → Constraint → Bool
  | .notNull, .notNull => true
  | .stringLength min₁ max₁, .stringLength min₂ max₂ => min₁ == min₂ && max₁ == max₂
  | .range min₁ max₁, .range min₂ max₂ =>
    min₁.numericallyEqual min₂ && max₁.numericallyEqual max₂
  | .positive (some max₁), .positive (some max₂) => max₁.numericallyEqual max₂
  | .positive none, .positive none => true
  | _, _ => false

instance : BEq Constraint := ⟨Constraint.beq⟩

/-- Why a constraint rejects a value. -/
inductive Violation where
  | nullValue
  | lengthOutside (min max : UInt64) (length : Nat)
  | numberOutside (min max : Binary64) (value : Value)
  | negativeNumber (value : Value)
  | numberAbove (max : Binary64) (value : Value)
  deriving Repr

/-- The wording of a violation. -/
def Violation.message : Violation → String
  | .nullValue => "value cannot be null"
  | .lengthOutside min max length => s!"expected string length in [{min}, {max}], got {length}"
  | .numberOutside min max value =>
    "expected a value between " ++ min.text ++ " and " ++ max.text ++ ", got " ++ value.text
  | .negativeNumber value => "expected a positive value, got " ++ value.text
  | .numberAbove max value =>
    "expected a value less than or equal to " ++ max.text ++ ", got " ++ value.text

/-- A number is the bound or above it. Nothing is above a NaN, and a NaN is above nothing. -/
def atLeast (value : Value) (bound : Binary64) : Bool :=
  match value.compareNumber? bound with
  | some .gt | some .eq => true
  | _ => false

/-- A number is the bound or below it. Nothing is below a NaN, and a NaN is below nothing. -/
def atMost (value : Value) (bound : Binary64) : Bool :=
  match value.compareNumber? bound with
  | some .lt | some .eq => true
  | _ => false

/-- Why a value violates a bound on string lengths, if it does. Only strings can. -/
def lengthViolation? (min max : UInt64) (value : Value) : Option Violation :=
  match value with
  | .str string =>
    if string.length < min.toNat ∨ max.toNat < string.length then
      some (.lengthOutside min max string.length)
    else none
  | _ => none

/-- Why a value violates a range, if it does. Only numbers can. -/
def rangeViolation? (min max : Binary64) (value : Value) : Option Violation :=
  if value.type.isNumeric && !(atLeast value min && atMost value max) then
    some (.numberOutside min max value)
  else none

/-- Why a value is not a positive number within the maximum, if it is not. Only numbers can
violate this; zero does not. -/
def positiveViolation? (max : Option Binary64) (value : Value) : Option Violation :=
  if value.type.isNumeric then
    if !atLeast value 0 then some (.negativeNumber value)
    else
      match max with
      | some max => if atMost value max then none else some (.numberAbove max value)
      | none => none
  else none

/-- Why a constraint rejects a value; none if it accepts the value. -/
def violation? (constraint : Constraint) (value : Value) : Option Violation :=
  match constraint with
  | .notNull => if value.isNull then some .nullValue else none
  | .stringLength min max => lengthViolation? min max value
  | .range min max => rangeViolation? min max value
  | .positive max => positiveViolation? max value

/-- The constraint lets the value pass. -/
def accepts (constraint : Constraint) (value : Value) : Bool :=
  (constraint.violation? value).isNone

/-! ## Combining two constraints -/

/-- Why two constraints cannot be combined. -/
inductive Clash where
  /-- The constraints are of different kinds. -/
  | kinds (left right : Kind)
  /-- No length is within both bounds: the larger minimum is above the smaller maximum. -/
  | lengths (min max : UInt64)
  /-- No number is within both ranges: the larger minimum is above the smaller maximum. -/
  | ranges (min max : Binary64)
  deriving Repr

/-- The wording of a clash. -/
def Clash.message : Clash → String
  | .kinds left right =>
    "cannot combine a `" ++ left.text ++ "` constraint with a `" ++ right.text ++ "` constraint"
  | .lengths min max => s!"intersection of StringLength constraints is empty: [{min}, {max}]"
  | .ranges min max =>
    "intersection of Range constraints is empty: [" ++ min.text ++ ", " ++ max.text ++ "]"

/-- The constraint from the smaller minimum to the larger maximum, which accepts what either
constraint accepts. A missing maximum is larger than any other. -/
def union (left right : Constraint) : Except Clash Constraint :=
  match left, right with
  | .notNull, .notNull => .ok .notNull
  | .stringLength min₁ max₁, .stringLength min₂ max₂ =>
    .ok (.stringLength (min min₁ min₂) (max max₁ max₂))
  | .range min₁ max₁, .range min₂ max₂ => .ok (.range (min₁.min min₂) (max₁.max max₂))
  | .positive (some max₁), .positive (some max₂) => .ok (.positive (some (max₁.max max₂)))
  | .positive _, .positive _ => .ok (.positive none)
  | _, _ => .error (.kinds left.kind right.kind)

/-- The constraint that accepts what both constraints accept. Two lengths or two ranges without
anything in common clash; two maxima never do. -/
def inter (left right : Constraint) : Except Clash Constraint :=
  match left, right with
  | .notNull, .notNull => .ok .notNull
  | .stringLength min₁ max₁, .stringLength min₂ max₂ =>
    let low := max min₁ min₂
    let high := min max₁ max₂
    if high < low then .error (.lengths low high) else .ok (.stringLength low high)
  | .range min₁ max₁, .range min₂ max₂ =>
    let low := min₁.max min₂
    let high := max₁.min max₂
    if high < low then .error (.ranges low high) else .ok (.range low high)
  | .positive (some max₁), .positive (some max₂) => .ok (.positive (some (max₁.min max₂)))
  | .positive (some max), .positive none => .ok (.positive (some max))
  | .positive none, .positive max => .ok (.positive max)
  | _, _ => .error (.kinds left.kind right.kind)

/-- What is left of an interval when another one is taken away. -/
inductive Remainder where
  /-- All of it: the intervals are apart, or the rest is no interval. -/
  | whole
  /-- The part below the other interval. -/
  | below
  /-- The part above the other interval. -/
  | above
  deriving BEq, DecidableEq, Repr

section Remainder

variable {α : Type} [LT α] [LE α] [DecidableLT α] [DecidableLE α]

/-- What is left of the interval from `min₁` to `max₁` without the one from `min₂` to `max₂`. Only
an overlap at exactly one end is taken away: nothing would be left within the other interval, and
two parts would be left around it. -/
def remainder (min₁ max₁ min₂ max₂ : α) : Remainder :=
  if max₂ < min₁ ∨ max₁ < min₂ then .whole
  else if min₂ ≤ min₁ then
    if max₁ ≤ max₂ then .whole else .above
  else
    if max₁ ≤ max₂ then .below else .whole

end Remainder

/-- The left constraint without the end that overlaps with the right one. A cut range keeps the
number it is cut at; a cut bound on lengths stops before it. -/
def diff (left right : Constraint) : Except Clash Constraint :=
  match left, right with
  | .notNull, .notNull => .ok .notNull
  | .stringLength min₁ max₁, .stringLength min₂ max₂ =>
    match remainder min₁ max₁ min₂ max₂ with
    | .whole => .ok left
    | .below => .ok (.stringLength min₁ (min₂ - 1))
    | .above => .ok (.stringLength (max₂ + 1) max₁)
  | .range min₁ max₁, .range min₂ max₂ =>
    match remainder min₁ max₁ min₂ max₂ with
    | .whole => .ok left
    | .below => .ok (.range min₁ min₂)
    | .above => .ok (.range max₂ max₁)
  | .positive _, .positive _ => .ok left
  | _, _ => .error (.kinds left.kind right.kind)

end Constraint

end TypedRelations
