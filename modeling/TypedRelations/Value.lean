import TypedRelations.Binary64.Shortest

/-!
# Values

Values of different types are never equal: the integer one and the number one are two values.
Equality tells rows apart, so it is an equivalence also on floating-point numbers: every NaN equals
every NaN, and the two zeros are equal.
-/

namespace TypedRelations

/-- The type of a value. -/
inductive ValueType where
  | int
  | float
  | str
  | bool
  | null
  deriving BEq, DecidableEq, ReflBEq, LawfulBEq, Repr

namespace ValueType

/-- Values of the type are numbers. -/
def isNumeric : ValueType → Bool
  | .int | .float => true
  | .str | .bool | .null => false

/-- The name of the type. -/
def text : ValueType → String
  | .int => "int"
  | .float => "float"
  | .str => "str"
  | .bool => "bool"
  | .null => "null"

instance : ToString ValueType := ⟨text⟩

end ValueType

/-- A primitive value of a row. -/
inductive Value where
  | null
  | int (value : Int64)
  | float (value : Binary64)
  | str (value : String)
  | bool (value : Bool)
  deriving Repr, Inhabited

/-- The decimal digits of an integer, after a minus sign if it is negative. -/
def integerText (integer : Int) : List Char :=
  let digits := Nat.toDigits 10 integer.natAbs
  if integer < 0 then '-' :: digits else digits

namespace Value

/-- The type of a value. -/
def type : Value → ValueType
  | .null => .null
  | .int _ => .int
  | .float _ => .float
  | .str _ => .str
  | .bool _ => .bool

/-- The value is null. -/
def isNull : Value → Bool
  | .null => true
  | _ => false

/-- The text of a string value. -/
def asString? : Value → Option String
  | .str value => some value
  | _ => none

/-- The truth value of a Boolean value. -/
def asBool? : Value → Option Bool
  | .bool value => some value
  | _ => none

/-- The two values are the same: of one type and equal in it. -/
protected def beq : Value → Value → Bool
  | .null, .null => true
  | .int left, .int right => left == right
  | .float left, .float right => left.sameRank right
  | .str left, .str right => left == right
  | .bool left, .bool right => left == right
  | _, _ => false

instance : BEq Value := ⟨Value.beq⟩

@[simp] theorem null_beq_null : ((.null : Value) == .null) = true := rfl

@[simp] theorem int_beq_int (left right : Int64) :
    ((.int left : Value) == .int right) = (left == right) := rfl

@[simp] theorem float_beq_float (left right : Binary64) :
    ((.float left : Value) == .float right) = left.sameRank right := rfl

@[simp] theorem str_beq_str (left right : String) :
    ((.str left : Value) == .str right) = (left == right) := rfl

@[simp] theorem bool_beq_bool (left right : Bool) :
    ((.bool left : Value) == .bool right) = (left == right) := rfl

/-- Equal values have the same type. -/
theorem type_eq_of_beq {left right : Value} (same : (left == right) = true) :
    left.type = right.type := by
  cases left <;> cases right <;> first | rfl | exact (Bool.noConfusion same)

instance : EquivBEq Value where
  rfl := by
    intro value
    cases value <;> simp [Binary64.sameRank]
  symm := by
    intro left right same
    have types := type_eq_of_beq same
    cases left <;> cases right <;> simp_all [type, Binary64.sameRank]
  trans := by
    intro first second third left right
    have leftTypes := type_eq_of_beq left
    have rightTypes := type_eq_of_beq right
    cases first <;> cases second <;> cases third <;> simp_all [type, Binary64.sameRank]

/-- The order of a numeric value and a bound, exact also for integers that no floating-point
number equals. None if the value is not numeric or either side is NaN. -/
def compareNumber? (value : Value) (bound : Binary64) : Option Ordering :=
  match value with
  | .int integer => bound.compareInt integer
  | .float number => number.compare? bound
  | _ => none

/-- The order of two values of one type: integers and numbers by size with NaN last, strings by
their code points, false before true. Nulls and values of different types have no order. -/
def order? : Value → Value → Option Ordering
  | .int left, .int right => some (compare left.toInt right.toInt)
  | .float left, .float right => some (left.rankCompare right)
  | .str left, .str right => some (compareOfLessAndEq left right)
  | .bool left, .bool right => some (compare left right)
  | _, _ => none

/-- The text of a value: strings stand for themselves, without quotes. -/
def text : Value → String
  | .null => "null"
  | .int value => String.ofList (integerText value.toInt)
  | .float value => value.text
  | .str value => value
  | .bool true => "true"
  | .bool false => "false"

instance : ToString Value := ⟨text⟩

end Value

/-- Data that a row can hold as a value. -/
class ToValue (α : Type) where
  toValue : α → Value

export ToValue (toValue)

namespace ToValue

instance : ToValue Value := ⟨id⟩

instance : ToValue Int64 := ⟨.int⟩

instance : ToValue Int32 := ⟨fun value => .int value.toInt64⟩

instance : ToValue UInt32 := ⟨fun value => .int (Int64.ofNat value.toNat)⟩

instance : ToValue Binary64 := ⟨.float⟩

instance : ToValue Bool := ⟨.bool⟩

instance : ToValue String := ⟨.str⟩

/-- What is missing is null. -/
instance {α : Type} [ToValue α] : ToValue (Option α) :=
  ⟨fun
    | none => .null
    | some value => toValue value⟩

end ToValue

end TypedRelations
