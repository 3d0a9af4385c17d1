import TypedRelations.Proofs.Binary64.Exact
import TypedRelations.Proofs.Utf8

/-!
# Equality and order of values

Equality and order are computed separately. Here both are described by the numbers that encodings
stand for and by the bytes of texts (`Value.Same`, `Value.Precedes`), and they agree: values of one
type are in exactly one order, which is that of equal values if and only if they are equal
(`exists_order`). Nulls are equal without being in an order.
-/

namespace TypedRelations

namespace Binary64

variable {x y : Binary64}

/-- The first encoding stands for the lesser number. Numbers are ordered by size, the infinities
included, and NaN comes after all of them. -/
inductive Precedes (x y : Binary64) : Prop where
  | number {least greatest : EReal} (isLeast : x.real? = some least)
      (isGreatest : y.real? = some greatest) (less : least < greatest)
  | notANumber {number : EReal} (isNumber : x.real? = some number) (special : y.real? = none)

theorem rank_of_isNaN (special : x.isNaN = true) : x.rank = infinityUnits + 1 := if_pos special

theorem rank_of_number (number : x.isNaN = false) : x.rank = x.units := by
  rw [rank, number, if_neg Bool.false_ne_true]

theorem rank_le (x : Binary64) : x.rank ≤ infinityUnits + 1 := by
  cases special : x.isNaN with
  | true => exact (rank_of_isNaN special).le
  | false =>
      rw [rank_of_number special]
      exact (units_mem_Icc special).2.trans (by omega)

theorem real?_eq_some_iff {number : EReal} :
    x.real? = some number ↔ x.isNaN = false ∧ ofUnits x.units = number := by
  cases special : x.isNaN with
  | true => simp [real?_eq_none_iff.mpr special]
  | false => simp [real?_eq special]

theorem Precedes.rank_lt (precedes : x.Precedes y) : x.rank < y.rank := by
  cases precedes with
  | number isLeast isGreatest less =>
      obtain ⟨leastNumber, rfl⟩ := real?_eq_some_iff.mp isLeast
      obtain ⟨greatestNumber, rfl⟩ := real?_eq_some_iff.mp isGreatest
      rw [rank_of_number leastNumber, rank_of_number greatestNumber]
      exact (strictMonoOn_ofUnits.lt_iff_lt (units_mem_Icc leastNumber)
        (units_mem_Icc greatestNumber)).mp less
  | notANumber isNumber special =>
      obtain ⟨number, -⟩ := real?_eq_some_iff.mp isNumber
      rw [rank_of_number number, rank_of_isNaN (real?_eq_none_iff.mp special)]
      exact Int.lt_add_one_of_le (units_mem_Icc number).2

/-- The lesser one of two ranks is that of a number, because no rank is above that of NaN. -/
theorem precedes_of_rank_lt (less : x.rank < y.rank) : x.Precedes y := by
  have number : x.isNaN = false := by
    rw [← Bool.not_eq_true]
    intro special
    rw [rank_of_isNaN special] at less
    exact absurd (rank_le y) (Int.not_le.mpr less)
  cases special : y.isNaN with
  | true => exact .notANumber (real?_eq number) (real?_eq_none_iff.mpr special)
  | false =>
      rw [rank_of_number number, rank_of_number special] at less
      exact .number (real?_eq number) (real?_eq special)
        (strictMonoOn_ofUnits (units_mem_Icc number) (units_mem_Icc special) less)

end Binary64

namespace Value

variable {first second third : Value}

/-- Two values are the same: they are of one type, and two floating-point numbers stand for the
same number or are both NaN. -/
inductive Same : Value → Value → Prop where
  | null : Same .null .null
  | int (integer : Int64) : Same (.int integer) (.int integer)
  | float {left right : Binary64} (same : left.real? = right.real?) :
      Same (.float left) (.float right)
  | str (string : String) : Same (.str string) (.str string)
  | bool (truth : Bool) : Same (.bool truth) (.bool truth)

/-- The equality of values finds out which are the same. -/
theorem beq_iff_same : (first == second) = true ↔ first.Same second := by
  constructor
  · intro equal
    have types := type_eq_of_beq equal
    cases first with
    | null =>
        cases second with
        | null => exact .null
        | _ => nomatch types
    | int left =>
        cases second with
        | int right =>
            rw [int_beq_int, beq_iff_eq] at equal
            exact equal ▸ .int left
        | _ => nomatch types
    | float left =>
        cases second with
        | float right => exact .float (Binary64.sameRank_iff_real?_eq.mp equal)
        | _ => nomatch types
    | str left =>
        cases second with
        | str right =>
            rw [str_beq_str, beq_iff_eq] at equal
            exact equal ▸ .str left
        | _ => nomatch types
    | bool left =>
        cases second with
        | bool right =>
            rw [bool_beq_bool, beq_iff_eq] at equal
            exact equal ▸ .bool left
        | _ => nomatch types
  · intro same
    cases same with
    | float same => exact Binary64.sameRank_iff_real?_eq.mpr same
    | _ => exact BEq.rfl

/-- The first of two values of one type is the lesser one: integers and floating-point numbers are
ordered by size with NaN last, strings by their bytes, and false is less than true. -/
inductive Precedes : Value → Value → Prop where
  | int {left right : Int64} (less : left.toInt < right.toInt) : Precedes (.int left) (.int right)
  | float {left right : Binary64} (less : left.Precedes right) :
      Precedes (.float left) (.float right)
  | str {left right : String} (less : utf8Bytes left < utf8Bytes right) :
      Precedes (.str left) (.str right)
  | bool : Precedes (.bool false) (.bool true)

theorem Precedes.type_eq (precedes : first.Precedes second) : first.type = second.type := by
  cases precedes <;> rfl

theorem Precedes.trans (before : first.Precedes second) (after : second.Precedes third) :
    first.Precedes third := by
  cases before with
  | int less =>
      cases after with
      | int alsoLess => exact .int (Int.lt_trans less alsoLess)
  | float less =>
      cases after with
      | float alsoLess =>
          have ranks := Int.lt_trans less.rank_lt alsoLess.rank_lt
          exact .float (Binary64.precedes_of_rank_lt ranks)
  | str less =>
      cases after with
      | str alsoLess => exact .str (List.lt_trans less alsoLess)
  | bool => nomatch after

/-- The order of values finds out which one is the lesser one. -/
theorem order?_eq_lt_iff : first.order? second = some .lt ↔ first.Precedes second := by
  constructor
  · intro ordered
    cases first with
    | null => nomatch ordered
    | int left =>
        cases second with
        | int right => exact .int (compare_lt_iff_lt.mp (Option.some.inj ordered))
        | _ => nomatch ordered
    | float left =>
        cases second with
        | float right =>
            have less := compare_lt_iff_lt.mp (Option.some.inj ordered)
            exact .float (Binary64.precedes_of_rank_lt less)
        | _ => nomatch ordered
    | str left =>
        cases second with
        | str right =>
            have less : left < right := compare_lt_iff_lt.mp (Option.some.inj ordered)
            exact .str (lt_iff_utf8Bytes_lt.mp less)
        | _ => nomatch ordered
    | bool left =>
        cases second with
        | bool right =>
            cases left <;> cases right <;> first | exact .bool | nomatch ordered
        | _ => nomatch ordered
  · intro precedes
    cases precedes with
    | int less => exact congrArg some (compare_lt_iff_lt.mpr less)
    | float less => exact congrArg some (compare_lt_iff_lt.mpr less.rank_lt)
    | @str left right less =>
        have ordered : compare left right = .lt :=
          compare_lt_iff_lt.mpr (lt_iff_utf8Bytes_lt.mpr less)
        exact congrArg some ordered
    | bool => rfl

/-- Values of one type other than null are in an order, and it is reversed when they change places.
They are in the same place of the order exactly if they are equal. -/
theorem exists_order (types : first.type = second.type) (notNull : first.type ≠ .null) :
    ∃ order, first.order? second = some order ∧ second.order? first = some order.swap ∧
      (order = .eq ↔ (first == second) = true) := by
  cases first with
  | null => exact absurd rfl notNull
  | int left =>
      cases second with
      | int right =>
          refine ⟨_, rfl, congrArg some Std.OrientedOrd.eq_swap, ?_⟩
          rw [compare_eq_iff_eq, Int64.toInt_inj, int_beq_int, beq_iff_eq]
      | _ => nomatch types
  | float left =>
      cases second with
      | float right =>
          exact ⟨_, rfl, congrArg some Std.OrientedOrd.eq_swap, Binary64.rankCompare_eq_eq⟩
      | _ => nomatch types
  | str left =>
      cases second with
      | str right =>
          have reversed : compare right left = (compare left right).swap := Std.OrientedOrd.eq_swap
          refine ⟨compare left right, rfl, congrArg some reversed, ?_⟩
          rw [compare_eq_iff_eq, str_beq_str, beq_iff_eq]
      | _ => nomatch types
  | bool left =>
      cases second with
      | bool right =>
          refine ⟨_, rfl, congrArg some Std.OrientedOrd.eq_swap, ?_⟩
          rw [compare_eq_iff_eq, bool_beq_bool, beq_iff_eq]
      | _ => nomatch types

end Value

end TypedRelations
