import Mathlib.Data.List.TakeWhile
import TypedRelations.Proofs.Condition.Kind

/-!
# Numbers are taken whole

An integer may be the beginning of a number with a fraction, and such a number that of one with an
exponent. The scanner takes a fraction or an exponent only with a digit in it, which finds the
longest of the integers and numbers that the input begins with (`takesLongest_number`).
-/

namespace TypedRelations.Condition

section Runs

variable {α : Type} {accepts : α → Bool} {inside tail input : List α} {stop : α}

/-- Accepted items at the front of a list are at the front of all those that are taken. -/
theorem prefix_takeWhile (all : ∀ item ∈ inside, accepts item = true) (begins : inside <+: input) :
    inside <+: input.takeWhile accepts := by
  obtain ⟨after, rfl⟩ := begins
  rw [List.takeWhile_append_of_pos all]
  exact List.prefix_append _ _

/-- Accepted items before one that is not accepted are all those that are taken. -/
theorem takeWhile_of_stop (all : ∀ item ∈ inside, accepts item = true)
    (stops : accepts stop = false) (begins : inside ++ stop :: tail <+: input) :
    input.takeWhile accepts = inside ∧ stop :: tail <+: input.drop inside.length := by
  obtain ⟨after, rfl⟩ := begins
  rw [List.append_assoc, List.takeWhile_append_of_pos all, List.cons_append,
    List.takeWhile_cons_of_neg (by simp [stops]), List.append_nil, List.drop_left]
  exact ⟨rfl, List.prefix_append _ _⟩

end Runs

variable {input tail text : List Char} {negative : Bool}

theorem leadingDigits_mem (starts : leadingDigits input ≠ []) :
    leadingDigits input ∈ atLeastOne digit :=
  mem_digits.mpr ⟨starts, fun _ member => List.mem_takeWhile_imp member⟩

theorem prefix_leadingDigits {digits : List Char} (areDigits : digits ∈ atLeastOne digit)
    (begins : digits <+: input) : digits <+: leadingDigits input :=
  prefix_takeWhile (mem_digits.mp areDigits).2 begins

/-- Digits before another character are all the digits that the input begins with. -/
theorem leadingDigits_of_stop {digits : List Char} {stop : Char}
    (areDigits : digits ∈ atLeastOne digit) (stops : stop.isDigit = false)
    (begins : digits ++ stop :: tail <+: input) :
    leadingDigits input = digits ∧ stop :: tail <+: input.drop digits.length :=
  takeWhile_of_stop (mem_digits.mp areDigits).2 stops begins

theorem ne_nil_of_prefix {digits : List Char} (areDigits : digits ∈ atLeastOne digit)
    (begins : digits <+: tail) : tail ≠ [] := by
  rintro rfl
  exact (mem_digits.mp areDigits).1 (List.prefix_nil.mp begins)

theorem leadingSign_cases (input : List Char) :
    leadingSign input = [] ∨ leadingSign input = ['+'] ∨ leadingSign input = ['-'] := by
  cases input with
  | nil => exact .inl rfl
  | cons first rest =>
      by_cases plus : first = '+'
      · exact .inr (.inl (by rw [plus]; rfl))
      · by_cases minus : first = '-'
        · exact .inr (.inr (by rw [minus]; rfl))
        · exact .inl (by simp [leadingSign, plus, minus])

theorem leadingSign_append {sign digits : List Char}
    (isSign : sign = [] ∨ sign = ['+'] ∨ sign = ['-']) (areDigits : digits ∈ atLeastOne digit)
    (after : List Char) : leadingSign (sign ++ (digits ++ after)) = sign := by
  rcases isSign with rfl | rfl | rfl
  · obtain ⟨first, rest, rfl, isDigit⟩ := exists_cons_of_digits areDigits
    have notPlus : first ≠ '+' := by
      rintro rfl
      exact absurd isDigit (by decide)
    have notMinus : first ≠ '-' := by
      rintro rfl
      exact absurd isDigit (by decide)
    simp [leadingSign, notPlus, notMinus]
  · rfl
  · rfl

theorem leadingExponent_mem (input : List Char) : leadingExponent input ∈ exponent := by
  cases input with
  | nil => exact mem_exponent.mpr (.inl rfl)
  | cons letter rest =>
      rw [leadingExponent]
      split
      next takes =>
        simp only [Bool.and_eq_true, Bool.or_eq_true, beq_iff_eq, Bool.not_eq_true',
          List.isEmpty_eq_false_iff] at takes
        exact mem_exponent.mpr (.inr ⟨letter, leadingSign rest, _, leadingDigits_mem takes.2,
          takes.1, leadingSign_cases rest, rfl⟩)
      next => exact mem_exponent.mpr (.inl rfl)

theorem prefix_leadingExponent {power : List Char} (isPower : power ∈ exponent)
    (begins : power <+: input) : power <+: leadingExponent input := by
  rcases mem_exponent.mp isPower with rfl | ⟨letter, sign, digits, areDigits, isLetter, isSign, rfl⟩
  · exact List.nil_prefix
  · obtain ⟨after, rfl⟩ := begins
    have taken : digits <+: leadingDigits (digits ++ after) :=
      prefix_leadingDigits areDigits (List.prefix_append _ _)
    have nonempty := ne_nil_of_prefix areDigits taken
    have signs := leadingSign_append isSign areDigits after
    rw [List.cons_append, List.append_assoc, leadingExponent, signs, List.drop_left,
      if_pos (by simpa [nonempty] using isLetter), List.cons_append, List.cons_prefix_cons]
    exact ⟨rfl, (List.prefix_append_right_inj sign).mpr taken⟩

theorem not_isDigit_of_mem_exponent {letter : Char} {power : List Char}
    (isPower : letter :: power ∈ exponent) : letter.isDigit = false := by
  rcases mem_exponent.mp isPower with none | ⟨_, _, _, -, isLetter, -, same⟩
  · cases none
  · rw [(List.cons.inj same).1]
    rcases isLetter with rfl | rfl <;> rfl

theorem leadingFraction_cases (input : List Char) :
    leadingFraction input = [] ∨
      ∃ digits ∈ atLeastOne digit, leadingFraction input = '.' :: digits := by
  unfold leadingFraction
  split
  next rest =>
    split
    next => exact .inl rfl
    next digits =>
      exact .inr ⟨_, leadingDigits_mem (by simpa using digits), rfl⟩
  next => exact .inl rfl

/-- A fraction with an exponent is at the front of those that are taken. -/
theorem prefix_leadingFraction {fraction power : List Char}
    (areDigits : fraction ∈ atLeastOne digit) (isPower : power ∈ exponent)
    (begins : '.' :: fraction ++ power <+: input) :
    leadingFraction input ≠ [] ∧
      '.' :: fraction ++ power <+:
        leadingFraction input ++ leadingExponent (input.drop (leadingFraction input).length) := by
  cases input with
  | nil => cases List.prefix_nil.mp begins
  | cons first rest =>
      rw [List.cons_append, List.cons_prefix_cons] at begins
      obtain ⟨rfl, inRest⟩ := begins
      have taken := prefix_leadingDigits areDigits ((List.prefix_append _ _).trans inRest)
      have nonempty := ne_nil_of_prefix areDigits taken
      have whole : leadingFraction ('.' :: rest) = '.' :: leadingDigits rest := by
        simp [leadingFraction, nonempty]
      rw [whole, List.cons_append, List.cons_append, List.cons_prefix_cons]
      refine ⟨List.cons_ne_nil _ _, rfl, ?_⟩
      cases power with
      | nil =>
          rw [List.append_nil]
          exact taken.trans (List.prefix_append _ _)
      | cons letter power =>
          have stops := not_isDigit_of_mem_exponent isPower
          obtain ⟨all, later⟩ := leadingDigits_of_stop areDigits stops inRest
          rw [all]
          exact (List.prefix_append_right_inj fraction).mpr (prefix_leadingExponent isPower later)

/-- A signed text of digits in front of an input of digits with a sign has the same sign. -/
theorem sign_agrees {other : Bool} {digits : List Char} (areDigits : digits ∈ atLeastOne digit)
    (starts : leadingDigits input ≠ [])
    (begins : Token.signText other ++ digits ++ tail <+: Token.signText negative ++ input) :
    other = negative ∧ digits ++ tail <+: input := by
  cases other with
  | true =>
      cases negative with
      | true => exact ⟨rfl, (List.cons_prefix_cons.mp begins).2⟩
      | false =>
          cases input with
          | nil => exact absurd rfl starts
          | cons first rest =>
              rw [← (List.cons_prefix_cons.mp begins).1] at starts
              exact absurd rfl starts
  | false =>
      cases negative with
      | true =>
          obtain ⟨first, rest, rfl, isDigit⟩ := exists_cons_of_digits areDigits
          rw [(List.cons_prefix_cons.mp begins).1] at isDigit
          exact absurd isDigit (by decide)
      | false => exact ⟨rfl, begins⟩

theorem prefix_of_mem_integer (isInteger : text ∈ Pattern.integer.language)
    (starts : leadingDigits input ≠ []) (begins : text <+: Token.signText negative ++ input) :
    text <+: Token.signText negative ++ leadingDigits input := by
  obtain ⟨other, digits, areDigits, rfl⟩ := mem_integer.mp isInteger
  rw [← List.append_nil (Token.signText other ++ digits)] at begins
  obtain ⟨rfl, inInput⟩ := sign_agrees areDigits starts begins
  rw [List.append_nil] at inInput
  exact (List.prefix_append_right_inj _).mpr (prefix_leadingDigits areDigits inInput)

theorem prefix_of_mem_number (isNumber : text ∈ Pattern.number.language)
    (starts : leadingDigits input ≠ []) (begins : text <+: Token.signText negative ++ input) :
    leadingFraction (input.drop (leadingDigits input).length) ≠ [] ∧
      text <+: Token.signText negative ++ (leadingDigits input ++
        (leadingFraction (input.drop (leadingDigits input).length) ++
          leadingExponent ((input.drop (leadingDigits input).length).drop
            (leadingFraction (input.drop (leadingDigits input).length)).length))) := by
  obtain ⟨other, whole, wholeDigits, fraction, fractionDigits, power, isPower, rfl⟩ :=
    mem_number.mp isNumber
  rw [List.append_assoc] at begins ⊢
  obtain ⟨rfl, inInput⟩ := sign_agrees wholeDigits starts begins
  obtain ⟨all, later⟩ := leadingDigits_of_stop wholeDigits (by decide) inInput
  rw [all]
  obtain ⟨nonempty, taken⟩ := prefix_leadingFraction fractionDigits isPower later
  refine ⟨nonempty, ?_⟩
  rw [List.append_assoc]
  exact (List.prefix_append_right_inj _).mpr ((List.prefix_append_right_inj _).mpr taken)

/-! ## Reading numbers -/

/-- Reading digits from left to right gives each the weight of its place. -/
theorem digitsValue_eq_decimalValue (digits : List Char) :
    digitsValue digits = decimalValue digits := by
  induction digits with
  | nil => rfl
  | cons first rest ih =>
      rw [digitsValue] at ih ⊢
      rw [Nat.ofDigitChars_cons, Nat.ofDigitChars_eq_ofDigitChars_zero, ih, decimalValue,
        Nat.mul_zero, Nat.zero_add, Nat.mul_comm]

theorem exponentValue_eq_scale (power : List Char) : exponentValue power = scale power := by
  fun_cases exponentValue power with
  | case1 letter digits => exact congrArg Int.ofNat (digitsValue_eq_decimalValue digits)
  | case2 letter digits =>
      exact congrArg (fun value : Nat => -(value : Int)) (digitsValue_eq_decimalValue digits)
  | case3 letter digits notPlus notMinus =>
      rw [digitsValue_eq_decimalValue, scale, integerValue] <;> assumption
  | case4 => rfl

theorem integerValue_signText {digits : List Char} (areDigits : digits ∈ atLeastOne digit) :
    integerValue (Token.signText negative ++ digits) =
      if negative then -(digitsValue digits : Int) else digitsValue digits := by
  rw [digitsValue_eq_decimalValue]
  cases negative with
  | true => rfl
  | false =>
      obtain ⟨first, rest, rfl, isDigit⟩ := exists_cons_of_digits areDigits
      change integerValue (first :: rest) = decimalValue (first :: rest)
      rw [integerValue]
      rintro _ ⟨⟩
      exact absurd isDigit (by decide)

/-- An integer is read as its value if it fits into sixty-four bits. -/
theorem integer?_cases (negative : Bool) {digits : List Char}
    (areDigits : digits ∈ atLeastOne digit) :
    (∃ value : Int64, Token.integer? negative digits = some value ∧
        value.toInt = integerValue (Token.signText negative ++ digits)) ∨
      Token.integer? negative digits = none ∧
        (integerValue (Token.signText negative ++ digits) < Int64.minValue.toInt ∨
          Int64.maxValue.toInt < integerValue (Token.signText negative ++ digits)) := by
  rw [integerValue_signText areDigits, Token.integer?]
  generalize (if negative then -(digitsValue digits : Int) else digitsValue digits) = value
  have least : Int64.minValue.toInt = -2 ^ 63 := by decide
  have greatest : Int64.maxValue.toInt = 2 ^ 63 - 1 := by decide
  split
  next fits => exact .inl ⟨_, rfl, Int64.toInt_ofInt_of_le (by omega) (by omega)⟩
  next outside => exact .inr ⟨rfl, by omega⟩

section Scan

variable {first : Char} {rest : List Char}

/-- Digits without a fraction behind them are the longest integer. -/
theorem longest_integer (whole : first :: rest = Token.signText negative ++ input)
    (starts : leadingDigits input ≠ [])
    (noFraction : leadingFraction (input.drop (leadingDigits input).length) = []) :
    Longest (first :: rest) (Token.signText negative ++ leadingDigits input) := by
  have isInteger : Token.signText negative ++ leadingDigits input ∈ Pattern.integer.language :=
    mem_integer.mpr ⟨negative, _, leadingDigits_mem starts, rfl⟩
  refine longest_of_accepts (.inr ⟨.integer, isInteger⟩) (head_of_isNumber (.inl isInteger)) ?_
    fun other accepted begins => ?_
  · rw [whole]
    exact (List.prefix_append_right_inj _).mpr (leadingDigits_prefix_self input)
  · rw [whole] at begins
    rcases accepted with isInteger | isNumber
    · exact prefix_of_mem_integer isInteger starts begins
    · exact absurd noFraction (prefix_of_mem_number isNumber starts begins).1

/-- An integer is taken if it fits into sixty-four bits. -/
theorem takesLongest_integer (whole : first :: rest = Token.signText negative ++ input)
    (starts : leadingDigits input ≠ [])
    (noFraction : leadingFraction (input.drop (leadingDigits input).length) = []) :
    TakesLongest (first :: rest) (Token.scanNumber negative input) := by
  have areDigits := leadingDigits_mem starts
  have longest := longest_integer whole starts noFraction
  have isInteger : Token.signText negative ++ leadingDigits input ∈ Pattern.integer.language :=
    mem_integer.mpr ⟨negative, _, areDigits, rfl⟩
  have head := head_of_isNumber (.inl isInteger)
  rw [Token.scanNumber, noFraction]
  rcases integer?_cases negative areDigits with ⟨value, isRead, valueEq⟩ | ⟨notRead, outside⟩
  · rw [isRead]
    have decodes : Pattern.integer.Decodes _ (.int value) := ⟨value, valueEq, rfl⟩
    exact ⟨reads_of_pattern head (by decide) (by decide) .integer isInteger decodes, longest⟩
  · rw [notRead]
    exact .inr ⟨_, longest, isInteger, outside⟩

/-- With a fraction, a number is taken with its exponent if it has one. -/
theorem takesLongest_fraction (whole : first :: rest = Token.signText negative ++ input)
    (starts : leadingDigits input ≠ []) {fraction : List Char}
    (fractionDigits : fraction ∈ atLeastOne digit)
    (isFraction : leadingFraction (input.drop (leadingDigits input).length) = '.' :: fraction) :
    TakesLongest (first :: rest) (Token.scanNumber negative input) := by
  have areDigits := leadingDigits_mem starts
  obtain ⟨power, powerEq⟩ : ∃ power, leadingExponent
      ((input.drop (leadingDigits input).length).drop ('.' :: fraction).length) = power := ⟨_, rfl⟩
  have isPower : power ∈ exponent := powerEq ▸ leadingExponent_mem _
  have scanned : Token.scanNumber negative input =
      .ok (.float (.ofDecimal negative (decimalValue (leadingDigits input ++ fraction))
        (scale power - fraction.length)),
        Token.signText negative ++ (leadingDigits input ++ ('.' :: fraction ++ power))) := by
    rw [Token.scanNumber, isFraction, ← powerEq, ← digitsValue_eq_decimalValue,
      ← exponentValue_eq_scale]
    rfl
  have parts : Token.signText negative ++ (leadingDigits input ++ ('.' :: fraction ++ power)) =
      Token.signText negative ++ leadingDigits input ++ '.' :: fraction ++ power := by
    simp
  have isNumber := mem_number.mpr ⟨negative, _, areDigits, fraction, fractionDigits, power, isPower,
    parts⟩
  have head := head_of_isNumber (.inr isNumber)
  have begins := Token.text_prefix_of_scanNumber scanned
  rw [← whole] at begins
  rw [scanned]
  refine ⟨reads_of_pattern head (by decide) (by decide) .number isNumber ⟨negative, _, areDigits,
    fraction, fractionDigits, power, isPower, parts, rfl⟩, ?_⟩
  refine longest_of_accepts (.inr ⟨.number, isNumber⟩) head begins fun other accepted inInput => ?_
  rw [whole] at inInput
  rcases accepted with isInteger | isNumber
  · refine (prefix_of_mem_integer isInteger starts inInput).trans ?_
    exact (List.prefix_append_right_inj _).mpr (List.prefix_append _ _)
  · have taken := (prefix_of_mem_number isNumber starts inInput).2
    rw [isFraction, powerEq] at taken
    exact taken

/-- A number whose sign and first digit are there is taken whole. -/
theorem takesLongest_number (whole : first :: rest = Token.signText negative ++ input)
    (starts : leadingDigits input ≠ []) :
    TakesLongest (first :: rest) (Token.scanNumber negative input) := by
  rcases leadingFraction_cases (input.drop (leadingDigits input).length) with
    noFraction | ⟨fraction, fractionDigits, isFraction⟩
  · exact takesLongest_integer whole starts noFraction
  · exact takesLongest_fraction whole starts fractionDigits isFraction

/-- A minus sign without a digit behind it begins no number. -/
theorem stuck_minus (noDigit : ¬ rest.head?.any Char.isDigit = true) : Stuck ('-' :: rest) := by
  apply stuck_of_not_accepts
  intro other accepted begins
  obtain ⟨negative, digits, tail, areDigits, rfl⟩ := begins_of_isNumber accepted
  obtain ⟨first, more, rfl, isDigit⟩ := exists_cons_of_digits areDigits
  cases negative with
  | true =>
      obtain ⟨after, rfl⟩ := (List.cons_prefix_cons.mp begins).2
      exact noDigit isDigit
  | false =>
      rw [(List.cons_prefix_cons.mp begins).1] at isDigit
      exact absurd isDigit (by decide)

end Scan

end TypedRelations.Condition
