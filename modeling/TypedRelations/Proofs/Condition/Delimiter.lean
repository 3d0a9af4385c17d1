import Mathlib.Data.List.Find
import TypedRelations.Proofs.Condition.Spelling

/-!
# Delimiters

No token goes on with a blank or with a closing parenthesis, unless it is in quotes and so has its
end further on. A text in front of such a character is therefore read as it is on its own
(`Spells.append`), so that a condition that has been put together from others has their tokens.
-/

namespace TypedRelations.Condition

/-- The characters with which a token outside quotes does not go on. -/
def delimiters : List Char := [' ', '\t', '\n', '\r', '\x0c', ')']

/-- The text is empty or begins with a delimiter. -/
def Delimits (text : List Char) : Prop := ∀ character ∈ text.head?, character ∈ delimiters

theorem delimits_closeParen (rest : List Char) : Delimits (')' :: rest) := by
  intro character head
  cases head
  decide

variable {input tail text : List Char}

/-- A test that no delimiter passes is not passed by the first character of what delimits. -/
theorem Delimits.rejected (ends : Delimits tail) (accepts : Char → Bool)
    (rejects : delimiters.any accepts = false) : tail.head?.any accepts = false := by
  cases tail with
  | nil => rfl
  | cons character rest =>
      have rejected := List.any_eq_false.mp rejects character (ends character rfl)
      simpa using rejected

theorem takeWhile_append_of_rejected {accepts : Char → Bool}
    (rejected : tail.head?.any accepts = false) :
    (input ++ tail).takeWhile accepts = input.takeWhile accepts := by
  induction input with
  | nil =>
      cases tail with
      | nil => rfl
      | cons character rest =>
          have stops : accepts character = false := rejected
          simp [stops]
  | cons first rest ih => simp only [List.cons_append, List.takeWhile_cons, ih]

theorem any_head?_append {accepts : Char → Bool} (rejected : tail.head?.any accepts = false) :
    (input ++ tail).head?.any accepts = input.head?.any accepts := by
  cases input with
  | nil => exact rejected
  | cons first rest => rfl

section Ends

variable (ends : Delimits tail)

include ends

theorem nameTail_of_delimits : nameTail tail = [] := by
  cases tail with
  | nil => rfl
  | cons character rest =>
      have rejected := ends.rejected (fun other => other == '.' || isWordPart other) (by rfl)
      simp only [List.head?_cons, Option.any_some, Bool.or_eq_false_iff, beq_eq_false_iff_ne]
        at rejected
      simp [nameTail_cons rejected.1, rejected.2]

theorem nameTail_append_of_delimits (input : List Char) :
    nameTail (input ++ tail) = nameTail input := by
  fun_induction nameTail input with
  | case1 next rest start ih => simp [nameTail, start, ih]
  | case2 next rest notStart => simp [nameTail, notStart]
  | case3 character rest notDotted part ih =>
      have notDot : character ≠ '.' := by
        rintro rfl
        exact absurd part (by decide)
      simp [nameTail_cons notDot, part, ih]
  | case4 character rest notDotted notPart =>
      by_cases dot : character = '.'
      · cases rest with
        | cons next rest => exact (notDotted next rest dot rfl).elim
        | nil =>
            have rejected := ends.rejected isWordStart (by rfl)
            cases tail with
            | nil => simp [dot, nameTail, isWordPart, isWordStart]
            | cons next rest =>
                have notStart : isWordStart next = false := rejected
                simp [dot, nameTail, notStart]
      · simp [nameTail_cons dot, notPart]
  | case5 => exact nameTail_of_delimits ends

theorem leadingDigits_append_of_delimits (input : List Char) :
    leadingDigits (input ++ tail) = leadingDigits input :=
  takeWhile_append_of_rejected (ends.rejected _ (by rfl))

theorem leadingFraction_of_delimits : leadingFraction tail = [] := by
  have rejected := ends.rejected (· == '.') (by rfl)
  cases tail with
  | nil => rfl
  | cons character rest =>
      have notDot : character ≠ '.' := by simpa using rejected
      simp [leadingFraction, notDot]

theorem leadingFraction_append_of_delimits (input : List Char) :
    leadingFraction (input ++ tail) = leadingFraction input := by
  cases input with
  | nil => exact leadingFraction_of_delimits ends
  | cons first rest =>
      by_cases dot : first = '.'
      · simp [dot, leadingFraction, leadingDigits_append_of_delimits ends]
      · simp [leadingFraction, dot]

theorem leadingSign_append_of_delimits (input : List Char) :
    leadingSign (input ++ tail) = leadingSign input := by
  cases input with
  | nil =>
      have rejected := ends.rejected (fun other => other == '+' || other == '-') (by rfl)
      cases tail with
      | nil => rfl
      | cons character rest =>
          have notSign : (character == '+' || character == '-') = false := rejected
          simp [leadingSign, notSign]
  | cons first rest => simp [leadingSign]

theorem leadingExponent_of_delimits : leadingExponent tail = [] := by
  have rejected := ends.rejected (fun other => other == 'e' || other == 'E') (by rfl)
  cases tail with
  | nil => rfl
  | cons character rest =>
      have notLetter : (character == 'e' || character == 'E') = false := rejected
      simp [leadingExponent, notLetter]

theorem leadingExponent_append_of_delimits (input : List Char) :
    leadingExponent (input ++ tail) = leadingExponent input := by
  cases input with
  | nil => exact leadingExponent_of_delimits ends
  | cons letter rest =>
      have signWidth := (leadingSign_prefix_self rest).length_le
      simp only [List.cons_append, leadingExponent, leadingSign_append_of_delimits ends,
        List.drop_append_of_le_length signWidth, leadingDigits_append_of_delimits ends]

/-- A number is read to the same end, or found too large, in front of a delimiter. -/
theorem scanNumber_append_of_delimits (negative : Bool) (input : List Char) :
    Token.scanNumber negative (input ++ tail) = Token.scanNumber negative input := by
  have wholeWidth := (leadingDigits_prefix_self input).length_le
  have fractionWidth :=
    (leadingFraction_prefix_self (input.drop (leadingDigits input).length)).length_le
  simp only [Token.scanNumber, leadingDigits_append_of_delimits ends,
    List.drop_append_of_le_length wholeWidth, leadingFraction_append_of_delimits ends,
    List.drop_append_of_le_length fractionWidth, leadingExponent_append_of_delimits ends]

/-- A sign is one character, or two of which the second is an equals sign. -/
theorem isPrefixOf_append_of_delimits {sign : List Char} {token : Token}
    (isSign : (sign, token) ∈ Token.signs) (first : Char) (rest : List Char) :
    sign.isPrefixOf (first :: (rest ++ tail)) = sign.isPrefixOf (first :: rest) := by
  have shapes : ∀ entry ∈ Token.signs, entry.1.tail = [] ∨ entry.1.tail = ['='] := by decide
  have rejected := ends.rejected ('=' == ·) (by rfl)
  cases sign with
  | nil => rfl
  | cons character others =>
      rcases shapes _ isSign with single | double
      · simp only [List.tail_cons] at single
        simp [single, List.isPrefixOf]
      · simp only [List.tail_cons] at double
        have next : (['='] : List Char).isPrefixOf (rest ++ tail) = ['='].isPrefixOf rest := by
          cases rest with
          | nil =>
              cases tail with
              | nil => rfl
              | cons other _ =>
                  have notEquals : ('=' == other) = false := rejected
                  simp [List.isPrefixOf, notEquals]
          | cons other rest => simp [List.isPrefixOf]
        simp only [double, List.isPrefixOf, next]

theorem find?_signs_append_of_delimits (first : Char) (rest : List Char) :
    (Token.signs.find? fun entry => entry.1.isPrefixOf (first :: (rest ++ tail))) =
      Token.signs.find? fun entry => entry.1.isPrefixOf (first :: rest) := by
  apply List.find?_congr
  intro entry isSign
  exact isPrefixOf_append_of_delimits ends isSign first rest

end Ends

/-- A text in quotes ends at its closing quote, whatever comes behind. -/
theorem scanQuoted_append {quote : Char} {make : String → Token} {token : Token}
    (scanned : Token.scanQuoted quote make input = .ok (token, text)) (tail : List Char) :
    Token.scanQuoted quote make (input ++ tail) = .ok (token, text) := by
  simp only [Token.scanQuoted] at scanned ⊢
  split at scanned
  next closed =>
    have body : (input ++ tail).takeWhile (· != quote) = input.takeWhile (· != quote) := by
      rw [List.takeWhile_append, if_neg (Nat.ne_of_lt closed)]
    have stillClosed : (input.takeWhile (· != quote)).length < (input ++ tail).length := by
      rw [List.length_append]
      omega
    rw [body, if_pos stillClosed]
    exact scanned
  next => cases scanned

theorem all_head?_append {accepts : Char → Bool} (fails : input.head?.all accepts = false)
    (tail : List Char) : (input ++ tail).head?.all accepts = false := by
  cases input with
  | nil => cases fails
  | cons first rest => exact fails

/-! ## Whole texts -/

/-- A token is read in the same way in front of a delimiter. -/
theorem scan_append {first : Char} {token : Token}
    (scanned : Token.scan first input = .ok (token, text)) (ends : Delimits tail) :
    Token.scan first (input ++ tail) = .ok (token, text) := by
  rw [Token.scan] at scanned ⊢
  rw [nameTail_append_of_delimits ends, ← List.cons_append, scanNumber_append_of_delimits ends,
    scanNumber_append_of_delimits ends, any_head?_append (ends.rejected _ (by rfl)),
    List.cons_append, find?_signs_append_of_delimits ends]
  by_cases start : isWordStart first = true
  · rwa [if_pos start] at scanned ⊢
  rw [if_neg start] at scanned ⊢
  by_cases isDigit : first.isDigit = true
  · rwa [if_pos isDigit] at scanned ⊢
  rw [if_neg isDigit] at scanned ⊢
  by_cases isNegative : (first == '-' && input.head?.any Char.isDigit) = true
  · rwa [if_pos isNegative] at scanned ⊢
  rw [if_neg isNegative] at scanned ⊢
  by_cases isQuote : (first == singleQuote || first == doubleQuote) = true
  · rw [if_pos isQuote] at scanned ⊢
    exact scanQuoted_append scanned tail
  rw [if_neg isQuote] at scanned ⊢
  by_cases isBackQuote : (first == backQuote) = true
  · rw [if_pos isBackQuote] at scanned ⊢
    cases closes : input.head?.all (· == backQuote) with
    | true =>
        rw [closes] at scanned
        cases scanned
    | false =>
        rw [closes] at scanned
        rw [all_head?_append closes tail]
        exact scanQuoted_append scanned tail
  rwa [if_neg isBackQuote] at scanned ⊢

/-- A text in front of a delimiter spells the tokens that it spells on its own, and what follows
spells its own tokens. -/
theorem Spells.append {tokens more : List Token} (spelled : Spells input tokens)
    (ends : Delimits tail) (later : Spells tail more) :
    Spells (input ++ tail) (tokens ++ more) := by
  induction spelled with
  | nil => exact later
  | blank isBlank _ ih => exact .blank isBlank ih
  | @token first text rest token tokens notBlank scanned _ ih =>
      have scannedWhole := scan_append scanned ends
      rw [List.append_assoc] at scannedWhole ⊢
      exact .token notBlank scannedWhole ih

/-- What the scanner finds in a text is what the text spells. Behind each token it goes on with what
is left, so that the induction is on the length of the text. -/
theorem spells_of_scanFrom {position : Nat} {lexemes : List Lexeme}
    (scanned : Lexeme.scanFrom 0 position input = .ok lexemes) :
    Spells input (lexemes.map Lexeme.token) := by
  induction length : input.length using Nat.strong_induction_on
    generalizing input position lexemes with
  | _ count ih =>
    cases input with
    | nil =>
        rw [← Except.ok.inj scanned]
        exact .nil
    | cons first input =>
        cases blank : isBlank first with
        | true =>
            have shorter : input.length < count := by simp [← length]
            simp only [Lexeme.scanFrom, ne_eq, not_true_eq_false, if_false, blank, if_true]
              at scanned
            exact .blank blank (ih input.length shorter scanned rfl)
        | false =>
            cases taken : Token.scan first input with
            | error text => simp [Lexeme.scanFrom, blank, taken] at scanned
            | ok lexed =>
                obtain ⟨token, text⟩ := lexed
                obtain ⟨tail, rest, rfl, rfl⟩ := Token.exists_rest_of_scan taken
                have shorter : rest.length < count := by
                  simp only [List.length_cons, List.length_append] at length
                  omega
                rw [scanFrom_token blank taken] at scanned
                cases later : Lexeme.scanFrom 0
                    (position + first.utf8Size + Lexeme.byteLength tail) rest with
                | error fault =>
                    rw [later] at scanned
                    cases scanned
                | ok others =>
                    rw [later] at scanned
                    rw [← Except.ok.inj scanned]
                    exact .token blank taken (ih rest.length shorter later rfl)

end TypedRelations.Condition
