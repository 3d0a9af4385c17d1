import TypedRelations.Condition.Lexeme

/-!
# Lexemes are pieces of the text

Each reader of the scanner takes a text off the front of its input and nothing else. So a token is
read from a part of the text that is not empty (`Token.text_prefix_of_scan`), and the scanner goes
on with what is left behind it (`Lexeme.scanFrom_covered`).
-/

namespace TypedRelations.Condition

/-- What follows the first character of a name is at the front of the input. -/
theorem nameTail_prefix_self (input : List Char) : nameTail input <+: input := by
  fun_induction nameTail input <;> simp_all [List.cons_prefix_cons]

/-- The first digits are at the front of the input. -/
theorem leadingDigits_prefix_self (input : List Char) : leadingDigits input <+: input :=
  List.takeWhile_prefix _

/-- The fraction is at the front of the input. -/
theorem leadingFraction_prefix_self (input : List Char) : leadingFraction input <+: input := by
  unfold leadingFraction
  split
  · next rest => split <;> simp [List.cons_prefix_cons, leadingDigits_prefix_self]
  · exact List.nil_prefix

/-- The sign is at the front of the input. -/
theorem leadingSign_prefix_self (input : List Char) : leadingSign input <+: input := by
  cases input with
  | nil => simp [leadingSign]
  | cons first rest =>
    simp only [leadingSign, List.take_succ_cons, List.take_zero, List.filter_cons, List.filter_nil]
    split <;> simp [List.cons_prefix_cons]

/-- A prefix of a text followed by a prefix of what comes after it is a prefix of the text. -/
theorem append_prefix_of_drop {first second input : List Char} (head : first <+: input)
    (tail : second <+: input.drop first.length) : first ++ second <+: input := by
  obtain ⟨rest, rfl⟩ := head
  simpa using tail

/-- The exponent is at the front of the input. -/
theorem leadingExponent_prefix_self (input : List Char) : leadingExponent input <+: input := by
  cases input with
  | nil => simp [leadingExponent]
  | cons letter rest =>
    simp only [leadingExponent]
    split
    · simpa [List.cons_prefix_cons] using
        append_prefix_of_drop (leadingSign_prefix_self rest) (leadingDigits_prefix_self _)
    · exact List.nil_prefix

namespace Token

/-- The text of a number is a prefix of the input, after the sign. -/
theorem text_prefix_of_scanNumber {negative : Bool} {input text : List Char} {token : Token}
    (read : scanNumber negative input = .ok (token, text)) :
    text <+: signText negative ++ input := by
  unfold scanNumber at read
  dsimp only at read
  split at read
  · split at read
    · obtain ⟨-, rfl⟩ := Prod.mk.inj (Except.ok.inj read)
      exact (List.prefix_append_right_inj _).mpr (leadingDigits_prefix_self input)
    · cases read
  · obtain ⟨-, rfl⟩ := Prod.mk.inj (Except.ok.inj read)
    exact (List.prefix_append_right_inj _).mpr
      (append_prefix_of_drop (leadingDigits_prefix_self input)
        (append_prefix_of_drop (leadingFraction_prefix_self _) (leadingExponent_prefix_self _)))

/-- The text of a number begins with its sign and all its first digits. -/
theorem digits_prefix_of_scanNumber {negative : Bool} {input text : List Char} {token : Token}
    (read : scanNumber negative input = .ok (token, text)) :
    signText negative ++ leadingDigits input <+: text := by
  unfold scanNumber at read
  dsimp only at read
  split at read
  · split at read
    · obtain ⟨-, rfl⟩ := Prod.mk.inj (Except.ok.inj read)
      exact List.prefix_rfl
    · cases read
  · obtain ⟨-, rfl⟩ := Prod.mk.inj (Except.ok.inj read)
    rw [← List.append_assoc]
    exact List.prefix_append _ _

/-- The text between quotes, with the quotes, is a prefix of the input. -/
theorem text_prefix_of_scanQuoted {quote : Char} {make : String → Token} {input text : List Char}
    {token : Token} (read : scanQuoted quote make input = .ok (token, text)) :
    text <+: quote :: input := by
  unfold scanQuoted at read
  dsimp only at read
  split at read
  · next closed =>
    obtain ⟨-, rfl⟩ := Prod.mk.inj (Except.ok.inj read)
    rw [List.cons_append, List.cons_prefix_cons]
    have whole := List.takeWhile_append_dropWhile (p := (· != quote)) (l := input)
    cases tail : input.dropWhile (· != quote) with
    | nil =>
      rw [tail, List.append_nil] at whole
      exact absurd closed (by rw [whole]; exact Nat.lt_irrefl _)
    | cons next rest =>
      have stop := List.head_dropWhile_not (· != quote) (l := input) (by simp [tail])
      simp only [tail, List.head_cons, bne_eq_false_iff_eq] at stop
      refine ⟨rfl, ⟨rest, ?_⟩⟩
      conv => rhs; rw [← whole, tail, stop]
      simp
  · cases read

/-- The text between quotes is not empty, because it has the quotes. -/
theorem text_ne_nil_of_scanQuoted {quote : Char} {make : String → Token} {input text : List Char}
    {token : Token} (read : scanQuoted quote make input = .ok (token, text)) : text ≠ [] := by
  unfold scanQuoted at read
  dsimp only at read
  split at read
  · obtain ⟨-, rfl⟩ := Prod.mk.inj (Except.ok.inj read)
    simp
  · cases read

/-- No sign is empty. -/
theorem sign_ne_nil {sign : List Char} {token : Token} (member : (sign, token) ∈ signs) :
    sign ≠ [] := by
  simp only [signs, List.mem_cons, Prod.mk.injEq, List.not_mem_nil, or_false] at member
  rcases member with ⟨rfl, -⟩ | ⟨rfl, -⟩ | ⟨rfl, -⟩ | ⟨rfl, -⟩ | ⟨rfl, -⟩ | ⟨rfl, -⟩ |
    ⟨rfl, -⟩ | ⟨rfl, -⟩ <;> simp

/-- A token is read from a text that is not empty and that the input begins with. -/
theorem text_prefix_of_scan {first : Char} {rest text : List Char} {token : Token}
    (read : scan first rest = .ok (token, text)) :
    text ≠ [] ∧ text <+: first :: rest := by
  unfold scan at read
  dsimp only at read
  split at read
  · obtain ⟨-, rfl⟩ := Prod.mk.inj (Except.ok.inj read)
    exact ⟨by simp, by simp [List.cons_prefix_cons, nameTail_prefix_self]⟩
  · split at read
    · next digit =>
      refine ⟨fun empty => ?_, by simpa [signText] using text_prefix_of_scanNumber read⟩
      have := digits_prefix_of_scanNumber read
      simp [empty, signText, leadingDigits, digit] at this
    · split at read
      · next sign =>
        have minus : first = '-' := by simp at sign; exact sign.1
        refine ⟨fun empty => ?_, by simpa [signText, minus] using text_prefix_of_scanNumber read⟩
        have := digits_prefix_of_scanNumber read
        simp [empty, signText] at this
      · split at read
        · exact ⟨text_ne_nil_of_scanQuoted read, text_prefix_of_scanQuoted read⟩
        · split at read
          · split at read
            · cases read
            · exact ⟨text_ne_nil_of_scanQuoted read, text_prefix_of_scanQuoted read⟩
          · split at read
            · next sign found listed =>
              obtain ⟨-, rfl⟩ := Prod.mk.inj (Except.ok.inj read)
              exact ⟨sign_ne_nil (List.mem_of_find?_eq_some listed),
                List.isPrefixOf_iff_prefix.mp (by simpa using List.find?_some listed)⟩
            · cases read

/-- The text of a token goes on from the character that is given to the scanner, and what is left
of the input comes after it. -/
theorem exists_rest_of_scan {first : Char} {input text : List Char} {token : Token}
    (read : scan first input = .ok (token, text)) :
    ∃ tail rest, text = first :: tail ∧ input = tail ++ rest := by
  have taken := text_prefix_of_scan read
  cases text with
  | nil => exact absurd rfl taken.1
  | cons character tail =>
      rw [List.cons_prefix_cons] at taken
      have ⟨rest, split⟩ := taken.2.2
      exact ⟨tail, rest, by rw [taken.2.1], split.symm⟩

end Token

namespace Lexeme

/-- How many bytes a text takes in UTF-8. -/
def byteLength : List Char → Nat
  | [] => 0
  | character :: rest => character.utf8Size + byteLength rest

/-- Passing over characters comes to the same as going on behind them. -/
theorem scanFrom_covered (covered position : Nat) (input : List Char) :
    scanFrom covered position input =
      scanFrom 0 (position + byteLength (input.take covered)) (input.drop covered) := by
  induction input generalizing covered position with
  | nil => simp [scanFrom]
  | cons first rest ih =>
    cases covered with
    | zero => simp [byteLength]
    | succ covered =>
      rw [scanFrom, if_pos (Nat.succ_ne_zero covered), Nat.add_sub_cancel, ih]
      simp [byteLength, Nat.add_assoc]

end Lexeme

end TypedRelations.Condition
