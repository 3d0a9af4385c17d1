import TypedRelations.Proofs.Condition.Pattern

/-!
# Kinds of texts

The first character of a text decides which patterns the text can match. So the longest match that
an input begins with is the longest one among the matches of one kind, and no other pattern has to
be looked at.
-/

namespace TypedRelations.Condition

/-- The patterns that texts with the same first character can match. -/
inductive Kind where
  | word
  | number
  | singleQuoted
  | doubleQuoted
  | backQuoted
  | sign
  deriving DecidableEq

namespace Kind

/-- The kind of the texts that begin with a character. -/
def ofFirst (first : Char) : Kind :=
  if isWordStart first then .word
  else if first.isDigit || first == '-' then .number
  else if first == singleQuote then .singleQuoted
  else if first == doubleQuote then .doubleQuoted
  else if first == backQuote then .backQuoted
  else .sign

/-- The matches of a kind. -/
def Accepts : Kind → List Char → Prop
  | word, text => areDottedWords true text = true
  | number, text => text ∈ Pattern.integer.language ∨ text ∈ Pattern.number.language
  | singleQuoted, text => ∃ body, singleQuote ∉ body ∧ text = singleQuote :: (body ++ [singleQuote])
  | doubleQuoted, text => ∃ body, doubleQuote ∉ body ∧ text = doubleQuote :: (body ++ [doubleQuote])
  | backQuoted, text =>
    ∃ body, body ≠ [] ∧ backQuote ∉ body ∧ text = backQuote :: (body ++ [backQuote])
  | sign, text => ∃ token, (text, token) ∈ Token.signs

end Kind

/-- The fixed texts are the signs and the reserved words. -/
theorem mem_fixedTexts {text : List Char} {token : Token} :
    (String.ofList text, token) ∈ fixedTexts ↔
      (text, token) ∈ Token.signs ∨ (String.ofList text, token) ∈ Token.reservedWords := by
  have tables : fixedTexts =
      Token.signs.map (fun entry => (String.ofList entry.1, entry.2)) ++ Token.reservedWords := rfl
  rw [tables, List.mem_append, List.mem_map]
  refine or_congr_left ⟨?_, fun listed => ⟨_, listed, rfl⟩⟩
  rintro ⟨⟨sign, other⟩, listed, same⟩
  obtain ⟨texts, rfl⟩ := Prod.mk.inj same
  rwa [← String.ofList_injective texts]

theorem not_isWordStart_of_isDigit {character : Char} (isDigit : character.isDigit = true) :
    isWordStart character = false := by
  rw [← Bool.not_eq_true, isWordStart_iff]
  have below := (isDigit_iff.mp isDigit).2
  rintro (upper | lower | rfl)
  · exact absurd (Char.le_trans upper.1 below) (by decide)
  · exact absurd (Char.le_trans lower.1 below) (by decide)
  · exact absurd below (by decide)

theorem ofFirst_digit {character : Char} (isDigit : character.isDigit = true) :
    Kind.ofFirst character = .number := by
  rw [Kind.ofFirst, not_isWordStart_of_isDigit isDigit, isDigit]
  rfl

/-- Integers and numbers begin with digits, after a sign or none. -/
theorem begins_of_isNumber {text : List Char}
    (isNumber : text ∈ Pattern.integer.language ∨ text ∈ Pattern.number.language) :
    ∃ negative digits tail, digits ∈ atLeastOne digit ∧
      text = Token.signText negative ++ digits ++ tail := by
  rcases isNumber with isInteger | isNumber
  · obtain ⟨negative, digits, areDigits, rfl⟩ := mem_integer.mp isInteger
    exact ⟨negative, digits, [], areDigits, (List.append_nil _).symm⟩
  · obtain ⟨negative, whole, areDigits, fraction, -, power, -, rfl⟩ := mem_number.mp isNumber
    exact ⟨negative, whole, '.' :: fraction ++ power, areDigits, by simp⟩

/-- Digits are not empty and begin with a digit. -/
theorem exists_cons_of_digits {digits : List Char} (areDigits : digits ∈ atLeastOne digit) :
    ∃ first rest, digits = first :: rest ∧ first.isDigit = true := by
  obtain ⟨nonempty, areDigits⟩ := mem_digits.mp areDigits
  obtain ⟨first, rest, rfl⟩ := List.exists_cons_of_ne_nil nonempty
  exact ⟨first, rest, rfl, areDigits first List.mem_cons_self⟩

theorem head_of_isNumber {text : List Char}
    (isNumber : text ∈ Pattern.integer.language ∨ text ∈ Pattern.number.language) :
    text.head?.map Kind.ofFirst = some .number := by
  obtain ⟨negative, digits, tail, areDigits, rfl⟩ := begins_of_isNumber isNumber
  cases negative with
  | true => rfl
  | false =>
      obtain ⟨first, rest, rfl, isDigit⟩ := exists_cons_of_digits areDigits
      exact congrArg some (ofFirst_digit isDigit)

theorem head_of_areDottedWords {text : List Char} (words : areDottedWords true text = true) :
    text.head?.map Kind.ofFirst = some .word := by
  cases text with
  | nil => exact absurd words Bool.false_ne_true
  | cons first rest =>
      rw [areDottedWords, if_pos rfl, Bool.and_eq_true] at words
      exact congrArg some (if_pos words.1)

theorem head_of_isSign {text : List Char} {token : Token} (isSign : (text, token) ∈ Token.signs) :
    text.head?.map Kind.ofFirst = some .sign := by
  have signs : ∀ entry ∈ Token.signs, entry.1.head?.map Kind.ofFirst = some .sign := by decide
  exact signs _ isSign

theorem areDottedWords_of_isReserved {text : List Char} {token : Token}
    (isReserved : (String.ofList text, token) ∈ Token.reservedWords) :
    areDottedWords true text = true := by
  have reserved : ∀ entry ∈ Token.reservedWords, areDottedWords true entry.1.toList = true := by
    decide
  have words := reserved _ isReserved
  rwa [String.toList_ofList] at words

namespace Pattern

/-- The kind of the texts of a pattern. -/
def kind : Pattern → Kind
  | integer | number => .number
  | singleQuoted => .singleQuoted
  | doubleQuoted => .doubleQuoted
  | words => .word
  | backQuoted => .backQuoted

variable {pattern : Pattern} {text : List Char}

theorem head_of_mem (member : text ∈ pattern.language) :
    text.head?.map Kind.ofFirst = some pattern.kind := by
  cases pattern with
  | integer => exact head_of_isNumber (.inl member)
  | number => exact head_of_isNumber (.inr member)
  | words => exact head_of_areDottedWords (mem_words.mp member)
  | singleQuoted | doubleQuoted =>
      obtain ⟨body, -, rfl⟩ := mem_quoted.mp member
      rfl
  | backQuoted =>
      obtain ⟨body, -, -, rfl⟩ := mem_backQuoted.mp member
      rfl

theorem accepts_of_mem (member : text ∈ pattern.language) : pattern.kind.Accepts text := by
  cases pattern with
  | integer => exact .inl member
  | number => exact .inr member
  | words => exact mem_words.mp member
  | singleQuoted | doubleQuoted => exact mem_quoted.mp member
  | backQuoted => exact mem_backQuoted.mp member

end Pattern

/-- A match is one of the kind that its first character has. -/
theorem Matches.accepts {text : List Char} (isMatch : Matches text) :
    ∃ kind, text.head?.map Kind.ofFirst = some kind ∧ kind.Accepts text := by
  rcases isMatch with ⟨token, isFixed⟩ | ⟨pattern, member⟩
  · rcases mem_fixedTexts.mp isFixed with isSign | isReserved
    · exact ⟨.sign, head_of_isSign isSign, token, isSign⟩
    · have words := areDottedWords_of_isReserved isReserved
      exact ⟨.word, head_of_areDottedWords words, words⟩
  · exact ⟨pattern.kind, Pattern.head_of_mem member, Pattern.accepts_of_mem member⟩

theorem Reads.matches {text : List Char} {token : Token} (reads : Reads text token) :
    Matches text := by
  rcases reads with isFixed | ⟨-, pattern, member, -⟩
  · exact .inl ⟨token, isFixed⟩
  · exact .inr ⟨pattern, member⟩

variable {first : Char} {rest text : List Char} {token : Token}

theorem ofFirst_of_begins {kind : Kind} (head : text.head?.map Kind.ofFirst = some kind)
    (begins : text <+: first :: rest) : Kind.ofFirst first = kind := by
  cases text with
  | nil => cases head
  | cons character tail =>
      rw [← (List.cons_prefix_cons.mp begins).1]
      exact Option.some.inj head

/-- A match in front of the input is of the kind of the first character of the input. -/
theorem Matches.accepts_of_begins (isMatch : Matches text) (begins : text <+: first :: rest) :
    (Kind.ofFirst first).Accepts text := by
  obtain ⟨kind, head, accepted⟩ := isMatch.accepts
  rw [ofFirst_of_begins head begins]
  exact accepted

/-- The longest match is the longest one of its kind. -/
theorem longest_of_accepts {kind : Kind} (isMatch : Matches text)
    (head : text.head?.map Kind.ofFirst = some kind) (begins : text <+: first :: rest)
    (longest : ∀ other, kind.Accepts other → other <+: first :: rest → other <+: text) :
    Longest (first :: rest) text where
  begins := begins
  isMatched := isMatch
  isLongest other otherMatch otherBegins := by
    have accepted := otherMatch.accepts_of_begins otherBegins
    rw [ofFirst_of_begins head begins] at accepted
    exact (longest other accepted otherBegins).length_le

theorem stuck_of_not_accepts
    (rejected : ∀ other, (Kind.ofFirst first).Accepts other → ¬ other <+: first :: rest) :
    Stuck (first :: rest) :=
  .inl fun other isMatch begins => rejected other (isMatch.accepts_of_begins begins) begins

theorem head_of_isFixed (isFixed : (String.ofList text, token) ∈ fixedTexts) :
    text.head?.map Kind.ofFirst = some .sign ∨ text.head?.map Kind.ofFirst = some .word := by
  rcases mem_fixedTexts.mp isFixed with isSign | isReserved
  · exact .inl (head_of_isSign isSign)
  · exact .inr (head_of_areDottedWords (areDottedWords_of_isReserved isReserved))

/-- Where no fixed text can begin, a text of a pattern is written for what it stands for there. -/
theorem reads_of_pattern {kind : Kind} (head : text.head?.map Kind.ofFirst = some kind)
    (notSign : kind ≠ .sign) (notWord : kind ≠ .word) (pattern : Pattern)
    (member : text ∈ pattern.language) (decodes : pattern.Decodes text token) :
    Reads text token := by
  refine .inr ⟨fun other isFixed => ?_, pattern, member, decodes⟩
  rcases head_of_isFixed isFixed with isSign | isWord
  · exact notSign (Option.some.inj (head.symm.trans isSign))
  · exact notWord (Option.some.inj (head.symm.trans isWord))

end TypedRelations.Condition
