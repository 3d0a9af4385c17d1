import Mathlib.Computability.Language
import TypedRelations.Condition.Lexeme.Prefix
import TypedRelations.Condition.Name

/-!
# The patterns of the condition language

A token is written as one of a few fixed texts, or as a text of one of six patterns, which are
languages put together from ranges of characters. Each pattern comes with what its texts stand for;
digits are valued by their places, not in the order of reading. The texts of a pattern are then
described by their parts, so that the readers of the scanner can be compared with them.
-/

open Computability

namespace TypedRelations.Condition

/-- The texts of one character that passes a test. -/
def oneOf (accepts : Char → Bool) : Language Char :=
  fun text => ∃ character, accepts character = true ∧ text = [character]

/-- One character of a range. -/
def range (first last : Char) : Language Char :=
  oneOf fun character => decide (first ≤ character) && decide (character ≤ last)

/-- One of the given characters. -/
def anyOf (characters : List Char) : Language Char := oneOf characters.contains

/-- One character other than the given one. -/
def otherThan (excluded : Char) : Language Char := oneOf (· != excluded)

/-- A text of the language, or nothing. -/
def optional (language : Language Char) : Language Char := 1 + language

/-- One or more texts of the language. -/
def atLeastOne (language : Language Char) : Language Char := language * language∗

/-- A decimal digit. -/
def digit : Language Char := range '0' '9'

/-- A letter or an underscore. -/
def wordStart : Language Char := range 'A' 'Z' + range 'a' 'z' + anyOf ['_']

/-- A letter, an underscore or a digit. -/
def wordPart : Language Char := wordStart + digit

/-- A word that does not begin with a digit. -/
def word : Language Char := wordStart * wordPart∗

/-- A minus sign, or none. -/
def minus : Language Char := optional (anyOf ['-'])

/-- An exponent, or none. -/
def exponent : Language Char :=
  optional (anyOf ['e', 'E'] * optional (anyOf ['+', '-']) * atLeastOne digit)

/-! ## Tokens and their texts -/

/-- The texts that stand for a token of their own. -/
def fixedTexts : List (String × Token) :=
  [("==", .relator .eq), ("!=", .relator .ne), ("<=", .relator .le), (">=", .relator .ge),
    ("<", .relator .lt), (">", .relator .gt), ("(", .openParen), (")", .closeParen),
    ("and", .conjunction), ("or", .disjunction), ("not", .negation), ("in", .containment),
    ("true", .bool true), ("True", .bool true), ("false", .bool false), ("False", .bool false),
    ("null", .null), ("None", .null)]

/-- The patterns of the tokens that are written in more than a few ways. -/
inductive Pattern where
  | integer
  | number
  | singleQuoted
  | doubleQuoted
  | words
  | backQuoted

/-- The natural number that digits stand for, each with the weight of its place. -/
def decimalValue : List Char → Nat
  | [] => 0
  | first :: rest => (first.toNat - '0'.toNat) * 10 ^ rest.length + decimalValue rest

/-- The integer that digits stand for, after a minus sign if there is one. -/
def integerValue : List Char → Int
  | '-' :: digits => -decimalValue digits
  | digits => decimalValue digits

/-- The power of ten that an exponent stands for: the integer behind its letter, which may have a
plus sign as well. -/
def scale : List Char → Int
  | [] => 0
  | _ :: '+' :: digits => decimalValue digits
  | _ :: digits => integerValue digits

/-- A text without its first and its last character. -/
def unquoted (text : List Char) : String := String.ofList text.tail.dropLast

namespace Pattern

/-- The texts of the pattern. -/
def language : Pattern → Language Char
  | integer => minus * atLeastOne digit
  | number => minus * atLeastOne digit * anyOf ['.'] * atLeastOne digit * exponent
  | singleQuoted => anyOf [singleQuote] * (otherThan singleQuote)∗ * anyOf [singleQuote]
  | doubleQuoted => anyOf [doubleQuote] * (otherThan doubleQuote)∗ * anyOf [doubleQuote]
  | words => word * (anyOf ['.'] * word)∗
  | backQuoted => anyOf [backQuote] * atLeastOne (otherThan backQuote) * anyOf [backQuote]

/-- The text stands for the token. An integer has to be one of sixty-four bits, and a number is
rounded to the nearest one. -/
def Decodes : Pattern → List Char → Token → Prop
  | integer, text, token => ∃ value : Int64, value.toInt = integerValue text ∧ token = .int value
  | number, text, token => ∃ negative, ∃ whole ∈ atLeastOne digit, ∃ fraction ∈ atLeastOne digit,
      ∃ power ∈ exponent, text = Token.signText negative ++ whole ++ '.' :: fraction ++ power ∧
        token = .float (.ofDecimal negative (decimalValue (whole ++ fraction))
          (scale power - fraction.length))
  | singleQuoted, text, token => token = .str (unquoted text)
  | doubleQuoted, text, token => token = .str (unquoted text)
  | words, text, token => token = .name (String.ofList text)
  | backQuoted, text, token => token = .name (unquoted text)

end Pattern

/-- Some pattern or fixed text is matched. -/
def Matches (text : List Char) : Prop :=
  (∃ token, (String.ofList text, token) ∈ fixedTexts) ∨ ∃ pattern : Pattern, text ∈ pattern.language

/-- The text is written for the token. A fixed text stands for its own token, whatever patterns it
matches. -/
def Reads (text : List Char) (token : Token) : Prop :=
  (String.ofList text, token) ∈ fixedTexts ∨
    (∀ other, (String.ofList text, other) ∉ fixedTexts) ∧
      ∃ pattern : Pattern, text ∈ pattern.language ∧ pattern.Decodes text token

/-- Of all matched texts that the input begins with, this is the longest. -/
structure Longest (input text : List Char) : Prop where
  begins : text <+: input
  isMatched : Matches text
  isLongest : ∀ other, Matches other → other <+: input → other.length ≤ text.length

/-- No token begins the input: nothing is matched, or the longest match is an integer outside the
range of sixty-four bits. -/
def Stuck (input : List Char) : Prop :=
  (∀ text, Matches text → ¬ text <+: input) ∨
    ∃ text, Longest input text ∧ text ∈ Pattern.integer.language ∧
      (integerValue text < Int64.minValue.toInt ∨ Int64.maxValue.toInt < integerValue text)

/-- What is taken off the front of an input is the longest match with its token, and nothing is
taken only if no token begins the input. -/
def TakesLongest (input : List Char) : Token.Scan → Prop
  | .ok (token, text) => Reads text token ∧ Longest input text
  | .error _ => Stuck input

/-! ## The parts of the texts -/

variable {text : List Char} {accepts : Char → Bool}

theorem mem_oneOf :
    text ∈ oneOf accepts ↔ ∃ character, accepts character = true ∧ text = [character] :=
  Iff.rfl

theorem oneOf_add_oneOf (first second : Char → Bool) :
    oneOf first + oneOf second = oneOf fun character => first character || second character := by
  ext text
  simp only [Language.mem_add, mem_oneOf, Bool.or_eq_true, or_and_right, exists_or]

theorem mem_anyOf {character : Char} : text ∈ anyOf [character] ↔ text = [character] := by
  simp [anyOf, mem_oneOf]

theorem mem_kstar_oneOf :
    text ∈ (oneOf accepts)∗ ↔ ∀ character ∈ text, accepts character = true := by
  rw [Language.mem_kstar]
  constructor
  · rintro ⟨texts, rfl, singles⟩ character member
    obtain ⟨single, inTexts, inSingle⟩ := List.mem_flatten.mp member
    obtain ⟨other, accepted, rfl⟩ := singles single inTexts
    rwa [List.mem_singleton.mp inSingle]
  · intro accepted
    refine ⟨text.map fun character => [character], by simp [← List.flatMap_def], ?_⟩
    intro single inTexts
    obtain ⟨character, member, rfl⟩ := List.mem_map.mp inTexts
    exact ⟨character, accepted character member, rfl⟩

theorem append_mem_kstar {language : Language Char} {first rest : List Char}
    (isFirst : first ∈ language) (inStar : rest ∈ language∗) : first ++ rest ∈ language∗ := by
  rw [← Language.one_add_self_mul_kstar_eq_kstar, Language.mem_add]
  exact .inr (Language.append_mem_mul isFirst inStar)

theorem mem_atLeastOne_oneOf :
    text ∈ atLeastOne (oneOf accepts) ↔
      text ≠ [] ∧ ∀ character ∈ text, accepts character = true := by
  rw [atLeastOne, Language.mem_mul]
  constructor
  · rintro ⟨_, ⟨character, accepted, rfl⟩, rest, inStar, rfl⟩
    exact ⟨List.cons_ne_nil _ _, List.forall_mem_cons.mpr ⟨accepted, mem_kstar_oneOf.mp inStar⟩⟩
  · rintro ⟨nonempty, accepted⟩
    obtain ⟨character, rest, rfl⟩ := List.exists_cons_of_ne_nil nonempty
    rw [List.forall_mem_cons] at accepted
    exact ⟨[character], ⟨character, accepted.1, rfl⟩, rest, mem_kstar_oneOf.mpr accepted.2, rfl⟩

theorem isDigit_iff {character : Char} :
    character.isDigit = true ↔ '0' ≤ character ∧ character ≤ '9' := by
  change (decide ('0' ≤ character) && decide (character ≤ '9')) = true ↔ _
  rw [Bool.and_eq_true, decide_eq_true_iff, decide_eq_true_iff]

theorem isWordStart_iff {character : Char} :
    isWordStart character = true ↔
      ('A' ≤ character ∧ character ≤ 'Z') ∨ ('a' ≤ character ∧ character ≤ 'z') ∨
        character = '_' := by
  change (decide ('A' ≤ character ∧ character ≤ 'Z') ||
    (decide ('a' ≤ character) && decide (character ≤ 'z')) || character == '_') = true ↔ _
  rw [Bool.or_eq_true, Bool.or_eq_true, Bool.and_eq_true, decide_eq_true_iff, decide_eq_true_iff,
    decide_eq_true_iff, beq_iff_eq, or_assoc]

theorem digit_eq : digit = oneOf Char.isDigit := rfl

theorem wordStart_eq : wordStart = oneOf isWordStart := by
  rw [wordStart, range, range, anyOf, oneOf_add_oneOf, oneOf_add_oneOf]
  congr 1
  funext character
  rw [Bool.eq_iff_iff, isWordStart_iff]
  simp [or_assoc]

theorem wordPart_eq : wordPart = oneOf isWordPart := by
  rw [wordPart, wordStart_eq, digit_eq, oneOf_add_oneOf]
  rfl

theorem mem_digits :
    text ∈ atLeastOne digit ↔ text ≠ [] ∧ ∀ character ∈ text, character.isDigit = true :=
  mem_atLeastOne_oneOf

theorem mem_minus : text ∈ minus ↔ ∃ negative, text = Token.signText negative := by
  rw [minus, optional, Language.mem_add, Language.mem_one, mem_anyOf, Bool.exists_bool]
  rfl

theorem mem_integer :
    text ∈ Pattern.integer.language ↔
      ∃ negative, ∃ digits ∈ atLeastOne digit, text = Token.signText negative ++ digits := by
  simp only [Pattern.language, Language.mem_mul, mem_minus]
  constructor
  · rintro ⟨_, ⟨negative, rfl⟩, digits, areDigits, rfl⟩
    exact ⟨negative, digits, areDigits, rfl⟩
  · rintro ⟨negative, digits, areDigits, rfl⟩
    exact ⟨_, ⟨negative, rfl⟩, digits, areDigits, rfl⟩

theorem mem_number :
    text ∈ Pattern.number.language ↔
      ∃ negative, ∃ whole ∈ atLeastOne digit, ∃ fraction ∈ atLeastOne digit, ∃ power ∈ exponent,
        text = Token.signText negative ++ whole ++ '.' :: fraction ++ power := by
  simp only [Pattern.language, Language.mem_mul, mem_minus, mem_anyOf]
  constructor
  · rintro ⟨_, ⟨_, ⟨_, ⟨_, ⟨negative, rfl⟩, whole, wholeDigits, rfl⟩, _, rfl, rfl⟩, fraction,
      fractionDigits, rfl⟩, power, isPower, rfl⟩
    exact ⟨negative, whole, wholeDigits, fraction, fractionDigits, power, isPower, by simp⟩
  · rintro ⟨negative, whole, wholeDigits, fraction, fractionDigits, power, isPower, rfl⟩
    exact ⟨_, ⟨_, ⟨_, ⟨_, ⟨negative, rfl⟩, whole, wholeDigits, rfl⟩, _, rfl, rfl⟩, fraction,
      fractionDigits, rfl⟩, power, isPower, by simp⟩

theorem mem_exponent :
    text ∈ exponent ↔ text = [] ∨ ∃ letter sign, ∃ digits ∈ atLeastOne digit,
      (letter = 'e' ∨ letter = 'E') ∧ (sign = [] ∨ sign = ['+'] ∨ sign = ['-']) ∧
        text = letter :: (sign ++ digits) := by
  simp only [exponent, optional, Language.mem_add, Language.mem_one, Language.mem_mul]
  refine or_congr Iff.rfl ?_
  constructor
  · rintro ⟨_, ⟨_, ⟨letter, isLetter, rfl⟩, sign, isSign, rfl⟩, digits, areDigits, rfl⟩
    refine ⟨letter, sign, digits, areDigits, by simpa using isLetter, ?_, rfl⟩
    refine isSign.imp id ?_
    rintro ⟨character, accepted, rfl⟩
    simpa using accepted
  · rintro ⟨letter, sign, digits, areDigits, isLetter, isSign, rfl⟩
    refine ⟨_, ⟨[letter], ⟨letter, by simpa using isLetter, rfl⟩, sign, ?_, rfl⟩, digits,
      areDigits, rfl⟩
    refine isSign.imp id ?_
    rintro (rfl | rfl)
    · exact ⟨'+', by decide, rfl⟩
    · exact ⟨'-', by decide, rfl⟩

theorem mem_quoted {quote : Char} :
    text ∈ anyOf [quote] * (otherThan quote)∗ * anyOf [quote] ↔
      ∃ body, quote ∉ body ∧ text = quote :: (body ++ [quote]) := by
  simp only [Language.mem_mul, mem_anyOf, otherThan, mem_kstar_oneOf, bne_iff_ne]
  constructor
  · rintro ⟨_, ⟨_, rfl, body, others, rfl⟩, _, rfl, rfl⟩
    exact ⟨body, fun member => others quote member rfl, rfl⟩
  · rintro ⟨body, absent, rfl⟩
    exact ⟨_, ⟨_, rfl, body, fun _ member same => absent (same ▸ member), rfl⟩, _, rfl, rfl⟩

theorem mem_backQuoted :
    text ∈ Pattern.backQuoted.language ↔
      ∃ body, body ≠ [] ∧ backQuote ∉ body ∧ text = backQuote :: (body ++ [backQuote]) := by
  simp only [Pattern.language, Language.mem_mul, mem_anyOf, otherThan, mem_atLeastOne_oneOf,
    bne_iff_ne]
  constructor
  · rintro ⟨_, ⟨_, rfl, body, ⟨nonempty, others⟩, rfl⟩, _, rfl, rfl⟩
    exact ⟨body, nonempty, fun member => others backQuote member rfl, rfl⟩
  · rintro ⟨body, nonempty, absent, rfl⟩
    exact ⟨_, ⟨_, rfl, body, ⟨nonempty, fun _ member same => absent (same ▸ member)⟩, rfl⟩, _, rfl,
      rfl⟩

theorem areDottedWords_append {parts rest : List Char}
    (inside : ∀ character ∈ parts, isWordPart character = true) :
    areDottedWords false (parts ++ rest) = areDottedWords false rest := by
  induction parts with
  | nil => rfl
  | cons character parts ih =>
      rw [List.forall_mem_cons] at inside
      have notDot : character ≠ '.' := by
        rintro rfl
        exact absurd inside.1 (by decide)
      simp [areDottedWords, notDot, inside.1, ih inside.2]

theorem areDottedWords_cons {first : Char} {parts rest : List Char}
    (start : isWordStart first = true)
    (inside : ∀ character ∈ parts, isWordPart character = true) :
    areDottedWords true (first :: parts ++ rest) = areDottedWords false rest := by
  rw [List.cons_append, areDottedWords, if_pos rfl, start, Bool.true_and,
    areDottedWords_append inside]

theorem mem_word :
    text ∈ word ↔ ∃ first parts, isWordStart first = true ∧
      (∀ character ∈ parts, isWordPart character = true) ∧ text = first :: parts := by
  rw [word, wordStart_eq, wordPart_eq, Language.mem_mul]
  constructor
  · rintro ⟨_, ⟨first, start, rfl⟩, parts, inside, rfl⟩
    exact ⟨first, parts, start, mem_kstar_oneOf.mp inside, rfl⟩
  · rintro ⟨first, parts, start, inside, rfl⟩
    exact ⟨[first], ⟨first, start, rfl⟩, parts, mem_kstar_oneOf.mpr inside, rfl⟩

/-- A text in which a word has to begin is a list of words, and any other one is the end of a word
with further words after it. -/
theorem mem_of_areDottedWords (atStart : Bool) {text : List Char}
    (words : areDottedWords atStart text = true) :
    text ∈ (if atStart then word else wordPart∗) * (anyOf ['.'] * word)∗ := by
  induction text generalizing atStart with
  | nil =>
      cases atStart with
      | true => exact absurd words Bool.false_ne_true
      | false => exact ⟨[], Language.nil_mem_kstar _, [], Language.nil_mem_kstar _, rfl⟩
  | cons character rest ih =>
      cases atStart with
      | true =>
          have both : isWordStart character = true ∧ areDottedWords false rest = true := by
            simpa [areDottedWords] using words
          obtain ⟨parts, inside, later, inStar, rfl⟩ := ih false both.2
          have starts : [character] ∈ wordStart := wordStart_eq ▸ ⟨character, both.1, rfl⟩
          exact ⟨character :: parts, Language.append_mem_mul starts inside, later, inStar, rfl⟩
      | false =>
          by_cases dot : character = '.'
          · rw [dot] at words ⊢
            have restWords : areDottedWords true rest = true := by
              simpa [areDottedWords] using words
            obtain ⟨first, isWord, later, inStar, rfl⟩ := ih true restWords
            have dotted : '.' :: first ∈ anyOf ['.'] * word :=
              Language.append_mem_mul (mem_anyOf.mpr rfl) isWord
            exact ⟨[], Language.nil_mem_kstar _, '.' :: first ++ later,
              append_mem_kstar dotted inStar, rfl⟩
          · have both : isWordPart character = true ∧ areDottedWords false rest = true := by
              simpa [areDottedWords, dot] using words
            obtain ⟨parts, inside, later, inStar, rfl⟩ := ih false both.2
            have isPart : [character] ∈ wordPart := wordPart_eq ▸ ⟨character, both.1, rfl⟩
            exact ⟨character :: parts, append_mem_kstar isPart inside, later, inStar, rfl⟩

theorem areDottedWords_flatten {texts : List (List Char)}
    (dotted : ∀ text ∈ texts, text ∈ anyOf ['.'] * word) :
    areDottedWords false texts.flatten = true := by
  induction texts with
  | nil => rfl
  | cons text texts ih =>
      rw [List.forall_mem_cons, Language.mem_mul] at dotted
      obtain ⟨⟨_, isDot, _, isWord, rfl⟩, dotted⟩ := dotted
      obtain ⟨first, parts, start, inside, rfl⟩ := mem_word.mp isWord
      rw [mem_anyOf.mp isDot, List.flatten_cons]
      change areDottedWords true (first :: parts ++ texts.flatten) = true
      rw [areDottedWords_cons start inside, ih dotted]

theorem mem_words : text ∈ Pattern.words.language ↔ areDottedWords true text = true := by
  constructor
  · intro member
    obtain ⟨_, isWord, _, inStar, rfl⟩ := Language.mem_mul.mp member
    obtain ⟨first, parts, start, inside, rfl⟩ := mem_word.mp isWord
    obtain ⟨texts, rfl, dotted⟩ := Language.mem_kstar.mp inStar
    rw [areDottedWords_cons start inside, areDottedWords_flatten dotted]
  · exact mem_of_areDottedWords true

end TypedRelations.Condition
