import TypedRelations.Proofs.Condition.Partition

/-!
# Texts are written for one token

The patterns have no text in common, and a text of one of them stands for one token only. As there
is one longest match as well, the longest match with its token is all that the scanner can answer
(`scan_eq_ok_iff`).
-/

namespace TypedRelations.Condition

variable {input rest text : List Char} {first : Char} {token other : Token} {pattern : Pattern}

theorem dot_not_mem_of_mem_integer (isInteger : text ∈ Pattern.integer.language) : '.' ∉ text := by
  obtain ⟨negative, digits, areDigits, rfl⟩ := mem_integer.mp isInteger
  have notInDigits : '.' ∉ digits := fun member =>
    absurd ((mem_digits.mp areDigits).2 '.' member) (by decide)
  have notInSign : '.' ∉ Token.signText negative := by cases negative <;> decide
  exact List.not_mem_append notInSign notInDigits

theorem dot_mem_of_mem_number (isNumber : text ∈ Pattern.number.language) : '.' ∈ text := by
  obtain ⟨negative, whole, -, fraction, -, power, -, rfl⟩ := mem_number.mp isNumber
  simp

/-- No text is of two patterns. -/
theorem Pattern.eq_of_mem {pattern otherPattern : Pattern} (member : text ∈ pattern.language)
    (otherMember : text ∈ otherPattern.language) : pattern = otherPattern := by
  have kinds : pattern.kind = otherPattern.kind :=
    Option.some.inj ((head_of_mem member).symm.trans (head_of_mem otherMember))
  cases pattern with
  | integer =>
      cases otherPattern with
      | integer => rfl
      | number =>
          exact absurd (dot_mem_of_mem_number otherMember) (dot_not_mem_of_mem_integer member)
      | _ => nomatch kinds
  | number =>
      cases otherPattern with
      | integer =>
          exact absurd (dot_mem_of_mem_number member) (dot_not_mem_of_mem_integer otherMember)
      | number => rfl
      | _ => nomatch kinds
  | _ => cases otherPattern <;> first | rfl | nomatch kinds

theorem leadingDigits_append_dot {digits : List Char} (areDigits : digits ∈ atLeastOne digit)
    (rest : List Char) : leadingDigits (digits ++ '.' :: rest) = digits :=
  (leadingDigits_of_stop areDigits (by decide) List.prefix_rfl).1

theorem leadingDigits_append_of_exponent {fraction power : List Char}
    (areDigits : fraction ∈ atLeastOne digit) (isPower : power ∈ exponent) :
    leadingDigits (fraction ++ power) = fraction := by
  cases power with
  | nil =>
      rw [List.append_nil]
      exact List.takeWhile_eq_self_iff.mpr (mem_digits.mp areDigits).2
  | cons letter power =>
      have stops := not_isDigit_of_mem_exponent isPower
      exact (leadingDigits_of_stop areDigits stops List.prefix_rfl).1

/-- A text of a pattern stands for one token. -/
theorem Pattern.Decodes.unique (decodes : pattern.Decodes text token)
    (otherDecodes : pattern.Decodes text other) : token = other := by
  cases pattern with
  | integer =>
      obtain ⟨value, valueEq, rfl⟩ := decodes
      obtain ⟨otherValue, otherEq, rfl⟩ := otherDecodes
      rw [Int64.toInt_inj.mp (valueEq.trans otherEq.symm)]
  | number =>
      obtain ⟨negative, whole, wholeDigits, fraction, fractionDigits, power, isPower, rfl, rfl⟩ :=
        decodes
      obtain ⟨otherNegative, otherWhole, otherWholeDigits, otherFraction, otherFractionDigits,
        otherPower, isOtherPower, same, rfl⟩ := otherDecodes
      simp only [List.append_assoc, List.cons_append] at same
      have starts : leadingDigits (otherWhole ++ '.' :: (otherFraction ++ otherPower)) ≠ [] := by
        rw [leadingDigits_append_dot otherWholeDigits]
        exact (mem_digits.mp otherWholeDigits).1
      have begins : Token.signText negative ++ whole ++ '.' :: (fraction ++ power) <+:
          Token.signText otherNegative ++ (otherWhole ++ '.' :: (otherFraction ++ otherPower)) := by
        rw [← same, List.append_assoc]
      obtain ⟨rfl, -⟩ := sign_agrees wholeDigits starts begins
      have unsigned := List.append_cancel_left same
      obtain rfl : whole = otherWhole := by
        rw [← leadingDigits_append_dot wholeDigits, unsigned,
          leadingDigits_append_dot otherWholeDigits]
      have behind := (List.cons.inj (List.append_cancel_left unsigned)).2
      obtain rfl : fraction = otherFraction := by
        rw [← leadingDigits_append_of_exponent fractionDigits isPower, behind,
          leadingDigits_append_of_exponent otherFractionDigits isOtherPower]
      rw [List.append_cancel_left behind]
  | singleQuoted | doubleQuoted | words | backQuoted =>
      exact Eq.trans decodes (Eq.symm otherDecodes)

theorem token_eq_of_mem_fixedTexts {fixed : String} (isFixed : (fixed, token) ∈ fixedTexts)
    (otherFixed : (fixed, other) ∈ fixedTexts) : token = other := by
  have distinct : (fixedTexts.map Prod.fst).Nodup := by decide
  exact congrArg Prod.snd (List.inj_on_of_nodup_map distinct isFixed otherFixed rfl)

/-- A text is written for one token. -/
theorem Reads.unique (reads : Reads text token) (otherReads : Reads text other) :
    token = other := by
  rcases reads with isFixed | ⟨notFixed, pattern, member, decodes⟩
  · rcases otherReads with otherFixed | ⟨notFixed, -⟩
    · exact token_eq_of_mem_fixedTexts isFixed otherFixed
    · exact absurd isFixed (notFixed token)
  · rcases otherReads with isFixed | ⟨-, otherPattern, otherMember, otherDecodes⟩
    · exact absurd isFixed (notFixed other)
    · cases Pattern.eq_of_mem member otherMember
      exact decodes.unique otherDecodes

theorem Longest.unique {otherText : List Char} (longest : Longest input text)
    (otherLongest : Longest input otherText) : text = otherText := by
  have notLonger := otherLongest.isLongest text longest.isMatched longest.begins
  have notShorter := longest.isLongest otherText otherLongest.isMatched otherLongest.begins
  have begins := List.prefix_of_prefix_length_le longest.begins otherLongest.begins notLonger
  exact begins.eq_of_length_le notShorter

/-- An integer that is written for a token fits into sixty-four bits. -/
theorem Reads.exists_int64 (reads : Reads text token)
    (isInteger : text ∈ Pattern.integer.language) :
    ∃ value : Int64, value.toInt = integerValue text := by
  rcases reads with isFixed | ⟨-, pattern, member, decodes⟩
  · have head := Pattern.head_of_mem isInteger
    rcases head_of_isFixed isFixed with isSign | isWord
    · nomatch isSign.symm.trans head
    · nomatch isWord.symm.trans head
  · cases Pattern.eq_of_mem member isInteger
    obtain ⟨value, valueEq, -⟩ := decodes
    exact ⟨value, valueEq⟩

theorem not_stuck_of_reads (reads : Reads text token) (longest : Longest input text) :
    ¬ Stuck input := by
  rintro (unmatched | ⟨otherText, otherLongest, isInteger, outside⟩)
  · exact unmatched text longest.isMatched longest.begins
  · cases longest.unique otherLongest
    obtain ⟨value, valueEq⟩ := reads.exists_int64 isInteger
    rw [← valueEq] at outside
    rcases outside with below | above
    · exact absurd value.minValue_le_toInt (Int.not_le.mpr below)
    · exact absurd value.toInt_le (Int.not_le.mpr above)

/-- The scanner takes a text for a token exactly if this is the longest match at the front of the
input, and is written for the token. -/
theorem scan_eq_ok_iff :
    Token.scan first rest = .ok (token, text) ↔
      Reads text token ∧ Longest (first :: rest) text := by
  have taken := takesLongest_scan first rest
  constructor
  · intro scanned
    rw [scanned] at taken
    exact taken
  · rintro ⟨reads, longest⟩
    cases scanned : Token.scan first rest with
    | error unread =>
        rw [scanned] at taken
        exact absurd taken (not_stuck_of_reads reads longest)
    | ok lexed =>
        obtain ⟨otherToken, otherText⟩ := lexed
        rw [scanned] at taken
        obtain ⟨otherReads, otherLongest⟩ := taken
        cases longest.unique otherLongest
        rw [reads.unique otherReads]

theorem Matches.longest (isMatch : Matches text) : Longest text text where
  begins := List.prefix_rfl
  isMatched := isMatch
  isLongest _ _ begins := begins.length_le

/-- No token begins with a blank. -/
theorem Matches.not_isBlank (isMatch : Matches (first :: rest)) : isBlank first = false := by
  cases blank : isBlank first with
  | false => rfl
  | true =>
      have kinds : skipped.all (Kind.ofFirst · == .sign) = true := by decide
      have isSkipped := Lexeme.mem_skipped_iff.mpr blank
      have accepted := isMatch.accepts_of_begins List.prefix_rfl
      rw [eq_of_beq (List.all_eq_true.mp kinds first isSkipped)] at accepted
      obtain ⟨token, isSign⟩ := accepted
      have signs : ∀ entry ∈ Token.signs, entry.1.head?.any isBlank = false := by decide
      exact absurd blank (Bool.eq_false_iff.mp (signs _ isSign))

/-- A text that is written for a token is scanned as this token. -/
theorem Reads.scan (reads : Reads text token) :
    ∃ first tail, text = first :: tail ∧ isBlank first = false ∧
      Token.scan first tail = .ok (token, first :: tail) := by
  cases text with
  | nil =>
      obtain ⟨kind, head, -⟩ := reads.matches.accepts
      nomatch head
  | cons first tail =>
      exact ⟨first, tail, rfl, reads.matches.not_isBlank,
        scan_eq_ok_iff.mpr ⟨reads, reads.matches.longest⟩⟩

/-- A text is one lexeme exactly if it is written for the token. -/
theorem Lexeme.ofText_eq_single_iff {source : String} :
    Lexeme.ofText source = .ok [⟨token, source.toList, 0⟩] ↔ Reads source.toList token := by
  constructor
  · exact fun scanned => Lexeme.reads_of_ofText scanned _ List.mem_cons_self
  · intro reads
    obtain ⟨first, tail, isText, notBlank, scanned⟩ := reads.scan
    have scannedAtEnd : Token.scan first (tail ++ []) = .ok (token, first :: tail) := by
      rwa [List.append_nil]
    have taken := scanFrom_token notBlank scannedAtEnd 0
    rw [List.append_nil] at taken
    rw [Lexeme.ofText, isText, taken]
    rfl

end TypedRelations.Condition
