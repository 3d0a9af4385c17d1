import TypedRelations.Proofs.Condition.Conjunction
import TypedRelations.Proofs.Condition.Unambiguous

/-!
# Literals

Integers, truth values and null are written in a condition as they are printed, and strings between
quotes that they do not contain. Such a text is written for the token of the value (`Writes.reads`),
so a field that is compared with a literal is compared with the value it was written from
(`parse_equalsText`).
-/

namespace TypedRelations.Condition

/-- How a value is written as a literal. -/
inductive Writes : String → Value → Prop where
  | int (value : Int64) : Writes (Value.int value).text (.int value)
  | singleQuoted {content : String} (absent : singleQuote ∉ content.toList) :
      Writes ("'" ++ content ++ "'") (.str content)
  | doubleQuoted {content : String} (absent : doubleQuote ∉ content.toList) :
      Writes ("\x22" ++ content ++ "\x22") (.str content)
  | bool (value : Bool) : Writes (Value.bool value).text (.bool value)
  | null : Writes Value.null.text .null

theorem integerText_eq (integer : Int) :
    integerText integer =
      Token.signText (decide (integer < 0)) ++ Nat.toDigits 10 integer.natAbs := by
  rw [integerText]
  split <;> simp_all [Token.signText]

theorem toDigits_mem (value : Nat) : Nat.toDigits 10 value ∈ atLeastOne digit :=
  mem_digits.mpr ⟨Nat.toDigits_ne_nil, fun _ member =>
    Nat.isDigit_of_mem_toDigits (by decide) (by decide) member⟩

/-- The text of an integer stands for the integer. -/
theorem integerValue_integerText (integer : Int) :
    integerValue (integerText integer) = integer := by
  rw [integerText_eq, integerValue_signText (toDigits_mem _), digitsValue,
    Nat.ofDigitChars_ten_toDigits]
  by_cases isNegative : integer < 0
  · rw [decide_eq_true isNegative, if_pos rfl]
    omega
  · rw [decide_eq_false isNegative, if_neg Bool.false_ne_true]
    omega

theorem reads_integerText (value : Int64) : Reads (integerText value.toInt) (.int value) := by
  have isInteger : integerText value.toInt ∈ Pattern.integer.language :=
    mem_integer.mpr ⟨_, _, toDigits_mem _, integerText_eq _⟩
  have decodes : Pattern.integer.Decodes (integerText value.toInt) (.int value) :=
    ⟨value, (integerValue_integerText value.toInt).symm, rfl⟩
  exact reads_of_pattern (Pattern.head_of_mem isInteger) (by decide) (by decide) .integer isInteger
    decodes

/-- Quotes around a text that does not contain them are written for this text. -/
theorem reads_quoted {quote : Char} (isQuote : quote = singleQuote ∨ quote = doubleQuote)
    {content : String} (absent : quote ∉ content.toList) :
    Reads (quote :: (content.toList ++ [quote])) (.str content) := by
  have quoted := mem_quoted.mpr ⟨content.toList, absent, rfl⟩
  have value := unquoted_quoted quote content.toList
  rw [String.ofList_toList] at value
  rcases isQuote with rfl | rfl
  · exact reads_of_pattern rfl (by decide) (by decide) .singleQuoted quoted
      (congrArg Token.str value.symm)
  · exact reads_of_pattern rfl (by decide) (by decide) .doubleQuoted quoted
      (congrArg Token.str value.symm)

variable {text name : String} {value : Value}

/-- The literal of a value is written for a token that stands for this value. -/
theorem Writes.reads (written : Writes text value) :
    ∃ token, Reads text.toList token ∧ token.literal? = some value := by
  cases written with
  | int value =>
      refine ⟨.int value, ?_, rfl⟩
      rw [Value.text, String.toList_ofList]
      exact reads_integerText value
  | @singleQuoted content absent =>
      refine ⟨.str content, ?_, rfl⟩
      simpa [String.toList_append, singleQuote] using reads_quoted (.inl rfl) absent
  | @doubleQuoted content absent =>
      refine ⟨.str content, ?_, rfl⟩
      simpa [String.toList_append, doubleQuote] using reads_quoted (.inr rfl) absent
  | bool value =>
      refine ⟨.bool value, .inl ?_, rfl⟩
      cases value <;> simp [Value.text, fixedTexts]
  | null => exact ⟨.null, .inl (by simp [Value.text, fixedTexts]), rfl⟩

theorem Reads.spells {text : List Char} {token : Token} (reads : Reads text token) :
    Spells text [token] := by
  obtain ⟨first, tail, rfl, notBlank, scanned⟩ := reads.scan
  have scannedAtEnd : Token.scan first (tail ++ []) = .ok (token, first :: tail) := by
    rwa [List.append_nil]
  have spelled := Spells.token notBlank scannedAtEnd .nil
  rwa [List.append_nil] at spelled

/-- The text of the condition that a field equals a literal. -/
def equalsText (name text : String) : String := "`" ++ name ++ "` == " ++ text

theorem derives_of_comparison {tokens : List Token} {expr : Expr}
    (derives : Derives .comparison tokens expr) : Derives .condition tokens expr := by
  have conjunction : Derives .conjunction _ (chainTree .and expr []) :=
    .conjunction (.plain derives) (by simp)
  have condition : Derives .condition _ (chainTree .or expr []) := .condition conjunction (by simp)
  simpa [chainTokens, chainTree] using condition

/-- The comparison of a field with a literal is read as one with the value of the literal. -/
theorem parse_equalsText (readable : Readable name) (written : Writes text value) :
    parse (equalsText name text) =
      .ok ⟨equalsText name text, .compare (.field name) (.relator .eq) (.literal value)⟩ := by
  obtain ⟨token, reads, listed⟩ := written.reads
  have spelled := spells_quoted readable.nonempty readable.clean (spells_eq reads.spells)
  have derives : Derives .condition [.name name, .relator .eq, token] _ :=
    derives_of_comparison (.compared (.relator .eq) (.name name) (.literal listed))
  refine parse_eq_ok_iff.mpr ⟨rfl, _, ?_, derives⟩
  simpa [equalsText, String.toList_append, backQuote] using spelled

theorem evaluate_equalsText {scope : Scope} {source : String} {found : Value}
    (known : scope.lookup name = some found) :
    evaluate ⟨source, .compare (.field name) (.relator .eq) (.literal value)⟩ scope =
      .ok (found == value) := by
  have compared : (Expr.compare (.field name) (.relator .eq) (.literal value)).eval scope =
      .ok (.bool (found == value)) :=
    Expr.eval_compare_eq_ok.mpr
      ⟨found, value, _, Expr.eval_field_eq_ok.mpr known, rfl, test_eq found value, rfl⟩
  exact evaluate_eq_ok.mpr (bind_eq_ok.mpr ⟨_, compared, rfl⟩)

end TypedRelations.Condition
