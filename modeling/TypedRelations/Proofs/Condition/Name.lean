import TypedRelations.Proofs.Condition.Equalities
import TypedRelations.Proofs.Condition.Unambiguous

/-!
# Names are read as they were meant

A name can be written in a condition as it is, if it is made of words with dots between them and is
no reserved word, and between back quotes, if it is not empty and has no back quote in it
(`reads_name_iff`). Exactly the names that can be written at all are read back as themselves
(`reads_nameText_iff`), since the test for plain names agrees with the scanner
(`isPlainName_iff_reads`).
-/

namespace TypedRelations.Condition

variable {text : List Char} {name : String}

theorem backQuote_not_mem_of_areDottedWords (atStart : Bool)
    (words : areDottedWords atStart text = true) : backQuote ∉ text := by
  induction text generalizing atStart with
  | nil => exact List.not_mem_nil
  | cons character rest ih =>
      rw [List.mem_cons, not_or]
      rw [areDottedWords] at words
      split at words
      · obtain ⟨start, words⟩ := Bool.and_eq_true_iff.mp words
        refine ⟨?_, ih false words⟩
        rintro rfl
        exact absurd start (by decide)
      · split at words
        next dot =>
          refine ⟨?_, ih true words⟩
          rintro rfl
          exact absurd dot (by decide)
        next =>
          obtain ⟨inside, words⟩ := Bool.and_eq_true_iff.mp words
          refine ⟨?_, ih false words⟩
          rintro rfl
          exact absurd inside (by decide)

theorem readable_of_isPlainName (plain : isPlainName name = true) : Readable name := by
  have words := (Bool.and_eq_true_iff.mp plain).1
  constructor
  · rintro rfl
    exact absurd words (by decide)
  · exact backQuote_not_mem_of_areDottedWords true words

/-- A word that is not fixed is not reserved. -/
theorem isNone_lookup_of_not_fixed
    (notFixed : ∀ token, (String.ofList text, token) ∉ fixedTexts) :
    (Token.reservedWords.lookup (String.ofList text)).isNone = true := by
  cases found : Token.reservedWords.lookup (String.ofList text) with
  | none => rfl
  | some token => exact absurd (mem_fixedTexts_of_lookup found) (notFixed token)

theorem name_not_mem_fixedTexts (fixed : String) : (fixed, Token.name name) ∉ fixedTexts := by
  simp [fixedTexts]

/-- A text is written for a name if it is this name and plain, or if it is this name between back
quotes. -/
theorem reads_name_iff :
    Reads text (.name name) ↔ (text = name.toList ∧ isPlainName name = true) ∨
      (text = backQuote :: (name.toList ++ [backQuote]) ∧ Readable name) := by
  constructor
  · rintro (isFixed | ⟨notFixed, pattern, member, decodes⟩)
    · exact absurd isFixed (name_not_mem_fixedTexts _)
    · cases pattern with
      | words =>
          left
          obtain rfl : name = String.ofList text := Token.name.inj decodes
          refine ⟨String.toList_ofList.symm, Bool.and_eq_true_iff.mpr ⟨?_, ?_⟩⟩
          · rw [String.toList_ofList]
            exact mem_words.mp member
          · exact isNone_lookup_of_not_fixed notFixed
      | backQuoted =>
          right
          obtain ⟨body, nonempty, clean, rfl⟩ := mem_backQuoted.mp member
          obtain rfl : name = String.ofList body :=
            (Token.name.inj decodes).trans (unquoted_quoted backQuote body)
          rw [String.toList_ofList]
          refine ⟨rfl, ?_, ?_⟩
          · exact fun empty => nonempty (by simpa using congrArg String.toList empty)
          · rwa [String.toList_ofList]
      | integer => obtain ⟨_, -, same⟩ := decodes; nomatch same
      | number => obtain ⟨_, _, -, _, -, _, -, -, same⟩ := decodes; nomatch same
      | singleQuoted | doubleQuoted => nomatch decodes
  · rintro (⟨rfl, plain⟩ | ⟨rfl, readable⟩)
    · obtain ⟨words, free⟩ := Bool.and_eq_true_iff.mp plain
      have reads := reads_ofWord words
      rwa [String.ofList_toList, ofWord_name free] at reads
    · have nonempty := mt String.toList_eq_nil_iff.mp readable.nonempty
      have quoted := mem_backQuoted.mpr ⟨name.toList, nonempty, readable.clean, rfl⟩
      have content := unquoted_quoted backQuote name.toList
      rw [String.ofList_toList] at content
      exact reads_of_pattern rfl (by decide) (by decide) .backQuoted quoted
        (congrArg Token.name content.symm)

theorem ne_quoted (characters : List Char) :
    characters ≠ backQuote :: (characters ++ [backQuote]) := by
  intro same
  have lengths := congrArg List.length same
  rw [List.length_cons, List.length_append, List.length_singleton] at lengths
  omega

/-- A name is plain exactly if it is read as itself. -/
theorem isPlainName_iff_reads : isPlainName name = true ↔ Reads name.toList (.name name) := by
  rw [reads_name_iff]
  constructor
  · exact fun plain => .inl ⟨rfl, plain⟩
  · rintro (⟨-, plain⟩ | ⟨same, -⟩)
    · exact plain
    · exact absurd same (ne_quoted _)

theorem toList_nameText (name : String) :
    (nameText name).toList = if isPlainName name then name.toList
      else backQuote :: (name.toList ++ [backQuote]) := by
  rw [nameText]
  split
  next => rfl
  next => simp [String.toList_append, backQuote]

theorem nameText_eq_self_iff : nameText name = name ↔ isPlainName name = true := by
  constructor
  · intro same
    by_contra quoted
    have characters := toList_nameText name
    rw [same, if_neg quoted] at characters
    exact ne_quoted _ characters
  · exact fun plain => if_pos plain

/-- A name is written so that it is read back, unless it cannot be written at all. -/
theorem reads_nameText_iff : Reads (nameText name).toList (.name name) ↔ Readable name := by
  rw [toList_nameText]
  split
  next plain =>
    exact ⟨fun _ => readable_of_isPlainName plain, fun _ => isPlainName_iff_reads.mp plain⟩
  next quoted =>
    rw [reads_name_iff]
    constructor
    · rintro (⟨-, plain⟩ | ⟨-, readable⟩)
      · exact absurd plain quoted
      · exact readable
    · exact fun readable => .inr ⟨rfl, readable⟩

/-- The text of a name is the one lexeme of the name exactly for the names that can be written in a
condition, and it is the name itself exactly if this is one lexeme already. Equalities between such
names, joined by `and`, are read as their conjunction, which groups to the left. -/
theorem nameText_roundTrip :
    (∀ name, Lexeme.ofText (nameText name) = .ok [⟨.name name, (nameText name).toList, 0⟩] ↔
      Readable name) ∧
    (∀ name, nameText name = name ↔
      Lexeme.ofText name = .ok [⟨.name name, name.toList, 0⟩]) ∧
    ∀ first pairs, (∀ pair ∈ first :: pairs, Readable pair.1 ∧ Readable pair.2) →
      Expr.ofText (equalitiesText (first :: pairs)) =
        .ok (pairs.foldl (fun left pair => .and left (equality pair)) (equality first)) := by
  refine ⟨fun name => ?_, fun name => ?_, fun first pairs readable => ?_⟩
  · rw [Lexeme.ofText_eq_single_iff, reads_nameText_iff]
  · rw [Lexeme.ofText_eq_single_iff, nameText_eq_self_iff, isPlainName_iff_reads]
  · exact ofText_equalities readable

/-- A reserved word has to be quoted as a whole name, but not as a part of one. -/
theorem nameText_roundTrip_reserved :
    Lexeme.ofText "`and`" = .ok [⟨.name "and", "`and`".toList, 0⟩] ∧
    nameText "R.and" = "R.and" ∧
    Expr.ofText "R.and == `A x B.id` and `1st.é` == `R.`" =
      .ok (.and (.compare (.field "R.and") (.relator .eq) (.field "A x B.id"))
        (.compare (.field "1st.é") (.relator .eq) (.field "R."))) := by
  obtain ⟨readBack, plain, joined⟩ := nameText_roundTrip
  have quoted := (readBack "and").mpr (by decide)
  have unquoted := (plain "R.and").mpr (by rfl)
  have readable : ∀ pair ∈ [("R.and", "A x B.id"), ("1st.é", "R.")],
      Readable pair.1 ∧ Readable pair.2 := by decide
  have conjunction := joined ("R.and", "A x B.id") [("1st.é", "R.")] readable
  have text : equalitiesText [("R.and", "A x B.id"), ("1st.é", "R.")] =
      "R.and == `A x B.id` and `1st.é` == `R.`" := by decide
  have word : nameText "and" = "`and`" := by decide
  rw [word] at quoted
  rw [text] at conjunction
  exact ⟨quoted, unquoted, conjunction⟩

end TypedRelations.Condition
