import TypedRelations.Condition.Lexeme.Prefix
import TypedRelations.Condition.Name
import TypedRelations.Proofs.Lists

/-!
# Texts that spell tokens

`Spells` says which tokens a text is read as, without the positions and counts that the scanner
carries along (`scanFrom_spells`). The texts of interest are names written by `nameText`, which are
read back wherever no further character can be taken for a part of them.
-/

namespace TypedRelations.Condition

/-- A text is read as a list of tokens. Each token is scanned in front of the rest of the text, so
that the scanner had its chance to take more. -/
inductive Spells : List Char → List Token → Prop where
  | nil : Spells [] []
  | blank {character : Char} {rest : List Char} {tokens : List Token}
      (isBlank : isBlank character = true) (spelled : Spells rest tokens) :
      Spells (character :: rest) tokens
  | token {first : Char} {text rest : List Char} {token : Token} {tokens : List Token}
      (notBlank : isBlank first = false)
      (scanned : Token.scan first (text ++ rest) = .ok (token, first :: text))
      (spelled : Spells rest tokens) : Spells (first :: text ++ rest) (token :: tokens)

/-- Behind a token the scanner goes on with what is left. -/
theorem scanFrom_token {first : Char} {text rest : List Char} {token : Token}
    (notBlank : isBlank first = false)
    (scanned : Token.scan first (text ++ rest) = .ok (token, first :: text)) (position : Nat) :
    Lexeme.scanFrom 0 position (first :: (text ++ rest)) =
      (Lexeme.scanFrom 0 (position + first.utf8Size + Lexeme.byteLength text) rest).map
        (⟨token, first :: text, position⟩ :: ·) := by
  rw [Lexeme.scanFrom, if_neg (fun covered => covered rfl), notBlank, scanned]
  change (Lexeme.scanFrom text.length _ (text ++ rest)).map _ = _
  rw [Lexeme.scanFrom_covered, List.take_left, List.drop_left]

/-- The scanner finds the tokens that a text spells. -/
theorem scanFrom_spells {input : List Char} {tokens : List Token} (spelled : Spells input tokens)
    (position : Nat) :
    ∃ lexemes, Lexeme.scanFrom 0 position input = .ok lexemes ∧
      lexemes.map Lexeme.token = tokens := by
  induction spelled generalizing position with
  | nil => exact ⟨[], rfl, rfl⟩
  | @blank character rest _ isBlank _ ih =>
      rcases ih (position + character.utf8Size) with ⟨lexemes, scanned, same⟩
      exact ⟨lexemes, by simp [Lexeme.scanFrom, isBlank, scanned], same⟩
  | @token first text rest token _ notBlank scanned _ ih =>
      rcases ih (position + first.utf8Size + Lexeme.byteLength text) with
        ⟨lexemes, restScanned, same⟩
      refine ⟨⟨token, first :: text, position⟩ :: lexemes, ?_, by simp [same]⟩
      rw [List.cons_append, scanFrom_token notBlank scanned, restScanned]
      rfl

/-- No character at the front of the text can continue a word. -/
def EndsWord (rest : List Char) : Prop := rest = [] ∨ ∃ tail, rest = ' ' :: tail

theorem nameTail_of_endsWord {rest : List Char} (ends : EndsWord rest) : nameTail rest = [] := by
  rcases ends with rfl | ⟨tail, rfl⟩
  · rfl
  · simp [nameTail, isWordPart, isWordStart]

theorem nameTail_cons {character : Char} (notDot : character ≠ '.') (rest : List Char) :
    nameTail (character :: rest) =
      if isWordPart character then character :: nameTail rest else [] := by
  rw [nameTail]
  intro _ _ same
  exact absurd same notDot

/-- A plain name is taken to its end, and each dot of it together with the character behind it. -/
theorem nameTail_append {rest : List Char} (ends : EndsWord rest) :
    ∀ word, areDottedWords false word = true → nameTail (word ++ rest) = word
  | [], _ => nameTail_of_endsWord ends
  | character :: word, words => by
      by_cases dot : character = '.'
      · rw [dot] at words ⊢
        cases word with
        | nil => nomatch words
        | cons next word =>
            have both : isWordStart next = true ∧ areDottedWords false word = true := by
              simpa [areDottedWords] using words
            rw [List.cons_append, List.cons_append, nameTail, if_pos both.1,
              nameTail_append ends word both.2]
      · have both : isWordPart character = true ∧ areDottedWords false word = true := by
          simpa [areDottedWords, dot] using words
        rw [List.cons_append, nameTail_cons dot, if_pos both.1, nameTail_append ends word both.2]

/-- A word that is no reserved word is read as a name. -/
theorem ofWord_name {word : String} (free : (Token.reservedWords.lookup word).isNone = true) :
    Token.ofWord word = .name word := by
  rw [Token.ofWord, Option.isNone_iff_eq_none.mp free]
  rfl

theorem not_isBlank_of_isWordStart {character : Char} (start : isWordStart character = true) :
    isBlank character = false := by
  cases blank : isBlank character with
  | false => rfl
  | true =>
      simp only [isBlank, Bool.or_eq_true, beq_iff_eq] at blank
      rcases blank with (((rfl | rfl) | rfl) | rfl) | rfl <;> nomatch start

theorem spells_plain {name : String} (plain : isPlainName name = true) {rest : List Char}
    {tokens : List Token} (ends : EndsWord rest) (spelled : Spells rest tokens) :
    Spells (name.toList ++ rest) (.name name :: tokens) := by
  rcases Bool.and_eq_true_iff.mp plain with ⟨words, free⟩
  cases characters : name.toList with
  | nil =>
      rw [characters] at words
      nomatch words
  | cons first word =>
      rw [characters] at words
      have both : isWordStart first = true ∧ areDottedWords false word = true := by
        simpa [areDottedWords] using words
      apply Spells.token (not_isBlank_of_isWordStart both.1) _ spelled
      have whole : String.ofList (first :: word) = name := by
        rw [← characters, String.ofList_toList]
      rw [Token.scan, if_pos both.1, nameTail_append ends word both.2]
      change Except.ok (Token.ofWord (String.ofList (first :: word)), first :: word) = _
      rw [whole, ofWord_name free]

theorem scan_backQuote {first : Char} {rest : List Char} (opens : first ≠ backQuote) :
    Token.scan backQuote (first :: rest) =
      Token.scanQuoted backQuote .name (first :: rest) := by
  have content : ((first :: rest).head?.all (· == backQuote)) = false := by simpa using opens
  rw [Token.scan, if_neg (by decide), if_neg (by decide), if_neg (by simp [backQuote]),
    if_neg (by decide), if_pos (by decide), content]
  rfl

/-- A text in quotes is taken up to the first quote of its kind. -/
theorem scanQuoted_append_quote {quote : Char} {body : List Char} (absent : quote ∉ body)
    (make : String → Token) (rest : List Char) :
    Token.scanQuoted quote make (body ++ quote :: rest) =
      .ok (make (String.ofList body), quote :: (body ++ [quote])) := by
  rw [Token.scanQuoted, takeWhile_bne_append absent, if_pos (by simp)]
  rfl

theorem spells_quoted {name : String} (nonempty : name ≠ "") (clean : backQuote ∉ name.toList)
    {rest : List Char} {tokens : List Token} (spelled : Spells rest tokens) :
    Spells (backQuote :: (name.toList ++ [backQuote]) ++ rest) (.name name :: tokens) := by
  apply Spells.token (by decide) _ spelled
  have taken := scanQuoted_append_quote clean Token.name rest
  rw [String.ofList_toList] at taken
  rw [List.append_assoc, List.singleton_append]
  cases characters : name.toList with
  | nil => exact absurd (String.toList_eq_nil_iff.mp characters) nonempty
  | cons first word =>
      rw [characters] at clean taken
      rw [List.cons_append, scan_backQuote fun same => clean (same ▸ List.mem_cons_self)]
      exact taken

/-- A name is written so that it is read back as itself. -/
theorem spells_nameText {name : String} (nonempty : name ≠ "") (clean : backQuote ∉ name.toList)
    {rest : List Char} {tokens : List Token} (ends : EndsWord rest)
    (spelled : Spells rest tokens) :
    Spells ((nameText name).toList ++ rest) (.name name :: tokens) := by
  rw [nameText]
  split
  next plain => exact spells_plain plain ends spelled
  next =>
    have written := spells_quoted nonempty clean spelled
    simpa [String.toList_append, backQuote] using written

end TypedRelations.Condition
