import TypedRelations.Proofs.Condition.LongestNumber
import TypedRelations.Proofs.Condition.Spelling

/-!
# The scanner takes the longest match

The scanner branches on the first character in the same way as the kinds of texts do, so each branch
is compared with the matches of one kind: the text it takes is one of them, and every other one that
the input begins with is at the front of this text.
-/

namespace TypedRelations.Condition

variable {first : Char} {rest text : List Char} {token : Token}

theorem areDottedWords_nameTail (input : List Char) :
    areDottedWords false (nameTail input) = true := by
  fun_induction nameTail input with
  | case1 next rest start ih => simp [areDottedWords, start, ih]
  | case3 character rest _ part ih =>
      have notDot : character ≠ '.' := by
        rintro rfl
        exact absurd part (by decide)
      simp [areDottedWords, notDot, part, ih]
  | _ => rfl

/-- The words that the input begins with are at the front of those that are taken. -/
theorem prefix_nameTail (after : List Char) :
    ∀ tail, areDottedWords false tail = true → tail <+: nameTail (tail ++ after)
  | [], _ => List.nil_prefix
  | character :: tail, words => by
      by_cases dot : character = '.'
      · rw [dot] at words ⊢
        cases tail with
        | nil => exact absurd words Bool.false_ne_true
        | cons next tail =>
            have both : isWordStart next = true ∧ areDottedWords false tail = true := by
              simpa [areDottedWords] using words
            rw [List.cons_append, List.cons_append, nameTail, if_pos both.1,
              List.cons_prefix_cons, List.cons_prefix_cons]
            exact ⟨rfl, rfl, prefix_nameTail after tail both.2⟩
      · have both : isWordPart character = true ∧ areDottedWords false tail = true := by
          simpa [areDottedWords, dot] using words
        rw [List.cons_append, nameTail_cons dot, if_pos both.1, List.cons_prefix_cons]
        exact ⟨rfl, prefix_nameTail after tail both.2⟩

theorem mem_fixedTexts_of_lookup
    (found : Token.reservedWords.lookup (String.ofList text) = some token) :
    (String.ofList text, token) ∈ fixedTexts := by
  obtain ⟨before, after, listed, -⟩ := List.lookup_eq_some_iff.mp found
  refine mem_fixedTexts.mpr (.inr ?_)
  rw [listed]
  simp

/-- A text of words is written for the token of its word. -/
theorem reads_ofWord (words : areDottedWords true text = true) :
    Reads text (Token.ofWord (String.ofList text)) := by
  rw [Token.ofWord]
  cases found : Token.reservedWords.lookup (String.ofList text) with
  | some token => exact .inl (mem_fixedTexts_of_lookup found)
  | none =>
      refine .inr ⟨fun other isFixed => ?_, .words, mem_words.mpr words, rfl⟩
      rcases mem_fixedTexts.mp isFixed with isSign | isReserved
      · have kinds := (head_of_areDottedWords words).symm.trans (head_of_isSign isSign)
        cases kinds
      · have differs := List.lookup_eq_none_iff.mp found _ isReserved
        simp at differs

theorem takesLongest_word (start : isWordStart first = true) :
    TakesLongest (first :: rest)
      (.ok (Token.ofWord (String.ofList (first :: nameTail rest)), first :: nameTail rest)) := by
  have words : areDottedWords true (first :: nameTail rest) = true := by
    rw [areDottedWords, if_pos rfl, start, areDottedWords_nameTail]
    rfl
  have reads := reads_ofWord words
  refine ⟨reads, longest_of_accepts reads.matches (head_of_areDottedWords words)
    (List.cons_prefix_cons.mpr ⟨rfl, nameTail_prefix_self rest⟩) fun other accepted begins => ?_⟩
  cases other with
  | nil => exact List.nil_prefix
  | cons character tail =>
      obtain ⟨same, after, rfl⟩ := List.cons_prefix_cons.mp begins
      have both := Bool.and_eq_true_iff.mp accepted
      exact List.cons_prefix_cons.mpr ⟨same, prefix_nameTail after tail both.2⟩

theorem not_mem_takeWhile (quote : Char) (input : List Char) :
    quote ∉ input.takeWhile (· != quote) := by
  intro member
  have differs := List.mem_takeWhile_imp member
  simp at differs

theorem unquoted_quoted (quote : Char) (body : List Char) :
    unquoted (quote :: (body ++ [quote])) = String.ofList body := by
  rw [unquoted, List.tail_cons, List.dropLast_concat]

/-- A text between quotes ends at the first quote after its beginning. -/
theorem takesLongest_quoted {quote : Char} {make : String → Token} (pattern : Pattern)
    (accepts : ∀ other, (Kind.ofFirst quote).Accepts other →
      ∃ body, quote ∉ body ∧ other = quote :: (body ++ [quote]))
    (notSign : Kind.ofFirst quote ≠ .sign) (notWord : Kind.ofFirst quote ≠ .word)
    (member : quote :: (rest.takeWhile (· != quote) ++ [quote]) ∈ pattern.language)
    (decodes : ∀ text, pattern.Decodes text (make (unquoted text))) :
    TakesLongest (quote :: rest) (Token.scanQuoted quote make rest) := by
  have taken : ∀ other, (Kind.ofFirst quote).Accepts other → other <+: quote :: rest →
      other = quote :: (rest.takeWhile (· != quote) ++ [quote]) ∧
        (rest.takeWhile (· != quote)).length < rest.length := by
    intro other accepted begins
    obtain ⟨body, absent, rfl⟩ := accepts other accepted
    have inRest := (List.cons_prefix_cons.mp begins).2
    have inside : ∀ character ∈ body, (character != quote) = true :=
      fun character member => bne_iff_ne.mpr fun same => absent (same ▸ member)
    rw [(takeWhile_of_stop inside (bne_self_eq_false quote) inRest).1]
    exact ⟨rfl, Nat.lt_of_succ_le (by simpa using inRest.length_le)⟩
  by_cases closed : (rest.takeWhile (· != quote)).length < rest.length
  · have scanned : Token.scanQuoted quote make rest =
        .ok (make (String.ofList (rest.takeWhile (· != quote))),
          quote :: (rest.takeWhile (· != quote) ++ [quote])) := if_pos closed
    have begins := Token.text_prefix_of_scanQuoted scanned
    rw [scanned, ← unquoted_quoted quote]
    have reads := reads_of_pattern rfl notSign notWord pattern member (decodes _)
    refine ⟨reads, longest_of_accepts reads.matches rfl begins fun other accepted inInput => ?_⟩
    rw [(taken other accepted inInput).1]
  · have scanned : Token.scanQuoted quote make rest = .error (quote :: rest) := if_neg closed
    rw [scanned]
    exact stuck_of_not_accepts fun other accepted begins => closed (taken other accepted begins).2

/-- A quoted name is taken if something else than the closing quote comes first. -/
theorem takesLongest_backQuoted {next : Char} (opens : next ≠ backQuote) (rest : List Char) :
    TakesLongest (backQuote :: next :: rest) (Token.scanQuoted backQuote .name (next :: rest)) := by
  have nonempty : (next :: rest).takeWhile (· != backQuote) ≠ [] := by
    rw [List.takeWhile_cons_of_pos (by simpa using opens)]
    exact List.cons_ne_nil _ _
  have member := mem_backQuoted.mpr ⟨_, nonempty, not_mem_takeWhile backQuote (next :: rest), rfl⟩
  refine takesLongest_quoted .backQuoted ?_ (by decide) (by decide) member fun _ => rfl
  rintro _ ⟨body, -, absent, rfl⟩
  exact ⟨body, absent, rfl⟩

/-- Nothing is quoted between back quotes that stand next to each other, or behind the last one. -/
theorem stuck_backQuote (closes : rest.head?.all (· == backQuote) = true) :
    Stuck (backQuote :: rest) := by
  apply stuck_of_not_accepts
  rintro _ ⟨body, nonempty, absent, rfl⟩ begins
  have inRest := (List.cons_prefix_cons.mp begins).2
  obtain ⟨next, body, rfl⟩ := List.exists_cons_of_ne_nil nonempty
  cases rest with
  | nil => cases List.prefix_nil.mp inRest
  | cons character rest =>
      rw [← (List.cons_prefix_cons.mp inRest).1] at closes
      exact absent (eq_of_beq closes ▸ List.mem_cons_self)

theorem takesLongest_sign {sign : List Char}
    (found : Token.signs.find? (fun entry => entry.1.isPrefixOf (first :: rest)) =
      some (sign, token)) : TakesLongest (first :: rest) (.ok (token, sign)) := by
  obtain ⟨begins, before, after, listed, passed⟩ := List.find?_eq_some_iff_append.mp found
  have isSign : (sign, token) ∈ Token.signs := List.mem_of_find?_eq_some found
  have reads : Reads sign token := .inl (mem_fixedTexts.mpr (.inl isSign))
  have inInput := List.isPrefixOf_iff_prefix.mp begins
  have longerFirst : Token.signs.Pairwise fun earlier later =>
      later.1.length ≤ earlier.1.length := by decide
  refine ⟨reads, longest_of_accepts reads.matches (head_of_isSign isSign) inInput ?_⟩
  rintro other ⟨otherToken, isOther⟩ otherBegins
  rw [listed, List.pairwise_append, List.pairwise_cons] at longerFirst
  rw [listed, List.mem_append, List.mem_cons] at isOther
  rcases isOther with isBefore | same | isAfter
  · have rejected := passed _ isBefore
    rw [List.isPrefixOf_iff_prefix.mpr otherBegins] at rejected
    cases rejected
  · rw [(Prod.mk.inj same).1]
  · exact List.prefix_of_prefix_length_le otherBegins inInput (longerFirst.2.1.1 _ isAfter)

theorem stuck_sign (kind : Kind.ofFirst first = .sign)
    (none : Token.signs.find? (fun entry => entry.1.isPrefixOf (first :: rest)) = none) :
    Stuck (first :: rest) := by
  apply stuck_of_not_accepts
  rw [kind]
  rintro other ⟨token, isSign⟩ begins
  exact List.find?_eq_none.mp none _ isSign (List.isPrefixOf_iff_prefix.mpr begins)

/-- The scanner takes the longest match off the front of a text, with the token it is written for,
and takes nothing only if no token begins the text. -/
theorem takesLongest_scan (first : Char) (rest : List Char) :
    TakesLongest (first :: rest) (Token.scan first rest) := by
  rw [Token.scan]
  split
  next start => exact takesLongest_word start
  next notWord =>
    split
    next isDigit =>
      refine takesLongest_number rfl ?_
      simp [leadingDigits, isDigit]
    next notDigit =>
      split
      next isNegative =>
        obtain ⟨isMinus, startsDigit⟩ := Bool.and_eq_true_iff.mp isNegative
        rw [eq_of_beq isMinus]
        cases rest with
        | nil => exact absurd startsDigit Bool.false_ne_true
        | cons next rest =>
            refine @takesLongest_number (next :: rest) true _ _ rfl ?_
            have isDigit : next.isDigit = true := startsDigit
            simp [leadingDigits, isDigit]
      next notNegative =>
        split
        next isQuote =>
          have member := fun quote => mem_quoted.mpr ⟨_, not_mem_takeWhile quote rest, rfl⟩
          rcases Bool.or_eq_true_iff.mp isQuote with isSingle | isDouble
          · rw [eq_of_beq isSingle]
            exact takesLongest_quoted .singleQuoted (fun _ accepted => accepted) (by decide)
              (by decide) (member singleQuote) fun _ => rfl
          · rw [eq_of_beq isDouble]
            exact takesLongest_quoted .doubleQuoted (fun _ accepted => accepted) (by decide)
              (by decide) (member doubleQuote) fun _ => rfl
        next notQuote =>
          split
          next isBackQuote =>
            rw [eq_of_beq isBackQuote]
            split
            next closes => exact stuck_backQuote closes
            next opens =>
              cases rest with
              | nil => exact absurd rfl opens
              | cons next rest =>
                  exact takesLongest_backQuoted (fun same => opens (beq_iff_eq.mpr same)) rest
          next notBackQuote =>
            split
            next sign token found => exact takesLongest_sign found
            next none =>
              by_cases isMinus : first = '-'
              · rw [isMinus] at notNegative ⊢
                exact stuck_minus notNegative
              · refine stuck_sign ?_ none
                simp only [Bool.or_eq_true, not_or] at notQuote
                simp [Kind.ofFirst, notWord, notDigit, isMinus, notQuote, notBackQuote]

end TypedRelations.Condition
