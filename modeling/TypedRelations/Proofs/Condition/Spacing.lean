import TypedRelations.Proofs.Condition.Conjunction
import TypedRelations.Proofs.Condition.Partition
import TypedRelations.Proofs.Condition.Unambiguous

/-!
# Spacing

No token goes on with a blank, so the text of a lexeme is scanned as its token on its own and in
front of blanks. The lexemes of a text may therefore be written with other blanks between them: this
has the same tokens and the same tree (`ofText_respaced`).
-/

namespace TypedRelations.Condition.Lexeme

variable {text : List Char} {lexemes : List Lexeme}

/-- The characters are all skipped. -/
def IsGap (gap : List Char) : Prop := ∀ character ∈ gap, character ∈ skipped

instance (gap : List Char) : Decidable (IsGap gap) :=
  List.decidableBAll (· ∈ skipped) gap

/-- The text has the pieces in order, each with skipped characters behind it. Only behind the last
one there may be none. -/
inductive Spaced : List (List Char) → List Char → Prop where
  | nil : Spaced [] []
  | cons {piece gap text : List Char} {pieces : List (List Char)} (isGap : IsGap gap)
      (separates : pieces ≠ [] → gap ≠ []) (later : Spaced pieces text) :
      Spaced (piece :: pieces) (piece ++ (gap ++ text))

/-- What is read, without the place it stands at. -/
def content (lexeme : Lexeme) : Token × List Char := (lexeme.token, lexeme.text)

theorem mem_delimiters_of_mem_skipped {character : Char} (isSkipped : character ∈ skipped) :
    character ∈ delimiters := by
  have delimit : skipped.all delimiters.contains = true := by decide
  exact List.contains_iff_mem.mp (List.all_eq_true.mp delimit character isSkipped)

theorem delimits_gap {pieces : List (List Char)} {gap : List Char} (isGap : IsGap gap)
    (separates : pieces ≠ [] → gap ≠ []) (later : Spaced pieces text) : Delimits (gap ++ text) := by
  intro character head
  cases gap with
  | cons first gap =>
      cases head
      exact mem_delimiters_of_mem_skipped (isGap character List.mem_cons_self)
  | nil =>
      cases later with
      | nil => nomatch head
      | cons => exact absurd rfl (separates (List.cons_ne_nil _ _))

theorem scanFrom_gap {gap : List Char} (isGap : IsGap gap) (position : Nat) (rest : List Char) :
    scanFrom 0 position (gap ++ rest) = scanFrom 0 (position + byteLength gap) rest := by
  induction gap generalizing position with
  | nil => rfl
  | cons character gap ih =>
      obtain ⟨isSkipped, isGap⟩ := List.forall_mem_cons.mp isGap
      rw [List.cons_append, scanFrom, if_neg (fun covers => covers rfl),
        if_pos (mem_skipped_iff.mp isSkipped), ih isGap, byteLength, Nat.add_assoc]

/-- The induction is on the spaced text. Each piece is scanned as its token on its own, and hence
in front of what follows it. -/
theorem scanFrom_spaced {pieces : List (List Char)} (spaced : Spaced pieces text)
    (read : ∀ lexeme ∈ lexemes, Reads lexeme.text lexeme.token)
    (texts : lexemes.map Lexeme.text = pieces) (position : Nat) :
    ∃ others, scanFrom 0 position text = .ok others ∧
      others.map content = lexemes.map content := by
  induction spaced generalizing lexemes position with
  | nil =>
      rw [List.map_eq_nil_iff.mp texts]
      exact ⟨[], rfl, rfl⟩
  | @cons piece gap text pieces isGap separates spaced ih =>
      obtain ⟨lexeme, lexemes, rfl, rfl, later⟩ := List.map_eq_cons_iff.mp texts
      obtain ⟨reads, readLater⟩ := List.forall_mem_cons.mp read
      obtain ⟨first, tail, isText, notBlank, scanned⟩ := reads.scan
      have scannedHere := scan_append scanned (delimits_gap isGap separates spaced)
      obtain ⟨others, scannedLater, same⟩ := ih readLater later
        (position + first.utf8Size + byteLength tail + byteLength gap)
      refine ⟨⟨lexeme.token, lexeme.text, position⟩ :: others, ?_, ?_⟩
      · rw [isText, List.cons_append, scanFrom_token notBlank scannedHere, scanFrom_gap isGap,
          scannedLater]
        rfl
      · rw [List.map_cons, List.map_cons, same]
        rfl

/-- The tokens of a text with other spacing are the same, and hence the tree is the same, or there
is none either. -/
theorem ofText_respaced {source : String} {lead body : List Char}
    (scanned : ofText source = .ok lexemes) (isGap : IsGap lead)
    (spaced : Spaced (lexemes.map Lexeme.text) body) :
    (∃ others, ofText (String.ofList (lead ++ body)) = .ok others ∧
      others.map content = lexemes.map content) ∧
    ∀ expr, Expr.ofText (String.ofList (lead ++ body)) = .ok expr ↔
      Expr.ofText source = .ok expr := by
  obtain ⟨others, otherScanned, same⟩ :=
    scanFrom_spaced spaced (reads_of_ofText scanned) rfl (byteLength lead)
  have whole : ofText (String.ofList (lead ++ body)) = .ok others := by
    rw [ofText, String.toList_ofList, scanFrom_gap isGap, Nat.zero_add, otherScanned]
  have tokens : others.map Lexeme.token = lexemes.map Lexeme.token := by
    simpa [Function.comp_def, content] using congrArg (List.map Prod.fst) same
  refine ⟨⟨others, whole, same⟩, fun expr => ?_⟩
  rw [Expr.ofText, Expr.ofText, whole, scanned]
  change Expr.ofLexemes others = .ok expr ↔ Expr.ofLexemes lexemes = .ok expr
  rw [ofLexemes_eq_ok_iff, ofLexemes_eq_ok_iff, tokens]

/-- The lexemes of a condition whose tokens touch each other where they can. -/
def touching : List Lexeme :=
  [⟨.name "a", "a".toList, 0⟩, ⟨.relator .lt, "<".toList, 1⟩, ⟨.int (-1), "-1".toList, 2⟩,
    ⟨.disjunction, "or".toList, 4⟩, ⟨.str "b c", "'b c'".toList, 6⟩,
    ⟨.containment, "in".toList, 11⟩, ⟨.name "d", "d".toList, 14⟩]

/-- The blank in the quotes is no gap. -/
theorem ofText_respaced_touching :
    ofText "a<-1or'b c'in d" = .ok touching ∧
    (∃ others, ofText "\ta <  -1 or\n'b c' in d\r\n" = .ok others ∧
      others.map content = touching.map content) ∧
    Expr.ofText "\ta <  -1 or\n'b c' in d\r\n" =
      .ok (.or (.compare (.field "a") (.relator .lt) (.literal (.int (-1))))
        (.compare (.literal (.str "b c")) (.containment false) (.field "d"))) := by
  have scanned : ofText "a<-1or'b c'in d" = .ok touching := by rfl
  have blank : IsGap [' '] := by decide
  have last : Spaced ["d".toList] _ := .cons (show IsGap ['\r', '\n'] by decide) nofun .nil
  have spaced : Spaced (touching.map Lexeme.text) _ :=
    .cons blank nofun (.cons (show IsGap [' ', ' '] by decide) nofun (.cons blank nofun
      (.cons (show IsGap ['\n'] by decide) nofun (.cons blank nofun (.cons blank nofun last)))))
  obtain ⟨same, tree⟩ := ofText_respaced scanned (show IsGap ['\t'] by decide) spaced
  refine ⟨scanned, same, (tree _).mpr ?_⟩
  rw [Expr.ofText, scanned]
  rfl

end TypedRelations.Condition.Lexeme
