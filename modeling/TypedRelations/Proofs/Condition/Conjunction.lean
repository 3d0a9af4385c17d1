import TypedRelations.Proofs.Condition.Delimiter
import TypedRelations.Proofs.Condition.Equalities
import TypedRelations.Proofs.Condition.Evaluation
import TypedRelations.Proofs.Condition.Grammar.Completeness

/-!
# Conjunctions of conditions

Two conditions are joined to one by their texts, each between parentheses and with `and` in between.
The tree of the result is the conjunction of the two trees (`parse_conjoined`). It does not ask for
the second condition where the first is false.
-/

namespace TypedRelations.Condition

/-- A text is read as a condition exactly if the tokens that it spells have a tree. -/
theorem parse_eq_ok_iff {source : String} {condition : Condition} :
    parse source = .ok condition ↔ condition.source = source ∧
      ∃ tokens, Spells source.toList tokens ∧ Derives .condition tokens condition.expr := by
  constructor
  · intro parsed
    rw [parse] at parsed
    cases read : Expr.ofText source with
    | error fault =>
        rw [read] at parsed
        cases parsed
    | ok expr =>
        rw [read] at parsed
        obtain ⟨lexemes, scanned, decided⟩ := bind_eq_ok.mp read
        rw [← Except.ok.inj parsed]
        exact ⟨rfl, _, spells_of_scanFrom scanned, ofLexemes_eq_ok_iff.mp decided⟩
  · rintro ⟨same, tokens, spelled, derives⟩
    obtain ⟨lexemes, scanned, found⟩ := scanFrom_spells spelled 0
    rw [← found] at derives
    rw [parse_eq_ok scanned (ofLexemes_eq_ok_iff.mpr derives), ← same]

/-- The text of the conjunction of two conditions. -/
def conjoined (first second : String) : String := "(" ++ first ++ ") and (" ++ second ++ ")"

/-- The tokens of a phrase between parentheses. -/
def parenthesized (tokens : List Token) : List Token := .openParen :: (tokens ++ [.closeParen])

theorem spells_parenthesized {input rest : List Char} {tokens more : List Token}
    (spelled : Spells input tokens) (later : Spells rest more) :
    Spells ('(' :: (input ++ ')' :: rest)) (parenthesized tokens ++ more) := by
  have closing : Spells (')' :: [] ++ rest) (.closeParen :: more) :=
    .token (by decide) (by rfl) later
  have inside := spelled.append (delimits_closeParen rest) closing
  have opening : Spells ('(' :: [] ++ (input ++ ')' :: rest))
      (.openParen :: (tokens ++ .closeParen :: more)) := .token (by decide) (by rfl) inside
  simpa [parenthesized] using opening

theorem derives_parenthesized {tokens : List Token} {expr : Expr}
    (derives : Derives .condition tokens expr) : Derives .negation (parenthesized tokens) expr :=
  .plain (.single (.parens derives))

/-- The conjunction is read as the conjunction of the trees. -/
theorem parse_conjoined {first second : String} {left right : Condition}
    (leftParsed : parse first = .ok left) (rightParsed : parse second = .ok right) :
    parse (conjoined first second) =
      .ok ⟨conjoined first second, .and left.expr right.expr⟩ := by
  have ⟨_, leftTokens, leftSpelled, leftDerives⟩ := parse_eq_ok_iff.mp leftParsed
  have ⟨_, rightTokens, rightSpelled, rightDerives⟩ := parse_eq_ok_iff.mp rightParsed
  have last := spells_parenthesized rightSpelled .nil
  have whole := spells_parenthesized leftSpelled (spells_and last)
  have single : ∀ item ∈ [(parenthesized rightTokens, right.expr)],
      Derives .negation item.1 item.2 := by
    simpa using derives_parenthesized rightDerives
  have both := Derives.conjunction (derives_parenthesized leftDerives) single
  have alone : Derives .condition _ (chainTree .or _ []) := .condition both (by simp)
  refine parse_eq_ok_iff.mpr ⟨rfl, _, ?_, alone⟩
  simpa [conjoined, chainTokens, String.toList_append] using whole

theorem holds_and {left right : Expr} {scope : Scope} :
    (Expr.and left right).holds scope = left.holds scope >>= fun holds =>
      if holds then right.holds scope else .ok false := by
  rw [Expr.holds, Expr.eval_and, bind_assoc]
  congr 1
  funext holds
  cases holds with
  | false => rfl
  | true =>
      cases right.holds scope with
      | error failure => rfl
      | ok also => rfl

/-- A conjunction has a truth value where the left condition has one and, if this is true, the right
condition as well. -/
theorem evaluate_and_eq_ok {source : String} {left right : Condition} {scope : Scope}
    {holds : Bool} :
    evaluate ⟨source, .and left.expr right.expr⟩ scope = .ok holds ↔
      ∃ leftHolds, left.evaluate scope = .ok leftHolds ∧
        if leftHolds then right.evaluate scope = .ok holds else holds = false := by
  rw [evaluate_eq_ok, holds_and, bind_eq_ok]
  simp only [evaluate_eq_ok]
  apply exists_congr
  intro leftHolds
  cases leftHolds with
  | false => simp [eq_comm]
  | true => simp

end TypedRelations.Condition
