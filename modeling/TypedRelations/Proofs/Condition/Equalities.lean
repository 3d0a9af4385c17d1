import TypedRelations.Condition.Basic
import TypedRelations.Proofs.Condition.Spelling
import TypedRelations.Proofs.Outcome

/-!
# Conditions that are conjunctions of equalities

Joins on pairs of fields are selections by a text that they put together themselves: equalities
between names, joined by `and`. Such a text is read as the tree it was meant as
(`parse_equalities`), which holds where all pairs of values are equal (`evaluate_equalities`).
-/

namespace TypedRelations.Condition

/-- A name that can be written in a condition. -/
structure Readable (name : String) : Prop where
  nonempty : name ≠ ""
  clean : backQuote ∉ name.toList

instance (name : String) : Decidable (Readable name) :=
  decidable_of_iff (name ≠ "" ∧ backQuote ∉ name.toList)
    ⟨fun both => ⟨both.1, both.2⟩, fun readable => ⟨readable.nonempty, readable.clean⟩⟩

/-- The text of an equality between two names. -/
def equalityText (pair : String × String) : String :=
  nameText pair.1 ++ " == " ++ nameText pair.2

/-- The text of a conjunction of equalities. -/
def equalitiesText (pairs : List (String × String)) : String :=
  " and ".intercalate (pairs.map equalityText)

/-- The tokens of an equality between two names. -/
def equalityTokens (pair : String × String) : List Token :=
  [.name pair.1, .relator .eq, .name pair.2]

/-- The tokens of a conjunction after its first equality. -/
def conjunctTokens (pairs : List (String × String)) : List Token :=
  pairs.flatMap fun pair => .conjunction :: equalityTokens pair

theorem spells_eq {rest : List Char} {tokens : List Token} (spelled : Spells rest tokens) :
    Spells (' ' :: '=' :: '=' :: ' ' :: rest) (.relator .eq :: tokens) := by
  have scanned : Token.scan '=' ('=' :: ' ' :: rest) = .ok (.relator .eq, ['=', '=']) := by
    rfl
  have sign : Spells ('=' :: ['='] ++ ' ' :: rest) (.relator .eq :: tokens) :=
    .token (by decide) scanned (.blank (by decide) spelled)
  exact .blank (by decide) sign

theorem spells_and {rest : List Char} {tokens : List Token} (spelled : Spells rest tokens) :
    Spells (' ' :: 'a' :: 'n' :: 'd' :: ' ' :: rest) (.conjunction :: tokens) := by
  have scanned : Token.scan 'a' (['n', 'd'] ++ ' ' :: rest) =
      .ok (.conjunction, ['a', 'n', 'd']) := by
    rw [Token.scan, if_pos (by decide), nameTail_append (.inr ⟨rest, rfl⟩) _ (by decide)]
    rfl
  have word : Spells ('a' :: ['n', 'd'] ++ ' ' :: rest) (.conjunction :: tokens) :=
    .token (by decide) scanned (.blank (by decide) spelled)
  exact .blank (by decide) word

theorem spells_equality {pair : String × String} (left : Readable pair.1)
    (right : Readable pair.2) {rest : List Char} {tokens : List Token} (ends : EndsWord rest)
    (spelled : Spells rest tokens) :
    Spells ((equalityText pair).toList ++ rest) (equalityTokens pair ++ tokens) := by
  have second := spells_nameText right.nonempty right.clean ends spelled
  have both := spells_nameText left.nonempty left.clean (.inr ⟨_, rfl⟩) (spells_eq second)
  simpa [equalityText, equalityTokens, String.toList_append] using both

theorem spells_equalities {first : String × String} {pairs : List (String × String)}
    (readable : ∀ pair ∈ first :: pairs, Readable pair.1 ∧ Readable pair.2) :
    Spells (equalitiesText (first :: pairs)).toList
      (equalityTokens first ++ conjunctTokens pairs) := by
  induction pairs generalizing first with
  | nil =>
      rcases readable first List.mem_cons_self with ⟨left, right⟩
      simpa [equalitiesText, conjunctTokens] using spells_equality left right (.inl rfl) .nil
  | cons second rest ih =>
      rcases readable first List.mem_cons_self with ⟨left, right⟩
      have later := ih fun pair member => readable pair (List.mem_cons_of_mem _ member)
      have whole := spells_equality left right (.inr ⟨_, rfl⟩) (spells_and later)
      simpa [equalitiesText, conjunctTokens, String.intercalate_cons_cons, String.toList_append]
        using whole

/-- The tree of an equality between two names. -/
def equality (pair : String × String) : Expr :=
  .compare (.field pair.1) (.relator .eq) (.field pair.2)

/-- The tree of a conjunction of equalities, which groups to the left. -/
def equalities (first : Expr) (pairs : List (String × String)) : Expr :=
  pairs.foldl (fun left pair => .and left (equality pair)) first

/-- An equality at the front of the lexemes is read as one. -/
theorem negation_equality (inner : Reader) {pair : String × String} {lexemes : List Lexeme}
    {tokens : List Token} (same : lexemes.map Lexeme.token = equalityTokens pair ++ tokens) :
    ∃ rest, Reader.negation inner lexemes = .ok (equality pair, rest) ∧
      rest.map Lexeme.token = tokens := by
  rcases List.map_eq_cons_iff.mp same with ⟨⟨_, _, _⟩, _, rfl, rfl, afterName⟩
  rcases List.map_eq_cons_iff.mp afterName with ⟨⟨_, _, _⟩, _, rfl, rfl, afterSign⟩
  rcases List.map_eq_cons_iff.mp afterSign with ⟨⟨_, _, _⟩, rest, rfl, rfl, afterEquality⟩
  exact ⟨rest, rfl, afterEquality⟩

theorem moreConjuncts_equalities {inner : Reader} {pairs : List (String × String)} {bound : Nat}
    (enough : pairs.length ≤ bound) (left : Expr) {lexemes : List Lexeme}
    (same : lexemes.map Lexeme.token = conjunctTokens pairs) :
    Reader.moreConjuncts inner bound left lexemes = .ok (equalities left pairs, []) := by
  induction pairs generalizing bound left lexemes with
  | nil =>
      rw [List.map_eq_nil_iff.mp same]
      cases bound with
      | zero => rfl
      | succ bound => rfl
  | cons pair pairs ih =>
      cases bound with
      | zero => nomatch enough
      | succ bound =>
          rcases List.map_eq_cons_iff.mp same with ⟨⟨_, _, _⟩, after, rfl, rfl, later⟩
          rcases negation_equality inner later with ⟨rest, read, restSame⟩
          rw [Reader.moreConjuncts, read]
          exact ih (Nat.le_of_succ_le_succ enough) (.and left (equality pair)) restSame

theorem moreDisjuncts_nil {inner : Reader} {bound remaining : Nat} (left : Expr) :
    Reader.moreDisjuncts inner bound remaining left [] = .ok (left, []) := by
  cases remaining with
  | zero => rfl
  | succ remaining => rfl

theorem length_conjunctTokens (pairs : List (String × String)) :
    pairs.length ≤ (conjunctTokens pairs).length := by
  induction pairs with
  | nil => exact Nat.le_refl 0
  | cons pair pairs ih =>
      simp only [conjunctTokens, List.flatMap_cons, List.length_append, List.length_cons] at ih ⊢
      omega

/-- Lexemes with the tokens of a conjunction of equalities are read as this conjunction. -/
theorem ofLexemes_equalities {first : String × String} {pairs : List (String × String)}
    {lexemes : List Lexeme}
    (same : lexemes.map Lexeme.token = equalityTokens first ++ conjunctTokens pairs) :
    Expr.ofLexemes lexemes = .ok (equalities (equality first) pairs) := by
  have enough : pairs.length ≤ lexemes.length := by
    have lengths := congrArg List.length same
    have more := length_conjunctTokens pairs
    rw [List.length_map, List.length_append] at lengths
    omega
  rcases negation_equality (Reader.condition lexemes.length) same with
    ⟨rest, read, restSame⟩
  have conjoined : Reader.conjunction (Reader.condition lexemes.length) lexemes.length lexemes =
      .ok (equalities (equality first) pairs, []) := by
    rw [Reader.conjunction, read]
    exact moreConjuncts_equalities enough (equality first) restSame
  rw [Expr.ofLexemes, Reader.condition, Reader.disjunction, conjoined]
  change (Reader.moreDisjuncts _ _ _ _ _ >>= _) = _
  rw [moreDisjuncts_nil]
  rfl

/-- The text of a conjunction of equalities between readable names has the tree it was meant as. -/
theorem ofText_equalities {first : String × String} {pairs : List (String × String)}
    (readable : ∀ pair ∈ first :: pairs, Readable pair.1 ∧ Readable pair.2) :
    Expr.ofText (equalitiesText (first :: pairs)) = .ok (equalities (equality first) pairs) := by
  rcases scanFrom_spells (spells_equalities readable) 0 with ⟨lexemes, scanned, same⟩
  rw [Expr.ofText, Lexeme.ofText, scanned]
  exact ofLexemes_equalities same

/-- A conjunction of equalities between readable names is read as it was written. -/
theorem parse_equalities {first : String × String} {pairs : List (String × String)}
    (readable : ∀ pair ∈ first :: pairs, Readable pair.1 ∧ Readable pair.2) :
    parse (equalitiesText (first :: pairs)) =
      .ok ⟨equalitiesText (first :: pairs), equalities (equality first) pairs⟩ := by
  rw [parse, ofText_equalities readable]

variable {scope : Scope} {value : String → Value}

theorem test_eq (left right : Value) :
    Comparison.test (.relator .eq) left right = .ok (left == right) := by
  rw [Comparison.test_relator, Relator.holds]
  cases same : left == right with
  | false => rw [Bool.and_false]
  | true => rw [Value.type_eq_of_beq same, BEq.rfl, Bool.true_and]

theorem eval_equality {pair : String × String} (left : scope.lookup pair.1 = some (value pair.1))
    (right : scope.lookup pair.2 = some (value pair.2)) :
    (equality pair).eval scope = .ok (.bool (value pair.1 == value pair.2)) := by
  simp only [equality, Expr.eval, left, right]
  change (Comparison.test _ _ _ >>= _) = _
  rw [test_eq]
  rfl

theorem eval_equalities {pairs : List (String × String)}
    (known : ∀ pair ∈ pairs, scope.lookup pair.1 = some (value pair.1) ∧
      scope.lookup pair.2 = some (value pair.2)) {first : Expr} {holds : Bool}
    (firstHolds : first.eval scope = .ok (.bool holds)) :
    (equalities first pairs).eval scope =
      .ok (.bool (holds && pairs.all fun pair => value pair.1 == value pair.2)) := by
  induction pairs generalizing first holds with
  | nil => simpa [equalities] using firstHolds
  | cons pair pairs ih =>
      rcases known pair List.mem_cons_self with ⟨left, right⟩
      have both : (Expr.and first (equality pair)).eval scope =
          .ok (.bool (holds && value pair.1 == value pair.2)) := by
        rw [Expr.eval, firstHolds, eval_equality left right]
        cases holds with
        | false => rfl
        | true => rfl
      have later := ih (fun other member => known other (List.mem_cons_of_mem _ member)) both
      rw [List.all_cons, ← Bool.and_assoc]
      exact later

/-- A conjunction of equalities holds where all pairs of values are equal. -/
theorem evaluate_equalities {source : String} {first : String × String}
    {pairs : List (String × String)}
    (known : ∀ pair ∈ first :: pairs, scope.lookup pair.1 = some (value pair.1) ∧
      scope.lookup pair.2 = some (value pair.2)) :
    evaluate ⟨source, equalities (equality first) pairs⟩ scope =
      .ok ((first :: pairs).all fun pair => value pair.1 == value pair.2) := by
  rcases known first List.mem_cons_self with ⟨left, right⟩
  have evaluated := eval_equalities
    (fun pair member => known pair (List.mem_cons_of_mem _ member)) (eval_equality left right)
  rw [evaluate, Expr.holds, evaluated]
  rfl

end TypedRelations.Condition
