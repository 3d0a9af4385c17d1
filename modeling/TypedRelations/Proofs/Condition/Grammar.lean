import TypedRelations.Condition.Grammar
import TypedRelations.Proofs.Outcome

/-!
# The grammar as a relation

`Derives` says which tokens make up a phrase of the grammar and which tree the phrase has. What a
reader takes off the front of a list of lexemes is a phrase with the tree that it returns
(`Reader.Sound`). The loops behind `and` and behind `or` are treated as one (`Loops`).
-/

namespace TypedRelations.Condition

/-- How a comparison is written. -/
def Comparison.tokens : Comparison → List Token
  | .relator sign => [.relator sign]
  | .containment false => [.containment]
  | .containment true => [.negation, .containment]

/-- The value of a literal. -/
def Token.literal? : Token → Option Value
  | .null => some .null
  | .bool value => some (.bool value)
  | .int value => some (.int value)
  | .float value => some (.float value)
  | .str value => some (.str value)
  | _ => none

/-- The tokens of a chain after its first item. A link stands in front of every further item. -/
def chainTokens (link : Token) (items : List (List Token × Expr)) : List Token :=
  items.flatMap fun item => link :: item.1

/-- The tree of a chain, which groups to the left. -/
def chainTree (join : Expr → Expr → Expr) (first : Expr) (items : List (List Token × Expr)) :
    Expr :=
  items.foldl (fun left item => join left item.2) first

/-- The rules of the grammar. -/
inductive Phrase where
  | condition
  | conjunction
  | negation
  | comparison
  | operand

/-- The tokens make up a phrase with the given tree. There is one constructor for each alternative
of the grammar, and a repetition in the grammar is a list of items. -/
inductive Derives : Phrase → List Token → Expr → Prop where
  | condition {tokens : List Token} {first : Expr} {items : List (List Token × Expr)}
      (head : Derives .conjunction tokens first)
      (tail : ∀ item ∈ items, Derives .conjunction item.1 item.2) :
      Derives .condition (tokens ++ chainTokens .disjunction items) (chainTree .or first items)
  | conjunction {tokens : List Token} {first : Expr} {items : List (List Token × Expr)}
      (head : Derives .negation tokens first)
      (tail : ∀ item ∈ items, Derives .negation item.1 item.2) :
      Derives .conjunction (tokens ++ chainTokens .conjunction items) (chainTree .and first items)
  | negated {tokens : List Token} {expr : Expr} (operand : Derives .negation tokens expr) :
      Derives .negation (.negation :: tokens) (.not expr)
  | plain {tokens : List Token} {expr : Expr} (comparison : Derives .comparison tokens expr) :
      Derives .negation tokens expr
  | compared {leftTokens rightTokens : List Token} {left right : Expr} (comparison : Comparison)
      (leftOperand : Derives .operand leftTokens left)
      (rightOperand : Derives .operand rightTokens right) :
      Derives .comparison (leftTokens ++ (comparison.tokens ++ rightTokens))
        (.compare left comparison right)
  | single {tokens : List Token} {expr : Expr} (operand : Derives .operand tokens expr) :
      Derives .comparison tokens expr
  | literal {token : Token} {value : Value} (listed : token.literal? = some value) :
      Derives .operand [token] (.literal value)
  | name (word : String) : Derives .operand [.name word] (.field word)
  | parens {tokens : List Token} {expr : Expr} (inner : Derives .condition tokens expr) :
      Derives .operand (.openParen :: (tokens ++ [.closeParen])) expr

variable {link : Token} {join : Expr → Expr → Expr} {item : Reader} {loop : Nat → Expr → Reader}

/-- The token that comes next. -/
def next? (lexemes : List Lexeme) : Option Token := lexemes.head?.map Lexeme.token

/-- A reader that extends a tree by further items for as long as a link comes next and the bound
lasts. The readers of conjunctions and of disjunctions go on in this way. -/
structure Loops (link : Token) (join : Expr → Expr → Expr) (item : Reader)
    (loop : Nat → Expr → Reader) : Prop where
  exhausted : ∀ left lexemes, loop 0 left lexemes = .ok (left, lexemes)
  stops : ∀ bound left lexemes, next? lexemes ≠ some link →
    loop bound left lexemes = .ok (left, lexemes)
  goes : ∀ bound left lexeme rest, lexeme.token = link →
    loop (bound + 1) left (lexeme :: rest) =
      item rest >>= fun (right, rest) => loop bound (join left right) rest

theorem loops_moreConjuncts (inner : Reader) :
    Loops .conjunction .and (Reader.negation inner) (Reader.moreConjuncts inner) where
  exhausted := by
    intro left lexemes
    rw [Reader.moreConjuncts]
    simp
  stops := by
    intro bound left lexemes other
    rw [Reader.moreConjuncts.eq_def]
    split
    next => exact absurd rfl other
    next => rfl
  goes := by
    rintro bound left ⟨_, _, _⟩ rest rfl
    rw [Reader.moreConjuncts]

theorem loops_moreDisjuncts (inner : Reader) (bound : Nat) :
    Loops .disjunction .or (Reader.conjunction inner bound)
      (Reader.moreDisjuncts inner bound) where
  exhausted := by
    intro left lexemes
    rw [Reader.moreDisjuncts]
    simp
  stops := by
    intro remaining left lexemes other
    rw [Reader.moreDisjuncts.eq_def]
    split
    next => exact absurd rfl other
    next => rfl
  goes := by
    rintro remaining left ⟨_, _, _⟩ rest rfl
    rw [Reader.moreDisjuncts]

/-! ## What a reader takes is a phrase -/

/-- What the reader takes off the front of a list of lexemes is a phrase with the tree that it
returns. -/
def Reader.Sound (phrase : Phrase) (reader : Reader) : Prop :=
  ∀ lexemes expr rest, reader lexemes = .ok (expr, rest) →
    ∃ front, lexemes = front ++ rest ∧ Derives phrase (front.map Lexeme.token) expr

variable {inner : Reader} {phrase : Phrase} {tokens : List Token} {expr : Expr}
  {lexemes rest : List Lexeme}

theorem Loops.sound (loops : Loops link join item loop) (itemSound : item.Sound phrase) :
    ∀ bound left lexemes expr rest, loop bound left lexemes = .ok (expr, rest) →
      ∃ front items, lexemes = front ++ rest ∧ front.map Lexeme.token = chainTokens link items ∧
        expr = chainTree join left items ∧
        ∀ entry ∈ items, Derives phrase entry.1 entry.2 := by
  have stoppedAtOnce : ∀ left (lexemes : List Lexeme) expr rest,
      (Except.ok (left, lexemes) : Except Fault _) = .ok (expr, rest) →
      ∃ front items, lexemes = front ++ rest ∧ front.map Lexeme.token = chainTokens link items ∧
        expr = chainTree join left items ∧
        ∀ entry ∈ items, Derives phrase entry.1 entry.2 := by
    intro left lexemes expr rest same
    rcases Prod.mk.inj (Except.ok.inj same) with ⟨rfl, rfl⟩
    exact ⟨[], [], rfl, rfl, rfl, by simp⟩
  intro bound
  induction bound with
  | zero =>
      intro left lexemes expr rest read
      rw [loops.exhausted] at read
      exact stoppedAtOnce left lexemes expr rest read
  | succ bound ih =>
      intro left lexemes expr rest read
      by_cases linked : next? lexemes = some link
      · cases lexemes with
        | nil => nomatch linked
        | cons lexeme after =>
            rw [loops.goes bound left lexeme after (Option.some.inj linked)] at read
            rcases bind_eq_ok.mp read with ⟨⟨right, others⟩, itemRead, later⟩
            rcases itemSound _ _ _ itemRead with ⟨first, rfl, derives⟩
            rcases ih _ _ _ _ later with ⟨front, items, rfl, spelled, rfl, everyItem⟩
            refine ⟨lexeme :: (first ++ front), (first.map Lexeme.token, right) :: items,
              by simp, ?_, rfl, ?_⟩
            · rw [List.map_cons, List.map_append, spelled, Option.some.inj linked]
              rfl
            · intro entry member
              rcases List.mem_cons.mp member with rfl | other
              · exact derives
              · exact everyItem entry other
      · rw [loops.stops _ _ _ linked] at read
        exact stoppedAtOnce left lexemes expr rest read

theorem operand_parens_eq_ok {opening : Lexeme} {after : List Lexeme}
    (opens : opening.token = .openParen) :
    Reader.operand inner (opening :: after) = .ok (expr, rest) ↔
      ∃ closing, closing.token = .closeParen ∧ inner after = .ok (expr, closing :: rest) := by
  rcases opening with ⟨token, text, start⟩
  cases opens
  rw [Reader.operand, bind_eq_ok]
  constructor
  · rintro ⟨⟨tree, others⟩, read, closed⟩
    dsimp only at closed
    split at closed
    next closingText closingStart last =>
      rcases Prod.mk.inj (Except.ok.inj closed) with ⟨rfl, rfl⟩
      exact ⟨⟨.closeParen, closingText, closingStart⟩, rfl, read⟩
    next => nomatch closed
  · rintro ⟨⟨_, _, _⟩, rfl, read⟩
    exact ⟨_, read, rfl⟩

/-- An operand is a literal, a name, or what the inner reader takes between parentheses. -/
theorem operand_eq_ok :
    Reader.operand inner lexemes = .ok (expr, rest) ↔
      ∃ lexeme after, lexemes = lexeme :: after ∧
        ((∃ value, lexeme.token.literal? = some value ∧ expr = .literal value ∧ rest = after) ∨
          (∃ word, lexeme.token = .name word ∧ expr = .field word ∧ rest = after) ∨
          (lexeme.token = .openParen ∧ ∃ closing, closing.token = .closeParen ∧
            inner after = .ok (expr, closing :: rest))) := by
  cases lexemes with
  | nil => simp [Reader.operand]
  | cons lexeme after =>
      rcases lexeme with ⟨token, text, start⟩
      cases token with
      | openParen => simp [operand_parens_eq_ok, Token.literal?]
      | _ => simp [Reader.operand, Token.literal?, eq_comm]

/-- A comparison that comes next is one of its spellings; where none does, no token of a spelling
comes next. -/
theorem leadingComparison?_eq_some {comparison : Comparison} :
    leadingComparison? lexemes = .ok (some (comparison, rest)) ↔
      ∃ front, lexemes = front ++ rest ∧ front.map Lexeme.token = comparison.tokens := by
  constructor
  · intro leads
    rw [leadingComparison?.eq_def] at leads
    split at leads
    next sign text start after =>
      rcases Prod.mk.inj (Option.some.inj (Except.ok.inj leads)) with ⟨rfl, rfl⟩
      exact ⟨[_], rfl, rfl⟩
    next text start after =>
      rcases Prod.mk.inj (Option.some.inj (Except.ok.inj leads)) with ⟨rfl, rfl⟩
      exact ⟨[_], rfl, rfl⟩
    next first second after =>
      rcases Prod.mk.inj (Option.some.inj (Except.ok.inj leads)) with ⟨rfl, rfl⟩
      exact ⟨[_, _], rfl, rfl⟩
    next => nomatch leads
    next => nomatch Except.ok.inj leads
  · rintro ⟨front, rfl, spelled⟩
    cases comparison with
    | relator sign =>
        rcases List.map_eq_singleton_iff.mp spelled with ⟨⟨_, _, _⟩, rfl, rfl⟩
        rfl
    | containment negated =>
        cases negated with
        | false =>
            rcases List.map_eq_singleton_iff.mp spelled with ⟨⟨_, _, _⟩, rfl, rfl⟩
            rfl
        | true =>
            rcases List.map_eq_cons_iff.mp spelled with ⟨⟨_, _, _⟩, _, rfl, rfl, later⟩
            rcases List.map_eq_singleton_iff.mp later with ⟨⟨_, _, _⟩, rfl, rfl⟩
            rfl

theorem Reader.Sound.operand (innerSound : inner.Sound .condition) :
    (Reader.operand inner).Sound .operand := by
  intro lexemes expr rest read
  rcases operand_eq_ok.mp read with ⟨lexeme, after, rfl, literal | name | parens⟩
  · rcases literal with ⟨value, listed, rfl, rfl⟩
    exact ⟨[lexeme], rfl, .literal listed⟩
  · rcases name with ⟨word, named, rfl, rfl⟩
    refine ⟨[lexeme], rfl, ?_⟩
    rw [List.map_singleton, named]
    exact .name word
  · rcases parens with ⟨opens, closing, closes, innerRead⟩
    rcases innerSound _ _ _ innerRead with ⟨front, rfl, derives⟩
    refine ⟨lexeme :: (front ++ [closing]), by simp, ?_⟩
    rw [List.map_cons, List.map_append, List.map_singleton, opens, closes]
    exact .parens derives

theorem Reader.Sound.comparison (innerSound : inner.Sound .condition) :
    (Reader.comparison inner).Sound .comparison := by
  intro lexemes expr rest read
  rcases bind_bind_eq_ok.mp read with ⟨⟨left, afterLeft⟩, leading, leftRead, leads, finished⟩
  rcases innerSound.operand _ _ _ leftRead with ⟨front, rfl, leftDerives⟩
  cases leading with
  | none =>
      rcases Prod.mk.inj (Except.ok.inj finished) with ⟨rfl, rfl⟩
      exact ⟨front, rfl, .single leftDerives⟩
  | some next =>
      rcases next with ⟨comparison, afterSign⟩
      rcases leadingComparison?_eq_some.mp leads with ⟨sign, rfl, spelled⟩
      rcases bind_eq_ok.mp finished with ⟨⟨right, afterRight⟩, rightRead, same⟩
      rcases innerSound.operand _ _ _ rightRead with ⟨back, rfl, rightDerives⟩
      rcases Prod.mk.inj (Except.ok.inj same) with ⟨rfl, rfl⟩
      refine ⟨front ++ (sign ++ back), by simp, ?_⟩
      rw [List.map_append, List.map_append, spelled]
      exact .compared comparison leftDerives rightDerives

theorem negation_negated {lexeme : Lexeme} (negates : lexeme.token = .negation)
    (after : List Lexeme) :
    Reader.negation inner (lexeme :: after) =
      Reader.negation inner after >>= fun (operand, rest) => .ok (.not operand, rest) := by
  rcases lexeme with ⟨token, text, start⟩
  cases negates
  rw [Reader.negation]
  rfl

theorem negation_plain (other : next? lexemes ≠ some .negation) :
    Reader.negation inner lexemes = Reader.comparison inner lexemes := by
  rw [Reader.negation.eq_def]
  split
  next => exact absurd rfl other
  next => rfl

theorem Reader.Sound.negation (innerSound : inner.Sound .condition) :
    (Reader.negation inner).Sound .negation := by
  intro lexemes
  induction lexemes with
  | nil =>
      intro expr rest read
      rw [negation_plain (by simp [next?])] at read
      rcases innerSound.comparison _ _ _ read with ⟨front, same, derives⟩
      exact ⟨front, same, .plain derives⟩
  | cons lexeme after ih =>
      intro expr rest read
      by_cases negates : lexeme.token = .negation
      · rw [negation_negated negates] at read
        rcases bind_eq_ok.mp read with ⟨⟨operand, others⟩, operandRead, same⟩
        rcases ih _ _ operandRead with ⟨front, rfl, derives⟩
        rcases Prod.mk.inj (Except.ok.inj same) with ⟨rfl, rfl⟩
        refine ⟨lexeme :: front, rfl, ?_⟩
        rw [List.map_cons, negates]
        exact .negated derives
      · rw [negation_plain (by simpa [next?] using negates)] at read
        rcases innerSound.comparison _ _ _ read with ⟨front, same, derives⟩
        exact ⟨front, same, .plain derives⟩

/-- A first item, and then the loop. -/
def chain (item : Reader) (loop : Nat → Expr → Reader) (bound : Nat) : Reader := fun lexemes =>
  item lexemes >>= fun (first, rest) => loop bound first rest

theorem Loops.sound_chain (loops : Loops link join item loop) (itemSound : item.Sound phrase)
    {bound : Nat} (read : chain item loop bound lexemes = .ok (expr, rest)) :
    ∃ front tokens first items, lexemes = front ++ rest ∧
      front.map Lexeme.token = tokens ++ chainTokens link items ∧
      expr = chainTree join first items ∧ Derives phrase tokens first ∧
      ∀ entry ∈ items, Derives phrase entry.1 entry.2 := by
  rcases bind_eq_ok.mp read with ⟨⟨first, others⟩, firstRead, later⟩
  rcases itemSound _ _ _ firstRead with ⟨front, rfl, derives⟩
  rcases loops.sound itemSound _ _ _ _ _ later with ⟨back, items, rfl, spelled, rfl, everyItem⟩
  refine ⟨front ++ back, front.map Lexeme.token, first, items, by simp, ?_, rfl, derives, everyItem⟩
  rw [List.map_append, spelled]

theorem Reader.Sound.conjunction (innerSound : inner.Sound .condition) (bound : Nat) :
    (Reader.conjunction inner bound).Sound .conjunction := by
  intro lexemes expr rest read
  rcases (loops_moreConjuncts inner).sound_chain innerSound.negation read with
    ⟨front, tokens, first, items, same, spelled, rfl, head, tail⟩
  exact ⟨front, same, spelled ▸ .conjunction head tail⟩

theorem Reader.Sound.disjunction (innerSound : inner.Sound .condition) (bound : Nat) :
    (Reader.disjunction inner bound).Sound .condition := by
  intro lexemes expr rest read
  rcases (loops_moreDisjuncts inner bound).sound_chain (innerSound.conjunction bound) read with
    ⟨front, tokens, first, items, same, spelled, rfl, head, tail⟩
  exact ⟨front, same, spelled ▸ .condition head tail⟩

theorem sound_condition (bound : Nat) : (Reader.condition bound).Sound .condition := by
  induction bound with
  | zero =>
      intro lexemes expr rest read
      nomatch read
  | succ bound ih => exact ih.disjunction bound

end TypedRelations.Condition
