import TypedRelations.Proofs.Condition.Grammar

/-!
# Phrases are read whole

A phrase is taken to its end wherever no further token can belong to it (`Derives.takes`). What may
come next depends on its rule (`Ends`), and the bound on the depth of parentheses has to cover the
number of its tokens. So reading decides the grammar: a list of lexemes has the tree that the
grammar gives to its tokens, and no other.
-/

namespace TypedRelations.Condition

variable {link : Token} {join : Expr → Expr → Expr} {item : Reader} {loop : Nat → Expr → Reader}
  {inner : Reader} {phrase : Phrase} {tokens : List Token} {expr : Expr}
  {lexemes rest : List Lexeme} {finishes : List Lexeme → Prop}

/-- The reader takes the given tokens off the front of the rest, and nothing more. -/
def Reader.Takes (reader : Reader) (tokens : List Token) (expr : Expr) (rest : List Lexeme) :
    Prop :=
  ∀ front, front.map Lexeme.token = tokens → reader (front ++ rest) = .ok (expr, rest)

/-- The phrase cannot go on with what comes next. -/
def Ends : Phrase → List Lexeme → Prop
  | .operand, _ => True
  | .comparison, rest | .negation, rest => leadingComparison? rest = .ok none
  | .conjunction, rest => leadingComparison? rest = .ok none ∧ next? rest ≠ some .conjunction
  | .condition, rest => leadingComparison? rest = .ok none ∧ next? rest ≠ some .conjunction ∧
      next? rest ≠ some .disjunction

/-- The reader of a phrase, for phrases with at most the given number of tokens. -/
def Phrase.reader (bound : Nat) : Phrase → Reader
  | .condition => Reader.disjunction (Reader.condition bound) bound
  | .conjunction => Reader.conjunction (Reader.condition bound) bound
  | .negation => Reader.negation (Reader.condition bound)
  | .comparison => Reader.comparison (Reader.condition bound)
  | .operand => Reader.operand (Reader.condition bound)

/-- In front of a token that begins no comparison, none is read. -/
theorem leadingComparison?_eq_none {token : Token} (next : next? lexemes = some token)
    (other : ∀ comparison : Comparison, comparison.tokens.head? ≠ some token) :
    leadingComparison? lexemes = .ok none := by
  cases lexemes with
  | nil => rfl
  | cons lexeme after =>
      rcases lexeme with ⟨found, text, start⟩
      have same : found = token := Option.some.inj next
      cases found with
      | relator sign => exact absurd (congrArg some same) (other (.relator sign))
      | containment => exact absurd (congrArg some same) (other (.containment false))
      | negation => exact absurd (congrArg some same) (other (.containment true))
      | _ => rfl

theorem head?_tokens_ne {token : Token} {comparison : Comparison}
    (unrelated : token = .conjunction ∨ token = .disjunction ∨ token = .closeParen) :
    comparison.tokens.head? ≠ some token := by
  cases comparison with
  | relator sign => rcases unrelated with rfl | rfl | rfl <;> simp [Comparison.tokens]
  | containment negated =>
      cases negated <;> rcases unrelated with rfl | rfl | rfl <;> simp [Comparison.tokens]

theorem length_le_of_mem_chainTokens {items : List (List Token × Expr)} :
    items.length ≤ (chainTokens link items).length ∧
      ∀ entry ∈ items, entry.1.length ≤ (chainTokens link items).length := by
  induction items with
  | nil => simp
  | cons entry items ih =>
      simp only [chainTokens, List.flatMap_cons, List.length_append, List.length_cons,
        List.forall_mem_cons] at ih ⊢
      refine ⟨by omega, by omega, fun other member => ?_⟩
      have := ih.2 other member
      omega

/-- An item of a chain is followed by a link or by what follows the chain. -/
theorem finishes_chain (link_finishes : ∀ lexemes, next? lexemes = some link → finishes lexemes)
    (finished : finishes rest) {items : List (List Token × Expr)} {front : List Lexeme}
    (spelled : front.map Lexeme.token = chainTokens link items) : finishes (front ++ rest) := by
  cases items with
  | nil =>
      rw [List.map_eq_nil_iff.mp spelled]
      exact finished
  | cons entry items =>
      rcases List.map_eq_cons_iff.mp spelled with ⟨lexeme, after, rfl, isLink, -⟩
      exact link_finishes _ (congrArg some isLink)

theorem Loops.takes (loops : Loops link join item loop)
    (link_finishes : ∀ lexemes, next? lexemes = some link → finishes lexemes)
    (finished : finishes rest) (other : next? rest ≠ some link)
    {items : List (List Token × Expr)}
    (itemTakes : ∀ entry ∈ items, ∀ rest, finishes rest → item.Takes entry.1 entry.2 rest)
    {bound : Nat} (enough : items.length ≤ bound) (left : Expr) :
    Reader.Takes (loop bound left) (chainTokens link items) (chainTree join left items) rest := by
  induction items generalizing bound left with
  | nil =>
      intro front spelled
      rw [List.map_eq_nil_iff.mp spelled]
      exact loops.stops bound left rest other
  | cons entry items ih =>
      intro front spelled
      rcases List.map_eq_cons_iff.mp spelled with ⟨lexeme, after, rfl, isLink, spelledAfter⟩
      rcases List.map_eq_append_iff.mp spelledAfter with ⟨first, others, rfl, ofItem, ofItems⟩
      cases bound with
      | zero => exact absurd enough (Nat.not_succ_le_zero _)
      | succ bound =>
          have read := itemTakes entry List.mem_cons_self (others ++ rest)
            (finishes_chain link_finishes finished ofItems) first ofItem
          rw [List.cons_append, List.append_assoc, loops.goes bound left lexeme _ isLink, read]
          exact ih (fun entry member => itemTakes entry (List.mem_cons_of_mem _ member))
            (Nat.le_of_succ_le_succ enough) (join left entry.2) others ofItems

theorem Loops.takes_chain (loops : Loops link join item loop)
    (link_finishes : ∀ lexemes, next? lexemes = some link → finishes lexemes)
    (finished : finishes rest) (other : next? rest ≠ some link)
    {items : List (List Token × Expr)} {first : Expr}
    (firstTakes : ∀ rest, finishes rest → item.Takes tokens first rest)
    (itemTakes : ∀ entry ∈ items, ∀ rest, finishes rest → item.Takes entry.1 entry.2 rest)
    {bound : Nat} (enough : items.length ≤ bound) :
    (chain item loop bound).Takes (tokens ++ chainTokens link items) (chainTree join first items)
      rest := by
  intro front spelled
  rcases List.map_eq_append_iff.mp spelled with ⟨head, tail, rfl, ofHead, ofTail⟩
  have read := firstTakes (tail ++ rest) (finishes_chain link_finishes finished ofTail) head ofHead
  rw [chain, List.append_assoc, read]
  exact loops.takes link_finishes finished other itemTakes enough first tail ofTail

/-- Neither an operand nor a comparison begins with a `not`. -/
theorem Derives.head?_ne_negation (derives : Derives phrase tokens expr)
    (isComparison : phrase = .comparison ∨ phrase = .operand) :
    ∃ first later, tokens = first :: later ∧ first ≠ .negation := by
  induction derives with
  | condition | conjunction | negated | plain => nomatch isComparison
  | compared comparison _ _ ih _ =>
      rcases ih (.inr rfl) with ⟨first, later, rfl, other⟩
      exact ⟨first, _, rfl, other⟩
  | single _ ih => exact ih (.inr rfl)
  | literal listed =>
      refine ⟨_, [], rfl, ?_⟩
      rintro rfl
      nomatch listed
  | name word => exact ⟨_, [], rfl, by simp⟩
  | parens _ _ => exact ⟨_, _, rfl, by simp⟩

theorem ends_conjunction_of_disjunction (next : next? lexemes = some .disjunction) :
    Ends .conjunction lexemes :=
  ⟨leadingComparison?_eq_none next fun _ => head?_tokens_ne (.inr (.inl rfl)), by simp [next]⟩

theorem ends_negation_of_conjunction (next : next? lexemes = some .conjunction) :
    Ends .negation lexemes :=
  leadingComparison?_eq_none next fun _ => head?_tokens_ne (.inl rfl)

theorem ends_condition_of_closeParen (next : next? lexemes = some .closeParen) :
    Ends .condition lexemes :=
  ⟨leadingComparison?_eq_none next fun _ => head?_tokens_ne (.inr (.inr rfl)), by simp [next],
    by simp [next]⟩

theorem takes_compared {left right : Expr} {leftTokens rightTokens : List Token}
    (comparison : Comparison)
    (leftTakes : ∀ rest, (Reader.operand inner).Takes leftTokens left rest)
    (rightTakes : ∀ rest, (Reader.operand inner).Takes rightTokens right rest) :
    (Reader.comparison inner).Takes (leftTokens ++ (comparison.tokens ++ rightTokens))
      (.compare left comparison right) rest := by
  intro front spelled
  rcases List.map_eq_append_iff.mp spelled with ⟨first, later, rfl, ofLeft, spelledLater⟩
  rcases List.map_eq_append_iff.mp spelledLater with ⟨sign, second, rfl, ofSign, ofRight⟩
  have leads := leadingComparison?_eq_some.mpr
    ⟨sign, (List.append_assoc sign second rest), ofSign⟩
  rw [Reader.comparison, List.append_assoc, leftTakes _ first ofLeft]
  change (leadingComparison? _ >>= _) = _
  rw [leads]
  change (Reader.operand inner _ >>= _) = _
  rw [rightTakes rest second ofRight]
  rfl

theorem takes_single (ends : Ends .comparison rest)
    (operandTakes : (Reader.operand inner).Takes tokens expr rest) :
    (Reader.comparison inner).Takes tokens expr rest := by
  intro front spelled
  rw [Reader.comparison, operandTakes front spelled]
  change (leadingComparison? rest >>= _) = _
  rw [ends]
  rfl

/-- A phrase is taken to its end wherever it cannot go on. -/
theorem Derives.takes (derives : Derives phrase tokens expr) :
    ∀ bound, tokens.length ≤ bound → ∀ rest, Ends phrase rest →
      (phrase.reader bound).Takes tokens expr rest := by
  induction derives with
  | @condition tokens first items _ _ headTakes tailTakes =>
      intro bound enough rest ends
      have lengths := @length_le_of_mem_chainTokens .disjunction items
      rw [List.length_append] at enough
      exact (loops_moreDisjuncts (Reader.condition bound) bound).takes_chain
        (fun _ => ends_conjunction_of_disjunction) ⟨ends.1, ends.2.1⟩ ends.2.2
        (headTakes bound (by omega))
        (fun entry member => tailTakes entry member bound (by
          have := lengths.2 entry member
          omega))
        (by omega)
  | @conjunction tokens first items _ _ headTakes tailTakes =>
      intro bound enough rest ends
      have lengths := @length_le_of_mem_chainTokens .conjunction items
      rw [List.length_append] at enough
      exact (loops_moreConjuncts (Reader.condition bound)).takes_chain
        (fun _ => ends_negation_of_conjunction) ends.1 ends.2
        (headTakes bound (by omega))
        (fun entry member => tailTakes entry member bound (by
          have := lengths.2 entry member
          omega))
        (by omega)
  | negated _ operandTakes =>
      intro bound enough rest ends front spelled
      rcases List.map_eq_cons_iff.mp spelled with ⟨lexeme, after, rfl, negates, spelledAfter⟩
      have read := operandTakes bound (Nat.le_of_succ_le enough) rest ends after spelledAfter
      change Reader.negation _ (lexeme :: (after ++ rest)) = _
      rw [negation_negated negates, show Reader.negation _ (after ++ rest) = _ from read]
      rfl
  | plain comparison comparisonTakes =>
      intro bound enough rest ends front spelled
      rcases comparison.head?_ne_negation (.inl rfl) with ⟨first, later, rfl, other⟩
      rcases List.map_eq_cons_iff.mp spelled with ⟨lexeme, after, rfl, isFirst, -⟩
      have plain : next? (lexeme :: after ++ rest) ≠ some .negation := by
        simpa [next?, isFirst] using other
      exact (negation_plain plain).trans (comparisonTakes bound enough rest ends _ spelled)
  | compared comparison _ _ leftTakes rightTakes =>
      intro bound enough rest _
      simp only [List.length_append] at enough
      exact takes_compared comparison (fun _ => leftTakes bound (by omega) _ trivial)
        (fun _ => rightTakes bound (by omega) _ trivial)
  | single _ operandTakes =>
      intro bound enough rest ends
      exact takes_single ends (operandTakes bound enough rest trivial)
  | literal listed =>
      intro bound _ rest _ front spelled
      rcases List.map_eq_singleton_iff.mp spelled with ⟨lexeme, rfl, rfl⟩
      exact operand_eq_ok.mpr ⟨lexeme, rest, rfl, .inl ⟨_, listed, rfl, rfl⟩⟩
  | name word =>
      intro bound _ rest _ front spelled
      rcases List.map_eq_singleton_iff.mp spelled with ⟨lexeme, rfl, isName⟩
      exact operand_eq_ok.mpr ⟨lexeme, rest, rfl, .inr (.inl ⟨word, isName, rfl, rfl⟩)⟩
  | @parens tokens expr _ innerTakes =>
      intro bound enough rest _ front spelled
      rcases List.map_eq_cons_iff.mp spelled with ⟨opening, after, rfl, opens, spelledAfter⟩
      rcases List.map_eq_append_iff.mp spelledAfter with ⟨inside, last, rfl, ofInside, ofLast⟩
      rcases List.map_eq_singleton_iff.mp ofLast with ⟨closing, rfl, closes⟩
      cases bound with
      | zero => exact absurd enough (Nat.not_succ_le_zero _)
      | succ bound =>
          have fitsInside : tokens.length ≤ bound := by
            simp only [List.length_cons, List.length_append] at enough
            omega
          have read := innerTakes bound fitsInside (closing :: rest)
            (ends_condition_of_closeParen (congrArg some closes)) inside ofInside
          apply operand_eq_ok.mpr
          refine ⟨opening, inside ++ [closing] ++ rest, rfl,
            .inr (.inr ⟨opens, closing, closes, ?_⟩)⟩
          rw [List.append_assoc]
          exact read

/-! ## The readers decide the grammar -/

/-- A list of lexemes has a tree exactly if its tokens are a condition with this tree. -/
theorem ofLexemes_eq_ok_iff {tree : Expr} :
    Expr.ofLexemes lexemes = .ok tree ↔
      Derives .condition (lexemes.map Lexeme.token) tree := by
  constructor
  · intro accepted
    rcases bind_eq_ok.mp accepted with ⟨⟨expr, rest⟩, read, finished⟩
    rcases sound_condition _ _ _ _ read with ⟨front, rfl, derives⟩
    cases rest with
    | nil =>
        rw [← Except.ok.inj finished, List.append_nil]
        exact derives
    | cons lexeme after => nomatch finished
  · intro derives
    have enough : (lexemes.map Lexeme.token).length ≤ lexemes.length :=
      Nat.le_of_eq (List.length_map _)
    have read := derives.takes lexemes.length enough [] ⟨rfl, by simp [next?], by simp [next?]⟩
      lexemes rfl
    rw [List.append_nil] at read
    rw [Expr.ofLexemes, show Reader.condition (lexemes.length + 1) lexemes = _ from read]
    rfl

/-- The grammar gives a list of tokens at most one tree. -/
theorem Derives.tree_unique {first second : Expr} (firstDerives : Derives .condition tokens first)
    (secondDerives : Derives .condition tokens second) : first = second := by
  have spelled : (tokens.map fun token => Lexeme.mk token [] 0).map Lexeme.token = tokens := by
    simp [Function.comp_def]
  have firstRead := ofLexemes_eq_ok_iff.mpr (spelled.symm ▸ firstDerives)
  have secondRead := ofLexemes_eq_ok_iff.mpr (spelled.symm ▸ secondDerives)
  exact Except.ok.inj (firstRead.symm.trans secondRead)

/-- Reading finds the tree that the grammar gives to the tokens, whenever there is one, and there
are no two of them. -/
theorem ofLexemes_decides_grammar :
    (∀ lexemes tree, Expr.ofLexemes lexemes = .ok tree ↔
      Derives .condition (lexemes.map Lexeme.token) tree) ∧
    (∀ tokens first second, Derives .condition tokens first → Derives .condition tokens second →
      first = second) :=
  ⟨fun _ _ => ofLexemes_eq_ok_iff, fun _ _ _ => Derives.tree_unique⟩

/-- The tokens of `a or (b) or not c not in "d"`. -/
def chainedTokens : List Token :=
  [.name "a", .disjunction, .openParen, .name "b", .closeParen, .disjunction, .negation,
    .name "c", .negation, .containment, .str "d"]

/-- The last item of the chain. -/
def lastItem : Expr := .not (.compare (.field "c") (.containment true) (.literal (.str "d")))

theorem derives_chainedTokens :
    Derives .condition chainedTokens (.or (.or (.field "a") (.field "b")) lastItem) ∧
      ¬ Derives .condition chainedTokens (.or (.field "a") (.or (.field "b") lastItem)) := by
  have read : Expr.ofLexemes (chainedTokens.map fun token => ⟨token, [], 0⟩) =
      .ok (.or (.or (.field "a") (.field "b")) lastItem) := by rfl
  have derives := (ofLexemes_decides_grammar.1 _ _).mp read
  refine ⟨derives, fun grouped => ?_⟩
  nomatch ofLexemes_decides_grammar.2 _ _ _ derives grouped

end TypedRelations.Condition
