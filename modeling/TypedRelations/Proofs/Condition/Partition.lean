import TypedRelations.Proofs.Condition.LongestMatch

/-!
# Lexemes partition their text

The scanner partitions a text into lexemes and skipped characters, in which every lexeme is the
longest match at its place. If it fails, it has partitioned the text up to the reported position and
has come to a character there with which no token begins. Positions count bytes in UTF-8.
-/

namespace TypedRelations.Condition

/-- The characters that may stand between tokens. -/
def skipped : List Char := [' ', '\t', '\r', '\n', '\x0c']

namespace Lexeme

/-- Where the text of the lexeme ends. -/
def stop (lexeme : Lexeme) : Nat := lexeme.start + byteLength lexeme.text

/-- The source has the text of the lexeme at its start, as the longest match there, and the text is
written for the token. -/
structure StandsIn (source : List Char) (lexeme : Lexeme) : Prop where
  nonempty : lexeme.text ≠ []
  reads : Reads lexeme.text lexeme.token
  located : ∃ before after, source = before ++ (lexeme.text ++ after) ∧
    byteLength before = lexeme.start ∧ Longest (lexeme.text ++ after) lexeme.text

/-- The lexemes follow each other between two positions of the source, and each character between
these positions that is in no lexeme is skipped. -/
structure Partitions (source : List Char) (start stop : Nat) (lexemes : List Lexeme) : Prop where
  bounds : start ≤ stop
  stand : ∀ lexeme ∈ lexemes, lexeme.StandsIn source
  inside : ∀ lexeme ∈ lexemes, start ≤ lexeme.start ∧ lexeme.stop ≤ stop
  ordered : lexemes.Pairwise fun earlier later => earlier.stop ≤ later.start
  skips : ∀ before character after, source = before ++ character :: after →
    start ≤ byteLength before → byteLength before < stop →
    (∀ lexeme ∈ lexemes, byteLength before < lexeme.start ∨ lexeme.stop ≤ byteLength before) →
    character ∈ skipped

/-- A character that is not skipped stands at the position, and no token begins with it. -/
def StuckAt (source : List Char) (position : Nat) : Prop :=
  ∃ before first rest, source = before ++ first :: rest ∧ byteLength before = position ∧
    first ∉ skipped ∧ Stuck (first :: rest)

/-- Lexemes partition the source from a position on, and a fault reports the position up to which
other lexemes do. -/
def IsPartition (source : List Char) (start : Nat) : Except Fault (List Lexeme) → Prop
  | .ok lexemes => Partitions source start (byteLength source) lexemes
  | .error fault => ∃ text position lexemes, fault = .unexpectedText text position ∧
      Partitions source start position lexemes ∧ StuckAt source position

@[simp] theorem byteLength_append (first second : List Char) :
    byteLength (first ++ second) = byteLength first + byteLength second := by
  induction first with
  | nil => rw [List.nil_append, byteLength, Nat.zero_add]
  | cons character rest ih => rw [List.cons_append, byteLength, byteLength, ih, Nat.add_assoc]

variable {source before rest : List Char} {character : Char} {lexeme : Lexeme}
  {lexemes : List Lexeme} {start stop : Nat}

/-- A character that does not come before a given one is this one or comes behind it. -/
theorem eq_or_behind {otherBefore after : List Char} {other : Char}
    (same : before ++ character :: rest = otherBefore ++ other :: after)
    (notBefore : byteLength before ≤ byteLength otherBefore) :
    other = character ∨ byteLength before + character.utf8Size ≤ byteLength otherBefore := by
  rcases List.append_eq_append_iff.mp same with ⟨between, rfl, later⟩ | ⟨between, rfl, later⟩
  · cases between with
    | nil => exact .inl (List.cons.inj later).1.symm
    | cons first between =>
        right
        rw [byteLength_append, byteLength, (List.cons.inj later).1]
        omega
  · cases between with
    | nil => exact .inl (List.cons.inj later).1
    | cons first between =>
        rw [byteLength_append, byteLength] at notBefore
        have positive := first.utf8Size_pos
        omega

theorem partitions_nil (source : List Char) (position : Nat) :
    Partitions source position position [] where
  bounds := Nat.le_refl _
  stand := nofun
  inside := nofun
  ordered := .nil
  skips _ _ _ _ notBefore before := absurd before (Nat.not_lt.mpr notBefore)

/-- A skipped character extends a partition to the front. -/
theorem Partitions.skip (isSkipped : character ∈ skipped)
    (whole : source = before ++ character :: rest)
    (later : Partitions source (byteLength before + character.utf8Size) stop lexemes) :
    Partitions source (byteLength before) stop lexemes where
  bounds := (Nat.le_add_right _ _).trans later.bounds
  stand := later.stand
  inside other member :=
    ⟨(Nat.le_add_right _ _).trans (later.inside other member).1, (later.inside other member).2⟩
  ordered := later.ordered
  skips otherBefore other after otherWhole notBefore inBounds uncovered := by
    rcases eq_or_behind (whole.symm.trans otherWhole) notBefore with rfl | behind
    · exact isSkipped
    · exact later.skips otherBefore other after otherWhole behind inBounds uncovered

/-- A lexeme extends a partition that begins at its end. -/
theorem Partitions.cons (stands : lexeme.StandsIn source)
    (later : Partitions source lexeme.stop stop lexemes) :
    Partitions source lexeme.start stop (lexeme :: lexemes) where
  bounds := (Nat.le_add_right _ _).trans later.bounds
  stand := List.forall_mem_cons.mpr ⟨stands, later.stand⟩
  inside := List.forall_mem_cons.mpr ⟨⟨Nat.le_refl _, later.bounds⟩, fun other member =>
    ⟨(Nat.le_add_right _ _).trans (later.inside other member).1, (later.inside other member).2⟩⟩
  ordered := .cons (fun other member => (later.inside other member).1) later.ordered
  skips before character after whole notBefore inBounds uncovered := by
    rw [List.forall_mem_cons] at uncovered
    have behind : lexeme.stop ≤ byteLength before :=
      uncovered.1.resolve_left (Nat.not_lt.mpr notBefore)
    exact later.skips before character after whole behind inBounds uncovered.2

theorem IsPartition.skip {outcome : Except Fault (List Lexeme)} (isSkipped : character ∈ skipped)
    (whole : source = before ++ character :: rest)
    (later : IsPartition source (byteLength before + character.utf8Size) outcome) :
    IsPartition source (byteLength before) outcome := by
  cases outcome with
  | ok lexemes => exact Partitions.skip isSkipped whole later
  | error fault =>
      obtain ⟨text, position, lexemes, same, partitions, stuck⟩ := later
      exact ⟨text, position, lexemes, same, partitions.skip isSkipped whole, stuck⟩

theorem IsPartition.cons {outcome : Except Fault (List Lexeme)} (stands : lexeme.StandsIn source)
    (later : IsPartition source lexeme.stop outcome) :
    IsPartition source lexeme.start (outcome.map (lexeme :: ·)) := by
  cases outcome with
  | ok lexemes => exact Partitions.cons stands later
  | error fault =>
      obtain ⟨text, position, lexemes, same, partitions, stuck⟩ := later
      exact ⟨text, position, lexeme :: lexemes, same, partitions.cons stands, stuck⟩

theorem mem_skipped_iff : character ∈ skipped ↔ isBlank character = true := by
  simp only [skipped, isBlank, List.mem_cons, List.not_mem_nil, or_false, Bool.or_eq_true,
    beq_iff_eq]
  tauto

/-- A longest match in front of a partition of what is behind it. -/
theorem cons_of_takesLongest {first : Char} {token : Token} {text : List Char}
    (whole : source = before ++ first :: rest)
    (taken : TakesLongest (first :: rest) (.ok (token, text)))
    (later : ∀ count, IsPartition source
      (byteLength before + first.utf8Size + byteLength (rest.take count))
      (scanFrom count (byteLength before + first.utf8Size) rest)) :
    IsPartition source (byteLength before)
      ((scanFrom (text.length - 1) (byteLength before + first.utf8Size) rest).map
        (⟨token, text, byteLength before⟩ :: ·)) := by
  obtain ⟨reads, longest⟩ := taken
  obtain ⟨kind, head, -⟩ := reads.matches.accepts
  cases text with
  | nil => cases head
  | cons character tail =>
      obtain ⟨rfl, after, rfl⟩ := List.cons_prefix_cons.mp longest.begins
      have stands : StandsIn source ⟨token, character :: tail, byteLength before⟩ :=
        ⟨List.cons_ne_nil _ _, reads, before, after, whole, rfl, longest⟩
      apply IsPartition.cons stands
      have behind := later tail.length
      rw [List.take_left, Nat.add_assoc] at behind
      exact behind

/-- The scanner partitions the rest of a text that it has come to. The induction is on this rest;
characters of the lexeme that was taken last are covered already. -/
theorem scanFrom_isPartition (source : List Char) (input before : List Char) (covered : Nat)
    (whole : source = before ++ input) :
    IsPartition source (byteLength before + byteLength (input.take covered))
      (scanFrom covered (byteLength before) input) := by
  induction input generalizing before covered with
  | nil =>
      rw [List.take_nil, scanFrom, whole, List.append_nil]
      exact partitions_nil before (byteLength before)
  | cons first rest ih =>
      have next : byteLength (before ++ [first]) = byteLength before + first.utf8Size :=
        byteLength_append before [first]
      have later := fun count => ih (before ++ [first]) count (by simp [whole])
      simp only [next] at later
      cases covered with
      | succ covered =>
          rw [scanFrom, if_pos (Nat.succ_ne_zero covered), Nat.add_sub_cancel, List.take_succ_cons,
            byteLength, ← Nat.add_assoc]
          exact later covered
      | zero =>
          rw [scanFrom, if_neg (fun covers => covers rfl)]
          cases blank : isBlank first with
          | true => exact (later 0).skip (mem_skipped_iff.mpr blank) whole
          | false =>
              have taken := takesLongest_scan first rest
              cases scanned : Token.scan first rest with
              | ok lexed =>
                  obtain ⟨token, text⟩ := lexed
                  rw [scanned] at taken
                  exact cons_of_takesLongest whole taken later
              | error text =>
                  rw [scanned] at taken
                  have notSkipped : first ∉ skipped := by
                    rw [mem_skipped_iff, blank]
                    exact Bool.false_ne_true
                  exact ⟨_, _, [], rfl, partitions_nil _ _, before, first, rest, whole, rfl,
                    notSkipped, taken⟩

/-- The lexemes of a text partition it into longest matches and skipped characters. If there is a
fault, they do so up to the reported position, and no token begins there. -/
theorem ofText_isPartition (source : String) :
    IsPartition source.toList 0 (ofText source) :=
  scanFrom_isPartition source.toList source.toList [] 0 rfl

/-- The exponent is given up for lack of digits: the number and the name `e` come before the
fault. -/
example : ofText "1.5e+" = .error (.unexpectedText "+" 4) := by rfl

/-- The text of a lexeme is written for its token. -/
theorem reads_of_ofText {source : String} (scanned : ofText source = .ok lexemes) :
    ∀ lexeme ∈ lexemes, Reads lexeme.text lexeme.token := by
  have partition := scanFrom_isPartition source.toList source.toList [] 0 rfl
  change IsPartition source.toList 0 (ofText source) at partition
  rw [scanned] at partition
  exact fun lexeme member => (partition.stand lexeme member).reads

end Lexeme

end TypedRelations.Condition
