import TypedRelations.Proofs.Insertion.Filling

/-!
# Insertion from a flat list

The pairs of a row can also be given as a flat list in which names and values take turns. Such a
list is inserted as the pairs that it spells, and any other list is refused before the relation
looks at it. Together with what insertion does with pairs, these are the laws of insertion.
-/

namespace TypedRelations.Relation

variable {relation : Relation} {arguments : List Value} {fault : ArityFault}

/-- The arguments that spell pairs: names and values take turns. -/
def argumentsOf (entries : List (String × Value)) : List Value :=
  entries.flatMap fun entry => [.str entry.1, entry.2]

/-- There are as many names as values, and every other argument is a name. -/
structure Alternates (arguments : List Value) : Prop where
  even : arguments.length % 2 = 0
  names : ∀ position value, position % 2 = 0 → arguments[position]? = some value →
    ∃ name, value = .str name

/-- Why arguments do not spell pairs. The faults do not depend on any relation. -/
inductive Malformed : List Value → ArityFault → Prop where
  | oddCount {arguments : List Value} (odd : arguments.length % 2 = 1) :
      Malformed arguments (.oddCount arguments.length)
  | notAName {before : List (String × Value)} {found : Value} {rest : List Value}
      (even : (argumentsOf before ++ found :: rest).length % 2 = 0)
      (misplaced : ∀ name, found ≠ .str name) :
      Malformed (argumentsOf before ++ found :: rest) (.notAName (2 * before.length) found)

@[simp] theorem argumentsOf_cons (entry : String × Value) (entries : List (String × Value)) :
    argumentsOf (entry :: entries) = .str entry.1 :: entry.2 :: argumentsOf entries :=
  List.flatMap_cons

@[simp] theorem length_argumentsOf (entries : List (String × Value)) :
    (argumentsOf entries).length = 2 * entries.length := by
  induction entries with
  | nil => rfl
  | cons entry rest ih =>
      rw [argumentsOf_cons, List.length_cons, List.length_cons, ih, List.length_cons]
      omega

/-- Arguments are read pair by pair until one of them is not a name in the place of a name. -/
theorem spells_or_malformed (arguments : List Value) :
    (∃ entries, arguments = argumentsOf entries) ∨ ∃ fault, Malformed arguments fault := by
  induction arguments using List.twoStepInduction with
  | nil => exact .inl ⟨[], rfl⟩
  | singleton last => exact .inr ⟨_, .oddCount rfl⟩
  | cons_cons first second rest ih _ =>
      obtain even | odd := Nat.mod_two_eq_zero_or_one (first :: second :: rest).length
      case inr => exact .inr ⟨_, .oddCount odd⟩
      by_cases named : ∃ name, first = .str name
      case neg =>
        exact .inr ⟨_, @Malformed.notAName [] first (second :: rest) even fun name same =>
          named ⟨name, same⟩⟩
      obtain ⟨name, rfl⟩ := named
      obtain ⟨entries, rfl⟩ | ⟨fault, malformed⟩ := ih
      · exact .inl ⟨(name, second) :: entries, rfl⟩
      · cases malformed with
        | oddCount odd =>
            rw [List.length_cons, List.length_cons] at even
            omega
        | @notAName before found rest evenRest misplaced =>
            exact .inr ⟨_, @Malformed.notAName ((name, second) :: before) found rest even misplaced⟩

theorem alternates_argumentsOf (entries : List (String × Value)) :
    Alternates (argumentsOf entries) where
  even := by rw [length_argumentsOf, Nat.mul_mod_right]
  names position value even listed := by
    induction entries generalizing position with
    | nil => nomatch listed
    | cons entry rest ih =>
        match position, even, listed with
        | 0, _, listed => exact ⟨entry.1, (Option.some.inj listed).symm⟩
        | position + 2, even, listed => exact ih position (by omega) listed

theorem Malformed.not_alternates (malformed : Malformed arguments fault) :
    ¬ Alternates arguments := by
  rintro ⟨even, names⟩
  cases malformed with
  | oddCount odd => omega
  | @notAName before found rest evenAgain misplaced =>
      have listed : (argumentsOf before ++ found :: rest)[2 * before.length]? = some found := by
        rw [List.getElem?_append_right (by simp), length_argumentsOf, Nat.sub_self]
        rfl
      obtain ⟨name, same⟩ := names _ _ (Nat.mul_mod_right 2 _) listed
      exact misplaced name same

theorem alternates_iff : Alternates arguments ↔ ∃ entries, arguments = argumentsOf entries := by
  constructor
  · intro alternates
    obtain spelled | ⟨fault, malformed⟩ := spells_or_malformed arguments
    · exact spelled
    · exact absurd alternates malformed.not_alternates
  · rintro ⟨entries, rfl⟩
    exact alternates_argumentsOf entries

/-- Reading passes over the pairs that are spelled. -/
theorem entriesFrom_append (position : Nat) (entries : List (String × Value))
    (rest : List Value) :
    entriesFrom position (argumentsOf entries ++ rest) =
      (entriesFrom (position + 2 * entries.length) rest).map (entries ++ ·) := by
  induction entries generalizing position with
  | nil =>
      change entriesFrom position rest = (entriesFrom position rest).map id
      cases entriesFrom position rest with
      | error fault => rfl
      | ok others => rfl
  | cons entry before ih =>
      have length : position + 2 * (entry :: before).length =
          position + 2 + 2 * before.length := by
        rw [List.length_cons]
        omega
      rw [argumentsOf_cons, List.cons_append, List.cons_append, entriesFrom, ih, length]
      cases entriesFrom (position + 2 + 2 * before.length) rest with
      | error fault => rfl
      | ok others => rfl

theorem insertFlat_argumentsOf (relation : Relation) (entries : List (String × Value)) :
    relation.insertFlat (argumentsOf entries) = relation.insert entries := by
  have read := entriesFrom_append 0 entries []
  rw [List.append_nil] at read
  have even := (alternates_argumentsOf entries).even
  rw [insertFlat, entriesOfFlat, if_neg (by omega), read]
  simp [entriesFrom, Except.map]

theorem insertFlat_of_malformed (relation : Relation) (malformed : Malformed arguments fault) :
    relation.insertFlat arguments = .error (.arity relation.name fault) := by
  have refused : entriesOfFlat arguments = .error fault := by
    rw [entriesOfFlat]
    cases malformed with
    | oddCount odd => rw [if_pos odd]
    | @notAName before found rest even misplaced =>
        have stopped : entriesFrom (0 + 2 * before.length) (found :: rest) =
            .error (.notAName (0 + 2 * before.length) found) := by
          cases found with
          | str name => exact absurd rfl (misplaced name)
          | _ => rfl
        rw [if_neg (by omega), entriesFrom_append, stopped, Nat.zero_add]
        rfl
  rw [insertFlat, refused]

/-- A call that inserts a row. -/
inductive Insertion where
  | named (entries : List (String × Value))
  | flat (arguments : List Value)

/-- The relation that the call makes. -/
def Insertion.apply (relation : Relation) : Insertion → Except Error Relation
  | .named entries => relation.insert entries
  | .flat arguments => relation.insertFlat arguments

/-- The relation that its owner has after the call. A call that fails has made no other. -/
def after (relation : Relation) (call : Insertion) : Relation :=
  (call.apply relation).toOption.getD relation

/-- What it means to insert a row into a relation. -/
structure InsertionLaws (relation : Relation) : Prop where
  row : ∀ entries, relation.schema.Takes entries → ∃! tuple, relation.IsRowOf entries tuple
  stores : ∀ entries result, relation.insert entries = .ok result ↔
    ∃ tuple, relation.Inserts entries tuple ∧
      result = { relation with tuples := relation.tuples ++ [tuple] }
  refuses : ∀ entries error, relation.insert entries = .error error ↔
    relation.Rejects entries error
  permuted : ∀ entries others, entries.Perm others →
    (∃ result, relation.insert entries = .ok result ∧ relation.insert others = .ok result) ∨
    ∃ error other, relation.insert entries = .error error ∧ relation.insert others = .error other
  spelled : ∀ arguments, Alternates arguments ↔ ∃ entries, arguments = argumentsOf entries
  flat : ∀ entries, relation.insertFlat (argumentsOf entries) = relation.insert entries
  malformed : ∀ arguments, ¬ Alternates arguments → ∃ fault, Malformed arguments fault ∧
    relation.insertFlat arguments = .error (.arity relation.name fault)
  replaced : ∀ call result, call.apply relation = .ok result → relation.after call = result
  unchanged : ∀ call error, call.apply relation = .error error → relation.after call = relation

/-- Insertion stores the one row that its pairs describe, or fails with the error that comes first
and stores nothing. Either way, what the owner has afterwards is known from the outcome. -/
theorem Reachable.insertionLaws (reachable : relation.Reachable) : relation.InsertionLaws := by
  have distinct := reachable.wellFormed.names_nodup
  constructor
  case row =>
    intro entries takes
    exact ⟨_, isRowOf_tupleOf distinct takes, fun other row =>
      row.unique distinct (isRowOf_tupleOf distinct takes)⟩
  case stores => exact fun entries result => insert_eq_ok_iff distinct
  case refuses => exact fun entries error => insert_eq_error_iff distinct
  case permuted =>
    intro entries others permuted
    cases inserted : relation.insert entries with
    | ok result => exact .inl ⟨result, rfl, (insert_perm distinct permuted).mp inserted⟩
    | error error =>
        cases alsoInserted : relation.insert others with
        | error other => exact .inr ⟨error, other, rfl, rfl⟩
        | ok result =>
            rw [(insert_perm distinct permuted).mpr alsoInserted] at inserted
            nomatch inserted
  case spelled => exact fun arguments => alternates_iff
  case flat => exact insertFlat_argumentsOf relation
  case malformed =>
    intro arguments unpaired
    obtain spelled | ⟨fault, malformed⟩ := spells_or_malformed arguments
    · exact absurd (alternates_iff.mpr spelled) unpaired
    · exact ⟨fault, malformed, insertFlat_of_malformed relation malformed⟩
  case replaced =>
    intro call result made
    rw [after, made]
    rfl
  case unchanged =>
    intro call error failed
    rw [after, failed]
    rfl

/-- Ada has a room of her own. -/
def lodgers : Relation :=
  ⟨"lodgers", [.any "name", ⟨"room", Domain.empty.withTypes [.int]⟩], [[.str "Ada", .int 1]]⟩

theorem reachable_lodgers : lodgers.Reachable :=
  reachable_of_rows (by decide) (by decide) (by decide)

/-- Ben gets the room that is given before his name. Three pairs are too many whatever they are, and
of two the misspelled wing is refused before the room of the wrong type. -/
theorem insertionLaws_lodgers :
    lodgers.insertFlat [.str "room", .int 2, .str "name", .str "Ben"] =
        .ok { lodgers with tuples := [[.str "Ada", .int 1], [.str "Ben", .int 2]] } ∧
      lodgers.after (.flat [.str "room", .int 2, .str "name", .str "Ben"]) =
        { lodgers with tuples := [[.str "Ada", .int 1], [.str "Ben", .int 2]] } ∧
      lodgers.insert [("name", .str "Ben"), ("wign", .str "east"), ("room", .str "2")] =
        .error (.arity "lodgers" (.tooMany 2 3)) ∧
      lodgers.insert [("wign", .str "east"), ("room", .str "2")] =
        .error (.unknownField "wign" "lodgers") ∧
      lodgers.after (.named [("wign", .str "east"), ("room", .str "2")]) = lodgers := by
  have laws := reachable_lodgers.insertionLaws
  have unknown : lodgers.insert [("wign", .str "east"), ("room", .str "2")] =
      .error (.unknownField "wign" "lodgers") := by
    refine (laws.refuses _ _).mpr (.offending (by decide) ?_)
    exact @Offends.at_first lodgers [] [("room", .str "2")] _ _ (Schema.takes_nil _)
      (.unknown (by decide))
  have takes : lodgers.schema.Takes [("room", .int 2), ("name", .str "Ben")] :=
    ⟨by decide, by decide, by decide⟩
  have inserts : lodgers.Inserts [("room", .int 2), ("name", .str "Ben")] _ :=
    ⟨by decide, takes, isRowOf_tupleOf (by decide) takes, by decide⟩
  have stored := (laws.flat [("room", .int 2), ("name", .str "Ben")]).trans
    ((laws.stores _ _).mpr ⟨_, inserts, rfl⟩)
  exact ⟨stored, laws.replaced _ _ stored, (laws.refuses _ _).mpr (.tooMany (by decide)), unknown,
    laws.unchanged _ _ unknown⟩

end TypedRelations.Relation
