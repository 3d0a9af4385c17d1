import TypedRelations.Proofs.Condition.Conjunction
import TypedRelations.Proofs.Condition.Progress
import TypedRelations.Proofs.Insertion.Filling

/-!
# Laws of selection

A selection asks each row for the fields that its condition refers to and leaves the columns alone,
so it can change places with a projection that keeps these fields (`select_project_comm`). Two
selections one after the other are one selection on the conjunction of their conditions
(`select_conjoined`): both fail in the same cases, although maybe for different reasons, as neither
looks at the second condition on a row for which the first one is false. A safe condition on known
fields makes no selection fail (`select_succeeds`).
-/

namespace TypedRelations.Relation

variable {relation : Relation} {tuples : List Tuple}

/-- Tests with the same outcomes keep the same rows, and fail with the same error. -/
theorem keepWhere_map {test otherTest : Tuple → Except Error Bool} {image : Tuple → Tuple}
    (same : ∀ tuple ∈ tuples, otherTest (image tuple) = test tuple) :
    keepWhere otherTest (tuples.map image) = (keepWhere test tuples).map (List.map image) := by
  induction tuples with
  | nil => rfl
  | cons tuple rest ih =>
      rw [List.forall_mem_cons] at same
      rw [List.map_cons, keepWhere, keepWhere, same.1, ih same.2]
      cases test tuple with
      | error error => rfl
      | ok passes =>
          cases keepWhere test rest with
          | error error => rfl
          | ok kept =>
              cases passes with
              | false => rfl
              | true => rfl

/-- Every field of the relation that the predicate refers to is among the names. -/
def KeepsFieldsOf (relation : Relation) (names : List String) (predicate : String) : Prop :=
  ∀ condition, Condition.parse predicate = .ok condition →
    ∀ name ∈ condition.expr.fieldNames, name ∈ relation.schema.names →
      name ∈ names ∨ everyField ∈ names

/-- A projected row and the whole one have the same values under the fields that are kept, and both
have none under names that are not fields of the relation. -/
theorem get?_pick_of_kept {names : List String} {name : String} {tuple : Tuple}
    (distinct : relation.schema.names.Nodup) (width : tuple.length = relation.schema.length)
    (kept : name ∈ relation.schema.names → name ∈ names ∨ everyField ∈ names) :
    ((relation.pick (relation.positionsOf names)).row
        (tuple.pick (relation.positionsOf names))).get? name =
      (relation.row tuple).get? name := by
  have member : name ∈ (relation.pick (relation.positionsOf names)).schema.names ↔
      name ∈ relation.schema.names := by
    rw [names_pick_positionsOf, List.mem_filter]
    constructor
    · exact fun listed => listed.1
    · intro listed
      have chosen := kept listed
      exact ⟨listed, by simpa [or_comm] using chosen⟩
  by_cases listed : name ∈ relation.schema.names
  · exact get?_pick_positionsOf distinct names width (member.mpr listed)
  · rw [get?_eq_none listed, get?_eq_none (mt member.mp listed)]

/-- A selection by a condition that can be read keeps rows, or fails where the condition does. -/
theorem select_of_parse {predicate : String} {condition : Condition}
    (parsed : Condition.parse predicate = .ok condition) :
    relation.select predicate =
      (keepWhere (fun tuple => condition.evaluate (relation.row tuple).scope) relation.tuples).map
        fun tuples => { relation with
          name := relation.name ++ " where: " ++ predicate, tuples := tuples } := by
  rw [select, parsed]
  change (keepWhere _ _ >>= _) = _
  cases keepWhere (fun tuple => condition.evaluate (relation.row tuple).scope)
      relation.tuples with
  | error error => rfl
  | ok tuples => rfl

theorem select_pick (shape : relation.WellFormed) {names : List String} {predicate : String}
    (kept : relation.KeepsFieldsOf names predicate) :
    (relation.pick (relation.positionsOf names)).select predicate =
      (relation.select predicate).map (Relation.pick · (relation.positionsOf names)) := by
  cases parsed : Condition.parse predicate with
  | error error =>
      rw [select, select, parsed]
      rfl
  | ok condition =>
      have sameTest : ∀ tuple ∈ relation.tuples,
          condition.evaluate ((relation.pick (relation.positionsOf names)).row
            (tuple.pick (relation.positionsOf names))).scope =
          condition.evaluate (relation.row tuple).scope := by
        intro tuple member
        refine Condition.evaluate_congr (by rfl) ?_
        intro name refers
        exact get?_pick_of_kept shape.names_nodup (shape.length_eq member)
          (kept condition parsed name refers)
      have tuples : (relation.pick (relation.positionsOf names)).tuples =
          relation.tuples.map (Tuple.pick (relation.positionsOf names)) := rfl
      rw [select_of_parse parsed, select_of_parse parsed, tuples, keepWhere_map sameTest]
      cases keepWhere (fun tuple => condition.evaluate (relation.row tuple).scope)
          relation.tuples with
      | error error => rfl
      | ok tuples => rfl

/-- A selection and a projection can change places, if the projection keeps the fields that the
selection refers to. They make the same relation or fail with the same error. -/
theorem select_project_comm (reachable : relation.Reachable) {names : List String}
    {predicate : String}
    (known : ∀ name ∈ names, name = everyField ∨ name ∈ relation.schema.names)
    (kept : relation.KeepsFieldsOf names predicate) :
    (relation.select predicate >>= fun selected => selected.project names) =
      relation.project names >>= fun projected => projected.select predicate := by
  have projected : relation.project names = .ok (relation.pick (relation.positionsOf names)) :=
    project_eq_ok_iff.mpr ⟨known, rfl⟩
  have changed : (relation.project names >>= fun projected => projected.select predicate) =
      (relation.select predicate).map (Relation.pick · (relation.positionsOf names)) := by
    rw [projected]
    exact select_pick reachable.wellFormed kept
  rw [changed]
  cases made : relation.select predicate with
  | error error => rfl
  | ok selected =>
      obtain ⟨condition, tuples, -, -, rfl⟩ := select_eq_ok.mp made
      exact project_eq_ok_iff.mpr ⟨known, rfl⟩

/-- Badges with tags, one of which is a closing parenthesis and one not even a text. -/
def badges : Relation :=
  ⟨"badges", [.any "valid", .any "tag"], [[.bool true, .str ")"], [.bool false, .int 3]]⟩

theorem reachable_badges : badges.Reachable :=
  reachable_of_rows (by decide) (by decide) (by decide)

theorem parse_valid : Condition.parse "valid" = .ok ⟨"valid", .field "valid"⟩ := by rfl

theorem parse_tag : Condition.parse "tag" = .ok ⟨"tag", .field "tag"⟩ := by rfl

/-- A field that is the whole condition is kept where it is projected to. -/
theorem keepsFieldsOf_field {relation : Relation} {name : String}
    (parsed : Condition.parse name = .ok ⟨name, .field name⟩) :
    relation.KeepsFieldsOf [name] name := by
  intro condition alsoParsed other refers _
  rw [parsed] at alsoParsed
  rw [← Except.ok.inj alsoParsed] at refers
  exact .inl refers

/-- The badges that are valid can be selected before the other columns are left out, or after it,
and both ways fail if a tag is taken for a truth value. -/
theorem select_project_badges :
    (badges.project ["valid"] >>= fun projected => projected.select "valid") =
        .ok ⟨"badges where: valid", [.any "valid"], [[.bool true]]⟩ ∧
      (badges.project ["tag"] >>= fun projected => projected.select "tag") =
        .error (.condition "tag" (.notBoolean (.str ")"))) := by
  have valid := select_project_comm reachable_badges (by decide) (keepsFieldsOf_field parse_valid)
  have tag := select_project_comm reachable_badges (by decide) (keepsFieldsOf_field parse_tag)
  exact ⟨valid.symm.trans (by rfl), tag.symm.trans (by rfl)⟩

theorem select_succeeds (shape : relation.WellFormed) {predicate : String} {condition : Condition}
    (parsed : Condition.parse predicate = .ok condition) (safe : condition.isSafe = true)
    (known : ∀ name ∈ condition.expr.fieldNames, name ∈ relation.schema.names) :
    ∃ result, relation.select predicate = .ok result := by
  rw [Condition.isSafe, Bool.and_eq_true] at safe
  have tested : ∀ tuple ∈ relation.tuples,
      ∃ holds, condition.evaluate (relation.row tuple).scope = .ok holds := by
    intro tuple stored
    have resolved : ∀ name ∈ condition.expr.fieldNames,
        ((relation.row tuple).scope.lookup name).isSome = true := by
      intro name refers
      exact Option.isSome_iff_exists.mpr (exists_get? (shape.length_eq stored) (known name refers))
    obtain ⟨holds, done⟩ :=
      (Condition.Expr.succeeds_of_operandsFit safe.2 resolved).exists_holds safe.1
    exact ⟨holds, Condition.evaluate_eq_ok.mpr done⟩
  exact ⟨_, select_eq_ok.mpr ⟨condition, _, parsed, keepWhere_eq_ok.mpr ⟨tested, rfl⟩, rfl⟩⟩

/-! ## Selections one after the other -/

theorem keepWhere_cons_eq_ok {test : Tuple → Except Error Bool} {tuple : Tuple}
    {kept : List Tuple} :
    keepWhere test (tuple :: tuples) = .ok kept ↔
      ∃ passes others, test tuple = .ok passes ∧ keepWhere test tuples = .ok others ∧
        kept = if passes then tuple :: others else others := by
  rw [keepWhere, bind_bind_eq_ok]
  simp only [pure, Except.pure, Except.ok.injEq, eq_comm]

/-- The test passes if the first test and then the second one do, and the second one is not made
where the first one fails to pass. -/
def Chains (both first second : Tuple → Except Error Bool) : Prop :=
  ∀ tuple holds, both tuple = .ok holds ↔
    ∃ firstHolds, first tuple = .ok firstHolds ∧
      if firstHolds then second tuple = .ok holds else holds = false

/-- Keeping what passes a chain of two tests is keeping what passes the first and, of this, what
passes the second. -/
theorem Chains.keepWhere_eq_ok {both first second : Tuple → Except Error Bool}
    (chains : Chains both first second) {kept : List Tuple} :
    keepWhere both tuples = .ok kept ↔
      ∃ passed, keepWhere first tuples = .ok passed ∧ keepWhere second passed = .ok kept := by
  induction tuples generalizing kept with
  | nil => simp [keepWhere]
  | cons tuple rest ih =>
      simp only [keepWhere_cons_eq_ok, chains tuple, ih]
      constructor
      · rintro ⟨holds, others, ⟨firstHolds, tested, later⟩, ⟨passed, firstKept, secondKept⟩, rfl⟩
        cases firstHolds with
        | false =>
            cases (show holds = false from later)
            exact ⟨passed, ⟨false, passed, tested, firstKept, rfl⟩, secondKept⟩
        | true =>
            exact ⟨tuple :: passed, ⟨true, passed, tested, firstKept, rfl⟩,
              keepWhere_cons_eq_ok.mpr ⟨holds, others, later, secondKept, rfl⟩⟩
      · rintro ⟨_, ⟨firstHolds, passed, tested, firstKept, rfl⟩, secondKept⟩
        cases firstHolds with
        | false =>
            exact ⟨false, kept, ⟨false, tested, rfl⟩, ⟨passed, firstKept, secondKept⟩, rfl⟩
        | true =>
            obtain ⟨holds, others, later, othersKept, rfl⟩ := keepWhere_cons_eq_ok.mp secondKept
            exact ⟨holds, others, ⟨true, tested, later⟩, ⟨passed, firstKept, othersKept⟩, rfl⟩

/-- Selections by conditions that can be read, in terms of the rows that are kept. -/
theorem select_eq_ok_of_parse {predicate : String} {condition : Condition} {result : Relation}
    (parsed : Condition.parse predicate = .ok condition) :
    relation.select predicate = .ok result ↔
      ∃ tuples, keepWhere (fun tuple => condition.evaluate (relation.row tuple).scope)
          relation.tuples = .ok tuples ∧
        result = { relation with
          name := relation.name ++ " where: " ++ predicate, tuples := tuples } := by
  rw [select_eq_ok, parsed]
  simp

/-- Selecting by a conjunction comes to the same as selecting by the first condition and then by the
second one. Only the name of the result tells the two apart. -/
theorem select_conjoined_eq_ok {first second : String} {left right : Condition} {result : Relation}
    (firstParsed : Condition.parse first = .ok left)
    (secondParsed : Condition.parse second = .ok right) :
    relation.select (Condition.conjoined first second) = .ok result ↔
      ∃ selected again, relation.select first = .ok selected ∧
        selected.select second = .ok again ∧
        result = { again with
          name := relation.name ++ " where: " ++ Condition.conjoined first second } := by
  have chains : Chains
      (fun tuple => Condition.evaluate
        ⟨Condition.conjoined first second, .and left.expr right.expr⟩ (relation.row tuple).scope)
      (fun tuple => left.evaluate (relation.row tuple).scope)
      (fun tuple => right.evaluate
        (Row.mk (relation.name ++ " where: " ++ first) relation.schema tuple).scope) := by
    intro tuple holds
    rw [Condition.evaluate_and_eq_ok]
    have underEitherName : right.evaluate (relation.row tuple).scope = .ok holds ↔ right.evaluate
        (Row.mk (relation.name ++ " where: " ++ first) relation.schema tuple).scope = .ok holds :=
      Condition.evaluate_eq_ok_congr fun _ _ => rfl
    simp only [underEitherName]
  rw [select_eq_ok_of_parse (Condition.parse_conjoined firstParsed secondParsed)]
  simp only [chains.keepWhere_eq_ok, select_eq_ok_of_parse firstParsed,
    select_eq_ok_of_parse secondParsed]
  constructor
  · rintro ⟨tuples, ⟨passed, firstKept, secondKept⟩, rfl⟩
    exact ⟨_, _, ⟨passed, firstKept, rfl⟩, ⟨tuples, secondKept, rfl⟩, rfl⟩
  · rintro ⟨_, _, ⟨passed, firstKept, rfl⟩, ⟨tuples, secondKept, rfl⟩, rfl⟩
    exact ⟨tuples, ⟨passed, firstKept, secondKept⟩, rfl⟩

/-- The conjunction of two conditions can be read. Selecting by it succeeds exactly if selecting by
the first condition and from the result by the second one does, and then both ways keep the same
fields and the same rows. -/
theorem select_conjoined (relation : Relation) {first second : String} {left right : Condition}
    (firstParsed : Condition.parse first = .ok left)
    (secondParsed : Condition.parse second = .ok right) :
    (∃ both, Condition.parse (Condition.conjoined first second) = .ok both) ∧
    ((∃ result, relation.select (Condition.conjoined first second) = .ok result) ↔
      ∃ selected result, relation.select first = .ok selected ∧
        selected.select second = .ok result) ∧
    ∀ result selected again,
      relation.select (Condition.conjoined first second) = .ok result →
        relation.select first = .ok selected → selected.select second = .ok again →
          result.schema = again.schema ∧ result.tuples = again.tuples := by
  have parsed := Condition.parse_conjoined firstParsed secondParsed
  refine ⟨⟨_, parsed⟩, ?_, ?_⟩
  · simp only [select_conjoined_eq_ok firstParsed secondParsed]
    constructor
    · rintro ⟨_, selected, again, firstMade, secondMade, -⟩
      exact ⟨selected, again, firstMade, secondMade⟩
    · rintro ⟨selected, again, firstMade, secondMade⟩
      exact ⟨_, selected, again, firstMade, secondMade, rfl⟩
  · intro result selected again made firstMade secondMade
    obtain ⟨_, _, firstAlso, secondAlso, rfl⟩ :=
      (select_conjoined_eq_ok firstParsed secondParsed).mp made
    cases firstAlso.symm.trans firstMade
    cases secondAlso.symm.trans secondMade
    exact ⟨rfl, rfl⟩

theorem parse_isParenthesis : Condition.parse "tag == ')'" =
    .ok ⟨"tag == ')'", .compare (.field "tag") (.relator .eq) (.literal (.str ")"))⟩ := by
  have scanned : Condition.Lexeme.ofText "tag == ')'" =
      .ok [⟨.name "tag", "tag".toList, 0⟩, ⟨.relator .eq, "==".toList, 4⟩,
        ⟨.str ")", "')'".toList, 7⟩] := by
    rfl
  exact Condition.parse_eq_ok scanned (by rfl)

theorem parse_holdsItself : Condition.parse "tag in tag" =
    .ok ⟨"tag in tag", .compare (.field "tag") (.containment false) (.field "tag")⟩ := by
  have scanned : Condition.Lexeme.ofText "tag in tag" =
      .ok [⟨.name "tag", "tag".toList, 0⟩, ⟨.containment, "in".toList, 4⟩,
        ⟨.name "tag", "tag".toList, 7⟩] := by
    rfl
  exact Condition.parse_eq_ok scanned (by rfl)

/-- The tag that is not a text is never asked whether it holds itself, which would be an error. -/
theorem select_conjoined_badges :
    (∃ result, badges.select "(tag == ')') and (tag in tag)" = .ok result ∧
      result.tuples = [[.bool true, .str ")"]]) ∧
    badges.select "tag in tag" =
      .error (.condition "tag in tag" (.notStrings (.int 3) (.int 3))) := by
  have text : Condition.conjoined "tag == ')'" "tag in tag" =
      "(tag == ')') and (tag in tag)" := by decide
  have cascade := select_conjoined badges parse_isParenthesis parse_holdsItself
  rw [text] at cascade
  have first : badges.select "tag == ')'" =
      .ok ⟨"badges where: tag == ')'", badges.schema, [[.bool true, .str ")"]]⟩ :=
    select_eq_ok.mpr ⟨_, _, parse_isParenthesis, rfl, rfl⟩
  have second : Relation.select
      ⟨"badges where: tag == ')'", badges.schema, [[.bool true, .str ")"]]⟩ "tag in tag" =
      .ok ⟨"badges where: tag == ')' where: tag in tag", badges.schema, [[.bool true, .str ")"]]⟩ :=
    select_eq_ok.mpr ⟨_, _, parse_holdsItself, rfl, by rfl⟩
  constructor
  · obtain ⟨result, made⟩ := cascade.2.1.mpr ⟨_, _, first, second⟩
    exact ⟨result, made, (cascade.2.2 result _ _ made first second).2⟩
  · rw [select_of_parse parse_holdsItself]
    rfl

end TypedRelations.Relation
