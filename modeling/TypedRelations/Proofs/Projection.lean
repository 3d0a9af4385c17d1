import TypedRelations.Proofs.Rows.Assignment

/-!
# Laws of projection

What a projection makes is the relation restricted to the columns with the given names
(`project_eq_restricted`), where a restriction filters the schema and the entries of every row by
the same test. Restrictions one after the other are one by both tests (`restricted_restricted`), so
that the laws of projections (`ProjectionLaws`) are facts about sets of names.
-/

namespace TypedRelations

section Lists

variable {α β : Type}

/-- Pairs that are filtered by their first components stay together. -/
theorem zip_filter_map (pairs : List (α × β)) (keep : α → Bool) :
    ((pairs.map Prod.fst).filter keep).zip ((pairs.filter fun pair => keep pair.1).map Prod.snd) =
      pairs.filter fun pair => keep pair.1 := by
  rw [List.filter_map]
  exact (List.zip_of_prod rfl rfl).symm

/-- What is picked at the positions of the labels that are kept are the values of these labels. -/
theorem pick_kept_labels {labels : List α} {values : List β} (keep : α → Bool)
    (widths : labels.length = values.length) :
    (((labels.zipIdx.filter fun entry => keep entry.1).map Prod.snd).filterMap fun position =>
        values[position]?) =
      ((labels.zip values).filter fun column => keep column.1).map Prod.snd := by
  have kept := pick_kept labels (fun entry => keep entry.1) ([] : List β) values widths
  have labelled : labels.zip values = (labels.zipIdx.zip values).map (Prod.map Prod.fst id) := by
    rw [← List.zip_map_left, List.zipIdx_map_fst]
  rw [labelled, List.filter_map, List.map_map]
  exact kept

end Lists

namespace Relation

variable {relation : Relation} {names : List String} {keep : String → Bool} {tuple : Tuple}

/-- The values of a tuple under the names that pass a test. -/
def valuesUnder (relation : Relation) (keep : String → Bool) (tuple : Tuple) : Tuple :=
  ((relation.row tuple).entries.filter fun entry => keep entry.1).map Prod.snd

/-- The columns whose names pass a test. -/
def restricted (relation : Relation) (keep : String → Bool) : Relation :=
  { relation with
    schema := relation.schema.filter fun field => keep field.name
    tuples := relation.tuples.map (relation.valuesUnder keep) }

theorem names_restricted (relation : Relation) (keep : String → Bool) :
    (relation.restricted keep).schema.names = relation.schema.names.filter keep :=
  Schema.names_filter relation.schema keep

/-- A restricted row has the entries whose names pass the test. -/
theorem entries_restricted (width : tuple.length = relation.schema.length)
    (keep : String → Bool) :
    ((relation.restricted keep).row (relation.valuesUnder keep tuple)).entries =
      (relation.row tuple).entries.filter fun entry => keep entry.1 := by
  have names : (relation.restricted keep).schema.names =
      ((relation.row tuple).entries.map Prod.fst).filter keep := by
    rw [names_restricted, map_fst_entries width]
  change (relation.restricted keep).schema.names.zip _ = _
  rw [names]
  exact zip_filter_map (relation.row tuple).entries keep

/-- Two restrictions one after the other are one, by both tests. -/
theorem restricted_restricted (shape : relation.WellFormed) (first second : String → Bool) :
    (relation.restricted first).restricted second =
      relation.restricted fun name => second name && first name := by
  have rows : ∀ tuple ∈ relation.tuples,
      (relation.restricted first).valuesUnder second (relation.valuesUnder first tuple) =
        relation.valuesUnder (fun name => second name && first name) tuple := by
    intro tuple stored
    rw [valuesUnder, entries_restricted (shape.length_eq stored), List.filter_filter]
    rfl
  have schema : (relation.restricted first).schema.filter (fun field => second field.name) =
      relation.schema.filter fun field => second field.name && first field.name :=
    List.filter_filter
  have tuples : (relation.restricted first).tuples.map
      ((relation.restricted first).valuesUnder second) =
        relation.tuples.map (relation.valuesUnder fun name => second name && first name) := by
    rw [restricted, List.map_map]
    exact List.map_congr_left rows
  rw [restricted, schema, tuples]
  rfl

/-- A restriction depends only on what the test says of the names of the fields. -/
theorem restricted_congr (shape : relation.WellFormed) {other : String → Bool}
    (agree : ∀ name ∈ relation.schema.names, keep name = other name) :
    relation.restricted keep = relation.restricted other := by
  have schema : relation.schema.filter (fun field => keep field.name) =
      relation.schema.filter fun field => other field.name :=
    List.filter_congr fun field member => agree _ (List.mem_map_of_mem member)
  have rows : relation.tuples.map (relation.valuesUnder keep) =
      relation.tuples.map (relation.valuesUnder other) := by
    refine List.map_congr_left fun tuple stored => congrArg (List.map Prod.snd) ?_
    refine List.filter_congr fun entry member => agree _ ?_
    rw [← map_fst_entries (shape.length_eq stored)]
    exact List.mem_map_of_mem member
  rw [restricted, restricted, schema, rows]

/-- The rows of a restriction have the entries whose names pass the test. -/
theorem entries_rows_restricted (shape : relation.WellFormed) (keep : String → Bool) :
    (relation.restricted keep).rows.map Row.entries =
      relation.rows.map fun row => row.entries.filter fun entry => keep entry.1 := by
  rw [rows, rows, List.map_map, List.map_map]
  change List.map _ (relation.tuples.map _) = _
  rw [List.map_map]
  exact List.map_congr_left fun tuple stored => entries_restricted (shape.length_eq stored) keep

/-! ## Projections as restrictions -/

/-- A projection on the names keeps the field of the given name. -/
def chosen (names : List String) (name : String) : Bool :=
  names.contains everyField || names.contains name

theorem chosen_eq_decide (names : List String) (name : String) :
    chosen names name = decide (everyField ∈ names ∨ name ∈ names) := by
  rw [chosen, Bool.decide_or, List.contains_eq_mem, List.contains_eq_mem]

/-- Picking the positions of names is restricting the relation to these names. -/
theorem pick_positionsOf (shape : relation.WellFormed) (names : List String) :
    relation.pick (relation.positionsOf names) = relation.restricted (chosen names) := by
  have width : relation.schema.names.length = relation.schema.length := List.length_map _
  have schema : ((relation.positionsOf names).filterMap fun position =>
      relation.schema[position]?) =
        relation.schema.filter fun field => chosen names field.name := by
    have columns : relation.schema.names.zip relation.schema =
        relation.schema.map fun field => (field.name, field) := by
      conv_lhs => arg 2; rw [← List.map_id relation.schema]
      exact List.zip_map'
    refine (pick_kept_labels (chosen names) width).trans ?_
    rw [columns, List.filter_map, List.map_map]
    exact List.map_id _
  have rows : relation.tuples.map (Tuple.pick (relation.positionsOf names)) =
      relation.tuples.map (relation.valuesUnder (chosen names)) := by
    refine List.map_congr_left fun tuple stored => ?_
    exact pick_kept_labels (chosen names) (width.trans (shape.length_eq stored).symm)
  rw [pick, schema, rows]
  rfl

/-- A projection is refused if a name is neither that of a field nor stands for all of them, and
otherwise it makes the restriction to the names. -/
theorem project_eq_restricted (shape : relation.WellFormed) {result : Relation} :
    relation.project names = .ok result ↔
      (∀ name ∈ names, name = everyField ∨ name ∈ relation.schema.names) ∧
        result = relation.restricted (chosen names) := by
  rw [project_eq_ok_iff, pick_positionsOf shape]

/-- A projection is refused exactly if it is given a name that is not there. -/
theorem project_eq_error_iff (shape : relation.WellFormed) :
    (∃ error, relation.project names = .error error) ↔
      ∃ name ∈ names, name ≠ everyField ∧ name ∉ relation.schema.names := by
  cases made : relation.project names with
  | ok result =>
      have known := ((project_eq_restricted shape).mp made).1
      constructor
      · rintro ⟨_, failed⟩
        cases failed
      · rintro ⟨name, listed, named, absent⟩
        exact absurd (known name listed) (not_or_intro named absent)
  | error error =>
      refine ⟨fun _ => ?_, fun _ => ⟨error, rfl⟩⟩
      by_contra known
      simp only [not_exists, not_and_or, not_not] at known
      have succeeds := (project_eq_restricted shape).mpr
        ⟨fun name listed => (known name).resolve_left (not_not_intro listed), rfl⟩
      cases made.symm.trans succeeds

/-- A projection on names that are all kept by an earlier one does not see what this has left
out. -/
theorem restricted_chosen_absorbs (shape : relation.WellFormed) {others : List String}
    (named : everyField ∉ others)
    (kept : ∀ name ∈ others, name ∈ (relation.restricted keep).schema.names) :
    (relation.restricted keep).restricted (chosen others) =
      relation.restricted (chosen others) := by
  rw [restricted_restricted shape]
  refine restricted_congr shape fun name _ => ?_
  cases isChosen : chosen others name with
  | false => rfl
  | true =>
      rw [chosen_eq_decide, decide_eq_true_iff] at isChosen
      have listed := isChosen.resolve_left named
      have inRestricted := kept name listed
      rw [names_restricted, List.mem_filter] at inRestricted
      rw [inRestricted.2]
      rfl

/-- A projection has nothing left to do after the same one. -/
theorem restricted_chosen_twice (shape : relation.WellFormed) (names : List String) :
    (relation.restricted (chosen names)).restricted (chosen names) =
      relation.restricted (chosen names) := by
  rw [restricted_restricted shape]
  exact restricted_congr shape fun name _ => Bool.and_self _

/-- The same names in another order or number make the same relation, or are refused as well. -/
theorem project_congr (shape : relation.WellFormed) {others : List String}
    (same : ∀ name, name ∈ names ↔ name ∈ others) :
    (∃ result, relation.project names = .ok result ∧ relation.project others = .ok result) ∨
      ∃ error other, relation.project names = .error error ∧
        relation.project others = .error other := by
  cases made : relation.project names with
  | ok result =>
      obtain ⟨known, rfl⟩ := (project_eq_restricted shape).mp made
      have tests : chosen names = chosen others := by
        funext name
        simp only [chosen_eq_decide, same]
      exact .inl ⟨_, rfl, (project_eq_restricted shape).mpr
        ⟨fun name listed => known name ((same name).mpr listed), by rw [tests]⟩⟩
  | error error =>
      obtain ⟨name, listed, missing⟩ := (project_eq_error_iff shape).mp ⟨error, made⟩
      obtain ⟨other, alsoFailed⟩ :=
        (project_eq_error_iff shape).mpr ⟨name, (same name).mp listed, missing⟩
      exact .inr ⟨error, other, rfl, alsoFailed⟩

/-- A projection of a projection is the later one alone, if this names fields of the earlier one. -/
theorem project_project (shape : relation.WellFormed) {projected : Relation}
    (made : relation.project names = .ok projected) {others : List String}
    (named : everyField ∉ others) (fields : ∀ name ∈ others, name ∈ projected.schema.names) :
    ∃ result, projected.project others = .ok result ∧ relation.project others = .ok result := by
  have projectedShape := Conforms.project shape made
  obtain ⟨-, rfl⟩ := (project_eq_restricted shape).mp made
  have fromWhole : ∀ name ∈ others, name ∈ relation.schema.names := by
    intro name listed
    have kept := fields name listed
    rw [names_restricted] at kept
    exact List.mem_of_mem_filter kept
  refine ⟨relation.restricted (chosen others), ?_, ?_⟩
  · exact (project_eq_restricted projectedShape).mpr
      ⟨fun name listed => .inr (fields name listed),
        (restricted_chosen_absorbs shape named fields).symm⟩
  · exact (project_eq_restricted shape).mpr
      ⟨fun name listed => .inr (fromWhole name listed), rfl⟩

theorem project_twice (shape : relation.WellFormed) {projected : Relation}
    (made : relation.project names = .ok projected) :
    projected.project names = .ok projected := by
  have projectedShape := Conforms.project shape made
  obtain ⟨known, rfl⟩ := (project_eq_restricted shape).mp made
  refine (project_eq_restricted projectedShape).mpr
    ⟨fun name listed => ?_, (restricted_chosen_twice shape names).symm⟩
  refine (known name listed).imp id fun isField => ?_
  rw [names_restricted, List.mem_filter]
  exact ⟨isField, by rw [chosen_eq_decide, decide_eq_true (.inr listed)]⟩

/-- What a projection makes of a relation, in terms of the set of names that it is given. The same
names in another order or number make the same relation, and a projection of a projection is the
later one alone. -/
structure ProjectionLaws (relation : Relation) : Prop where
  refuses : ∀ names, (∃ error, relation.project names = .error error) ↔
    ∃ name ∈ names, name ≠ everyField ∧ name ∉ relation.schema.names
  columns : ∀ names result, relation.project names = .ok result →
    result.schema = relation.schema.filter fun field =>
        decide (everyField ∈ names ∨ field.name ∈ names)
  rows : ∀ names result, relation.project names = .ok result →
    result.rows.map Row.entries = relation.rows.map fun row =>
      row.entries.filter fun entry => decide (everyField ∈ names ∨ entry.1 ∈ names)
  sameSet : ∀ names others, (∀ name, name ∈ names ↔ name ∈ others) →
    (∃ result, relation.project names = .ok result ∧ relation.project others = .ok result) ∨
    ∃ error other, relation.project names = .error error ∧ relation.project others = .error other
  composed : ∀ names projected, relation.project names = .ok projected →
    ∀ others, everyField ∉ others → (∀ name ∈ others, name ∈ projected.schema.names) →
      ∃ result, projected.project others = .ok result ∧ relation.project others = .ok result
  repeated : ∀ names projected, relation.project names = .ok projected →
    projected.project names = .ok projected

/-- A projection depends only on the set of names that it is given, and projections compose. -/
theorem Reachable.projectionLaws (reachable : relation.Reachable) : relation.ProjectionLaws := by
  have shape := reachable.wellFormed
  constructor
  case refuses => exact fun names => project_eq_error_iff shape
  case columns =>
    intro names result made
    rw [((project_eq_restricted shape).mp made).2]
    exact List.filter_congr fun field _ => chosen_eq_decide names field.name
  case rows =>
    intro names result made
    rw [((project_eq_restricted shape).mp made).2, entries_rows_restricted shape]
    simp only [chosen_eq_decide]
  case sameSet => exact fun names others same => project_congr shape same
  case composed =>
    exact fun names projected made others named fields => project_project shape made named fields
  case repeated => exact fun names projected made => project_twice shape made

/-- Two parcels of the same weight, one of them with a note. -/
def parcels : Relation :=
  ⟨"parcels", [.any "id", .any "weight", .any "note"],
    [[.int 1, .int 3, .str "fragile"], [.int 2, .int 3, .null]]⟩

theorem reachable_parcels : parcels.Reachable :=
  reachable_of_rows (by decide) (by decide) (by decide)

/-- The columns come in the order of the relation and once, however they are asked for. The weights
are the same without the notes, and both are there although they are equal. There is no projection
on a price. -/
theorem projectionLaws_parcels :
    ∃ projected, parcels.project ["weight", "id", "weight"] = .ok projected ∧
      parcels.project ["id", "weight"] = .ok projected ∧
      projected.schema.names = ["id", "weight"] ∧
      projected.project ["weight", "id", "weight"] = .ok projected ∧
      (∃ result, projected.project ["weight"] = .ok result ∧
        parcels.project ["weight"] = .ok result ∧ result.tuples = [[.int 3], [.int 3]]) ∧
      ∃ error, parcels.project ["price", "*"] = .error error := by
  have laws := reachable_parcels.projectionLaws
  rcases laws.sameSet ["weight", "id", "weight"] ["id", "weight"] (by simp [or_comm]) with
    ⟨projected, made, alsoMade⟩ | ⟨_, _, failed, -⟩
  case inr => nomatch failed
  case inl =>
    have names : projected.schema.names = ["id", "weight"] := by
      rw [laws.columns _ _ made]
      rfl
    obtain ⟨result, again, alone⟩ :=
      laws.composed _ _ made ["weight"] (by decide) (by simp [names])
    refine ⟨projected, made, alsoMade, names, laws.repeated _ _ made, ⟨result, again, alone, ?_⟩,
      (laws.refuses ["price", "*"]).mpr ⟨"price", by decide⟩⟩
    cases alone
    rfl

end Relation

end TypedRelations
