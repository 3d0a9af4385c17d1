import TypedRelations.Proofs.Names
import TypedRelations.Proofs.Derivation
import TypedRelations.Proofs.Outcome

/-!
# What a successful operation has done

One lemma for each operation says what its success amounts to and which relation it makes. The
proofs about whole derivations start from these lemmas and do not look into the operations again.
-/

namespace TypedRelations.Relation

variable {relation left right result : Relation}

/-- A relation is refused for a name that two fields would have. -/
theorem ofTuples_eq_error {name : String} {schema : Schema} {tuples : List Tuple} {error : Error}
    (failed : ofTuples name schema tuples = .error error) :
    ∃ field, 2 ≤ schema.names.count field ∧ error = .duplicateField field name := by
  rw [ofTuples] at failed
  split at failed
  next field repeated =>
    exact ⟨field, Schema.two_le_count_of_repeatedName? repeated, (Except.error.inj failed).symm⟩
  next => cases failed

/-- A row that has passed every check names fields only, and gives each of them a value that its
domain accepts. -/
theorem accepts_of_checkEntries {given : List String} {entries : List (String × Value)}
    (checked : relation.checkEntries given entries = .ok ()) :
    ∀ entry ∈ entries, ∃ field, relation.schema.find? entry.1 = some field ∧
      field.domain.accepts entry.2 = true := by
  induction entries generalizing given with
  | nil => simp
  | cons entry rest ih =>
      rcases entry with ⟨name, value⟩
      rw [checkEntries] at checked
      split at checked
      · cases checked
      next field found =>
        split at checked
        · cases checked
        · split at checked
          · cases checked
          next accepted =>
            intro other member
            rcases List.mem_cons.mp member with rfl | inRest
            · exact ⟨field, found, Option.isNone_iff_eq_none.mpr accepted⟩
            · exact ih checked other inRest

theorem insert_eq_ok {entries : List (String × Value)} :
    relation.insert entries = .ok result ↔
      entries.length ≤ relation.schema.length ∧ relation.checkEntries [] entries = .ok () ∧
        relation.tuples.contains (relation.tupleOf entries) = false ∧
        result = { relation with
          tuples := relation.tuples ++ [relation.tupleOf entries] } := by
  rw [insert]
  split
  next tooMany =>
    simp [Nat.not_le_of_lt tooMany]
  next fits =>
    rw [bind_eq_ok]
    constructor
    · rintro ⟨⟨⟩, checked, stored⟩
      split at stored
      · cases stored
      next fresh =>
        exact ⟨Nat.le_of_not_lt fits, checked, by simpa using fresh,
          (Except.ok.inj stored).symm⟩
    · rintro ⟨-, checked, fresh, rfl⟩
      exact ⟨(), checked, by simp only [fresh, Bool.false_eq_true, if_false]⟩

theorem exists_insert_of_insertFlat {arguments : List Value}
    (made : relation.insertFlat arguments = .ok result) :
    ∃ entries, relation.insert entries = .ok result := by
  rw [insertFlat] at made
  split at made
  next entries _ => exact ⟨entries, made⟩
  · cases made

/-- A test on all tuples succeeds if it does on each of them, and keeps those that pass. -/
theorem keepWhere_eq_ok {test : Tuple → Except Error Bool} {tuples kept : List Tuple} :
    keepWhere test tuples = .ok kept ↔
      (∀ tuple ∈ tuples, ∃ passes, test tuple = .ok passes) ∧
        kept = tuples.filter fun tuple => (test tuple).toOption.getD false := by
  induction tuples generalizing kept with
  | nil => simp [keepWhere, eq_comm]
  | cons tuple rest ih =>
      rw [keepWhere, bind_eq_ok, List.forall_mem_cons, List.filter_cons]
      constructor
      · intro ⟨passes, tested, later⟩
        rcases bind_eq_ok.mp later with ⟨others, restKept, same⟩
        rcases ih.mp restKept with ⟨restTested, rfl⟩
        refine ⟨⟨⟨passes, tested⟩, restTested⟩, ?_⟩
        rw [← Except.ok.inj same, tested]
        rfl
      · rintro ⟨⟨⟨passes, tested⟩, restTested⟩, rfl⟩
        refine ⟨passes, tested, bind_eq_ok.mpr ⟨_, ih.mpr ⟨restTested, rfl⟩, ?_⟩⟩
        rw [tested]
        rfl

theorem select_eq_ok {predicate : String} :
    relation.select predicate = .ok result ↔
      ∃ condition tuples, Condition.parse predicate = .ok condition ∧
        keepWhere (fun tuple => condition.evaluate (relation.row tuple).scope)
          relation.tuples = .ok tuples ∧
        result = { relation with
          name := relation.name ++ " where: " ++ predicate, tuples := tuples } := by
  rw [select, bind_bind_eq_ok]
  constructor
  · intro ⟨condition, tuples, parsed, kept, same⟩
    exact ⟨condition, tuples, parsed, kept, (Except.ok.inj same).symm⟩
  · rintro ⟨condition, tuples, parsed, kept, rfl⟩
    exact ⟨condition, tuples, parsed, kept, rfl⟩

/-- A projection succeeds if every name is that of a field or stands for all of them. -/
theorem project_eq_ok_iff {names : List String} :
    relation.project names = .ok result ↔
      (∀ name ∈ names, name = everyField ∨ name ∈ relation.schema.names) ∧
        result = relation.pick (relation.positionsOf names) := by
  have known : (names.find? fun name =>
      name != everyField && !relation.schema.names.contains name) = none ↔
      ∀ name ∈ names, name = everyField ∨ name ∈ relation.schema.names := by
    rw [List.find?_eq_none]
    refine forall₂_congr fun name _ => ?_
    simp [or_iff_not_imp_left]
  rw [project, ← known]
  cases names.find? fun name => name != everyField && !relation.schema.names.contains name with
  | some missing => simp
  | none => simp [eq_comm]

theorem project_eq_ok {names : List String} (made : relation.project names = .ok result) :
    result = relation.pick (relation.positionsOf names) :=
  (project_eq_ok_iff.mp made).2

theorem product_eq_ok :
    left.product right = .ok result ↔
      (left.productSchema right).names.Nodup ∧
        result = ⟨left.name ++ " x " ++ right.name, left.productSchema right,
          left.productTuples right⟩ :=
  ofTuples_eq_ok_iff

theorem thetaJoin_eq_ok {predicate : String} :
    left.thetaJoin right predicate = .ok result ↔
      ∃ combined, left.product right = .ok combined ∧ combined.select predicate = .ok result :=
  bind_eq_ok

theorem equiJoin_eq_ok {leftField rightField : String}
    (made : left.equiJoin right leftField rightField = .ok result) :
    left.thetaJoin right (left.equalityText right (leftField, rightField)) = .ok result := by
  rcases bind_eq_ok.mp made with ⟨-, -, later⟩
  rcases bind_eq_ok.mp later with ⟨-, -, joined⟩
  exact joined

theorem naturalJoin_eq_ok {pairs? : Option (List (String × String))} :
    left.naturalJoin right pairs? = .ok result ↔
      ∃ dropped joined,
        left.droppedColumns right (pairs?.getD (left.sharedPairs right)) = .ok dropped ∧
        left.joinOn right (pairs?.getD (left.sharedPairs right)) = .ok joined ∧
        ofTuples (left.name ++ " |x| " ++ right.name)
          ((joined.schema.zipIdx.filter fun entry => !dropped.contains entry.2).map fun entry =>
            left.joinedField right entry.2 entry.1)
          (joined.tuples.map (Tuple.pick
            ((joined.schema.zipIdx.filter fun entry => !dropped.contains entry.2).map
              Prod.snd))) = .ok result := by
  rw [naturalJoin]
  exact bind_bind_eq_ok

/-- A join on pairs selects from the product, if there is a pair at all. -/
theorem joinOn_eq_ok {pairs : List (String × String)}
    (made : left.joinOn right pairs = .ok result) :
    left.product right = .ok result ∨
      ∃ predicate, left.thetaJoin right predicate = .ok result := by
  rw [joinOn] at made
  split at made
  · exact .inl made
  · exact .inr ⟨_, made⟩

theorem outerJoin_eq_ok {predicate : String} {side : Side} :
    left.outerJoin right predicate side = .ok result ↔
      ∃ joined, left.thetaJoin right predicate = .ok joined ∧
        result =
          { name := left.name ++ " " ++ side.text ++ " outer join " ++ right.name
            schema := joined.schema
            tuples := joined.tuples ++
              (if side.keepsLeft then
                unmatchedLeft joined.tuples left.schema.length right.schema.length left.tuples
              else []) ++
              (if side.keepsRight then
                unmatchedRight joined.tuples left.schema.length right.tuples
              else []) } := by
  rw [outerJoin, bind_eq_ok]
  constructor
  · intro ⟨joined, combined, same⟩
    exact ⟨joined, combined, (Except.ok.inj same).symm⟩
  · rintro ⟨joined, combined, rfl⟩
    exact ⟨joined, combined, rfl⟩

/-- A mapped name stands for the field of that name, with its position and its domain. -/
theorem mapped_eq_ok {name : String} {position : Nat} {domain : Domain}
    (made : relation.mapped name = .ok (position, domain)) :
    ∃ field, relation.schema[position]? = some field ∧
      relation.schema.find? name = some field ∧ field.domain = domain := by
  rw [mapped] at made
  split at made
  next place field found byName =>
    rcases Schema.find?_eq_getElem? found with ⟨other, at_place, -, same⟩
    rcases Prod.mk.inj (Except.ok.inj made) with ⟨rfl, rfl⟩
    rw [byName] at same
    rw [← Option.some.inj same] at at_place
    exact ⟨field, at_place, byName, rfl⟩
  · cases made

/-- What a resolved pair of a mapping says about the two relations. -/
structure MappedField.Resolves (left right : Relation) (pair : String × String)
    (resolved : MappedField) : Prop where
  name : resolved.name = pair.1
  left : ∃ field, left.schema[resolved.leftPosition]? = some field ∧
    left.schema.find? pair.1 = some field ∧ field.domain = resolved.leftDomain
  right : ∃ field, right.schema[resolved.rightPosition]? = some field ∧
    right.schema.find? pair.2 = some field ∧ field.domain = resolved.rightDomain

theorem mappedFields_eq_ok {mapping : List (String × String)} {fields : List MappedField}
    (made : left.mappedFields right mapping = .ok fields) :
    List.Forall₂ (MappedField.Resolves left right) mapping fields := by
  refine (mapM_eq_ok.mp made).imp fun pair resolved step => ?_
  rcases bind_eq_ok.mp step with ⟨⟨leftPosition, leftDomain⟩, leftMapped, later⟩
  rcases bind_eq_ok.mp later with ⟨⟨rightPosition, rightDomain⟩, rightMapped, same⟩
  rw [← Except.ok.inj same]
  exact ⟨rfl, mapped_eq_ok leftMapped, mapped_eq_ok rightMapped⟩

theorem combinedSchema_eq_ok {fields : List MappedField}
    {combine : Domain → Domain → Except Constraint.Clash Domain} {schema : Schema}
    (made : combinedSchema fields combine = .ok schema) :
    List.Forall₂ (fun resolved field => field.name = resolved.name ∧
      combine resolved.leftDomain resolved.rightDomain = .ok field.domain) fields schema := by
  refine (mapM_eq_ok.mp made).imp fun resolved field step => ?_
  split at step
  next domain combined =>
    rw [← Except.ok.inj step]
    exact ⟨rfl, combined⟩
  · cases step

/-- What a set operation has done: a union, an intersection or a difference. -/
theorem setOperation_eq_ok {word : String}
    {combine : Domain → Domain → Except Constraint.Clash Domain}
    {gather : List Tuple → List Tuple → List Tuple} {mapping : List (String × String)} :
    left.setOperation right word combine gather mapping = .ok result ↔
      ∃ fields schema, left.mappedFields right mapping = .ok fields ∧
        combinedSchema fields combine = .ok schema ∧
        ofTuples (left.name ++ word ++ right.name) schema
          (gather (left.leftTuples fields) (right.rightTuples fields)) = .ok result := by
  rw [setOperation]
  exact bind_bind_eq_ok

end TypedRelations.Relation
