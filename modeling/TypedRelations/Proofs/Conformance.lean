import TypedRelations.Proofs.Success

/-!
# Tuples that conform to their schema

The names of the fields differ, and every tuple has one legal value per field. Legality is any
judgement that allows null and what a domain accepts, so that one induction over derivations serves
both the shape of relations (`WellFormed`) and the legality of what is stored in them (`Storable`).
What the set operations need of the judgement is `Combination.Preserves`.
-/

namespace TypedRelations

/-- The values of a tuple are legal, one by one, in the domains of a schema. -/
def Schema.Admits (legal : Domain → Value → Prop) (schema : Schema) (tuple : Tuple) : Prop :=
  List.Forall₂ (fun field value => legal field.domain value) schema tuple

/-- A judgement that insertion and padding respect. -/
structure StorageLaws (legal : Domain → Value → Prop) : Prop where
  null : ∀ domain, legal domain .null
  accepted : ∀ domain value, domain.accepts value = true → legal domain value

/-- A value that a field with the given domain may hold: null, or a value that the domain
accepts. -/
def Storable (domain : Domain) (value : Value) : Prop :=
  value.isNull = true ∨ domain.accepts value = true

instance (domain : Domain) (value : Value) : Decidable (Storable domain value) :=
  inferInstanceAs (Decidable (_ ∨ _))

instance (schema : Schema) (tuple : Tuple) : Decidable (schema.Admits Storable tuple) :=
  inferInstanceAs (Decidable (List.Forall₂ _ _ _))

theorem storageLaws_storable : StorageLaws Storable where
  null _ := .inl rfl
  accepted _ _ := .inr

/-- Combining a domain with one on its right keeps its legal values legal. -/
def KeepsLeft (legal : Domain → Value → Prop)
    (combine : Domain → Domain → Except Constraint.Clash Domain) : Prop :=
  ∀ left right domain, combine left right = .ok domain →
    ∀ value, legal left value → legal domain value

/-- Combining a domain with one on its left keeps its legal values legal. -/
def KeepsRight (legal : Domain → Value → Prop)
    (combine : Domain → Domain → Except Constraint.Clash Domain) : Prop :=
  ∀ left right domain, combine left right = .ok domain →
    ∀ value, legal right value → legal domain value

namespace Schema

variable {legal : Domain → Value → Prop} {schema : Schema} {tuple : Tuple}

theorem Admits.length_eq (admits : schema.Admits legal tuple) :
    tuple.length = schema.length :=
  (List.Forall₂.length_eq admits).symm

theorem Admits.pick (admits : schema.Admits legal tuple) (positions : List Nat) :
    Admits legal (positions.filterMap fun position => schema[position]?)
      (tuple.pick positions) :=
  forall₂_pick admits positions

theorem Admits.append {left right : Schema} {first second : Tuple}
    (leftAdmits : left.Admits legal first) (rightAdmits : right.Admits legal second) :
    Admits legal (left ++ right) (first ++ second) :=
  List.rel_append leftAdmits rightAdmits

/-- Names do not matter for legality, only domains do. -/
theorem admits_congr {other : Schema}
    (domains : schema.map Field.domain = other.map Field.domain) :
    schema.Admits legal tuple ↔ other.Admits legal tuple := by
  have byDomain : ∀ schema : Schema, schema.Admits legal tuple ↔
      List.Forall₂ legal (schema.map Field.domain) tuple := by
    intro schema
    exact List.forall₂_map_left_iff.symm
  rw [byDomain, byDomain, domains]

@[simp] theorem map_domain_qualified (schema : Schema) (qualifier : String) :
    (schema.qualified qualifier).map Field.domain = schema.map Field.domain := by
  simp [qualified, Function.comp_def]

@[simp] theorem map_domain_unqualified (schema : Schema) (qualifier : String) :
    (schema.unqualified qualifier).map Field.domain = schema.map Field.domain := by
  simp [unqualified, Function.comp_def]

theorem admits_nulls (laws : StorageLaws legal) (schema : Schema) :
    schema.Admits legal (Tuple.nulls schema.length) := by
  induction schema with
  | nil => exact .nil
  | cons field rest ih => exact .cons (laws.null field.domain) ih

end Schema

namespace Relation

/-- The names of the fields differ, and every tuple has one legal value per field. -/
structure Conforms (legal : Domain → Value → Prop) (relation : Relation) : Prop where
  names_nodup : relation.schema.names.Nodup
  admits : ∀ tuple ∈ relation.tuples, relation.schema.Admits legal tuple

/-- The shape alone: different names, and one value per field. -/
abbrev WellFormed (relation : Relation) : Prop := relation.Conforms fun _ _ => True

variable {legal : Domain → Value → Prop} {relation left right result : Relation}

theorem Conforms.length_eq (conforms : relation.Conforms legal) {tuple : Tuple}
    (member : tuple ∈ relation.tuples) : tuple.length = relation.schema.length :=
  (conforms.admits tuple member).length_eq

theorem conforms_of_ofTuples {name : String} {schema : Schema} {tuples : List Tuple}
    (admits : ∀ tuple ∈ tuples, schema.Admits legal tuple)
    (made : ofTuples name schema tuples = .ok result) : result.Conforms legal := by
  rcases ofTuples_eq_ok_iff.mp made with ⟨distinct, rfl⟩
  exact ⟨distinct, admits⟩

theorem conforms_empty {name : String} {schema : Schema}
    (made : Relation.empty name schema = .ok result) : result.Conforms legal :=
  conforms_of_ofTuples (by simp) made

/-- Any selection of the tuples conforms, under any name. -/
theorem Conforms.of_subset (conforms : relation.Conforms legal)
    (schema : result.schema = relation.schema)
    (tuples : ∀ tuple ∈ result.tuples, tuple ∈ relation.tuples) : result.Conforms legal := by
  constructor
  · rw [schema]
    exact conforms.names_nodup
  · intro tuple member
    rw [schema]
    exact conforms.admits tuple (tuples tuple member)

/-! ## Operations -/

/-- A checked row is legal: the values that it names have been accepted, and the others are
null. -/
theorem Conforms.admits_tupleOf (laws : StorageLaws legal) (conforms : relation.Conforms legal)
    {entries : List (String × Value)} (checked : relation.checkEntries [] entries = .ok ()) :
    relation.schema.Admits legal (relation.tupleOf entries) := by
  rw [tupleOf, Schema.names, List.map_map, Schema.Admits, List.forall₂_map_right_iff,
    List.forall₂_same]
  intro field member
  change legal field.domain ((entries.lookup field.name).getD .null)
  cases given : entries.lookup field.name with
  | none => exact laws.null field.domain
  | some value =>
      have entry : (field.name, value) ∈ entries := by
        rcases List.lookup_eq_some_iff.mp given with ⟨before, after, rfl, -⟩
        simp
      rcases accepts_of_checkEntries checked _ entry with ⟨found, byName, accepted⟩
      rw [Schema.find?_eq_some_of_mem conforms.names_nodup member] at byName
      rw [Option.some.inj byName]
      exact laws.accepted _ _ accepted

theorem Conforms.insert (laws : StorageLaws legal) (conforms : relation.Conforms legal)
    {entries : List (String × Value)} (made : relation.insert entries = .ok result) :
    result.Conforms legal := by
  rcases insert_eq_ok.mp made with ⟨-, checked, -, rfl⟩
  constructor
  · exact conforms.names_nodup
  · intro tuple member
    rcases List.mem_append.mp member with stored | added
    · exact conforms.admits tuple stored
    · rw [List.mem_singleton.mp added]
      exact conforms.admits_tupleOf laws checked

theorem Conforms.select (conforms : relation.Conforms legal) {predicate : String}
    (made : relation.select predicate = .ok result) : result.Conforms legal := by
  rcases select_eq_ok.mp made with ⟨condition, tuples, -, kept, rfl⟩
  rcases keepWhere_eq_ok.mp kept with ⟨-, rfl⟩
  exact conforms.of_subset rfl fun tuple member => List.mem_of_mem_filter member

theorem Conforms.qualified (conforms : relation.Conforms legal) (qualifier : String) :
    (relation.qualified qualifier).Conforms legal := by
  constructor
  · exact Schema.nodup_names_qualified.mpr conforms.names_nodup
  · intro tuple member
    exact (Schema.admits_congr (Schema.map_domain_qualified _ _)).mpr
      (conforms.admits tuple member)

theorem Conforms.unqualified (conforms : relation.Conforms legal) {qualifier : String}
    (made : relation.unqualified qualifier = .ok result) : result.Conforms legal := by
  apply conforms_of_ofTuples _ made
  intro tuple member
  exact (Schema.admits_congr (Schema.map_domain_unqualified _ _)).mpr
    (conforms.admits tuple member)

/-- The names of the columns that a projection keeps, in the order of the schema. -/
theorem names_pick_positionsOf (relation : Relation) (names : List String) :
    (relation.pick (relation.positionsOf names)).schema.names =
      relation.schema.names.filter fun name =>
        names.contains everyField || names.contains name := by
  have located : ∀ entry ∈ relation.schema.names.zipIdx.filter (fun entry : String × Nat =>
      names.contains everyField || names.contains entry.1),
      relation.schema.names[entry.2]? = some entry.1 := by
    intro entry member
    exact List.mem_zipIdx_iff_getElem?.mp (List.mem_of_mem_filter member)
  have picked := pick_positions located
  rw [pick, Schema.names, List.map_filterMap]
  simp only [← Schema.getElem?_names]
  refine picked.trans ?_
  conv_rhs => rw [← List.zipIdx_map_fst 0 relation.schema.names, List.filter_map]
  rfl

theorem Conforms.project (conforms : relation.Conforms legal) {names : List String}
    (made : relation.project names = .ok result) : result.Conforms legal := by
  rw [project_eq_ok made]
  constructor
  · rw [names_pick_positionsOf]
    exact conforms.names_nodup.filter _
  · intro tuple member
    rcases List.mem_map.mp member with ⟨source, stored, rfl⟩
    exact (conforms.admits source stored).pick _

theorem Conforms.apply (laws : StorageLaws legal) (conforms : relation.Conforms legal)
    {operation : Operation} (made : operation.apply relation = .ok result) :
    result.Conforms legal := by
  cases operation with
  | insert entries => exact conforms.insert laws made
  | insertFlat arguments =>
      rcases exists_insert_of_insertFlat made with ⟨entries, inserted⟩
      exact conforms.insert laws inserted
  | copy =>
      rw [← Except.ok.inj made]
      exact conforms
  | renamed name =>
      rw [← Except.ok.inj made]
      exact conforms.of_subset rfl fun _ member => member
  | qualified qualifier =>
      rw [← Except.ok.inj made]
      exact conforms.qualified qualifier
  | unqualified qualifier => exact conforms.unqualified made
  | select predicate => exact conforms.select made
  | project names => exact conforms.project made

theorem admits_productTuples (leftConforms : left.Conforms legal)
    (rightConforms : right.Conforms legal) :
    ∀ tuple ∈ left.productTuples right, (left.productSchema right).Admits legal tuple := by
  intro tuple member
  rcases List.mem_flatMap.mp member with ⟨first, inLeft, combined⟩
  rcases List.mem_map.mp combined with ⟨second, inRight, rfl⟩
  apply Schema.Admits.append
  · rw [Schema.admits_congr (Schema.map_domain_qualified _ _)]
    exact leftConforms.admits first inLeft
  · rw [Schema.admits_congr (Schema.map_domain_qualified _ _)]
    exact rightConforms.admits second inRight

theorem Conforms.product (leftConforms : left.Conforms legal)
    (rightConforms : right.Conforms legal) (made : left.product right = .ok result) :
    result.Conforms legal :=
  conforms_of_ofTuples (admits_productTuples leftConforms rightConforms) made

theorem Conforms.thetaJoin (leftConforms : left.Conforms legal)
    (rightConforms : right.Conforms legal) {predicate : String}
    (made : left.thetaJoin right predicate = .ok result) : result.Conforms legal := by
  rcases thetaJoin_eq_ok.mp made with ⟨combined, product, selected⟩
  exact (leftConforms.product rightConforms product).select selected

theorem schema_of_thetaJoin {predicate : String}
    (made : left.thetaJoin right predicate = .ok result) :
    result.schema = left.productSchema right := by
  rcases thetaJoin_eq_ok.mp made with ⟨combined, product, selected⟩
  rcases select_eq_ok.mp selected with ⟨condition, tuples, -, -, rfl⟩
  rw [(product_eq_ok.mp product).2]

theorem Conforms.joinOn (leftConforms : left.Conforms legal) (rightConforms : right.Conforms legal)
    {pairs : List (String × String)} (made : left.joinOn right pairs = .ok result) :
    result.Conforms legal := by
  rcases joinOn_eq_ok made with product | ⟨predicate, theta⟩
  · exact leftConforms.product rightConforms product
  · exact leftConforms.thetaJoin rightConforms theta

/-- The names of the kept columns change in a natural join, their domains do not. -/
theorem Conforms.naturalJoin (leftConforms : left.Conforms legal)
    (rightConforms : right.Conforms legal) {pairs? : Option (List (String × String))}
    (made : left.naturalJoin right pairs? = .ok result) : result.Conforms legal := by
  rcases naturalJoin_eq_ok.mp made with ⟨dropped, joined, -, combined, rebuilt⟩
  have joinedConforms := leftConforms.joinOn rightConforms combined
  apply conforms_of_ofTuples _ rebuilt
  intro tuple member
  rcases List.mem_map.mp member with ⟨source, stored, rfl⟩
  have picked := (joinedConforms.admits source stored).pick
    ((joined.schema.zipIdx.filter fun entry => !dropped.contains entry.2).map Prod.snd)
  rw [pick_positions fun entry kept =>
    List.mem_zipIdx_iff_getElem?.mp (List.mem_of_mem_filter kept)] at picked
  refine (Schema.admits_congr ?_).mpr picked
  simp [joinedField]

theorem Conforms.outerJoin (laws : StorageLaws legal) (leftConforms : left.Conforms legal)
    (rightConforms : right.Conforms legal) {predicate : String} {side : Side}
    (made : left.outerJoin right predicate side = .ok result) : result.Conforms legal := by
  rcases outerJoin_eq_ok.mp made with ⟨joined, theta, rfl⟩
  have joinedConforms := leftConforms.thetaJoin rightConforms theta
  constructor
  · exact joinedConforms.names_nodup
  · intro tuple member
    rcases List.mem_append.mp member with inner | fromRight
    · rcases List.mem_append.mp inner with matched | fromLeft
      · exact joinedConforms.admits tuple matched
      · split at fromLeft
        · rcases List.mem_map.mp fromLeft with ⟨first, unmatched, rfl⟩
          change joined.schema.Admits legal _
          rw [schema_of_thetaJoin theta]
          apply Schema.Admits.append
          · rw [Schema.admits_congr (Schema.map_domain_qualified _ _)]
            exact leftConforms.admits first (List.mem_of_mem_filter unmatched)
          · rw [Schema.admits_congr (Schema.map_domain_qualified _ _)]
            exact Schema.admits_nulls laws right.schema
        · nomatch fromLeft
    · split at fromRight
      · rcases List.mem_map.mp fromRight with ⟨second, unmatched, rfl⟩
        change joined.schema.Admits legal _
        rw [schema_of_thetaJoin theta]
        apply Schema.Admits.append
        · rw [Schema.admits_congr (Schema.map_domain_qualified _ _)]
          exact Schema.admits_nulls laws left.schema
        · rw [Schema.admits_congr (Schema.map_domain_qualified _ _)]
          exact rightConforms.admits second (List.mem_of_mem_filter unmatched)
      · nomatch fromRight

/-- What a set operation needs of a judgement about values: the tuples that it takes over stay
legal under the combined domains. The other combinations need nothing. -/
def Combination.Preserves (legal : Domain → Value → Prop) : Combination → Prop
  | .union _ => KeepsLeft legal Domain.union ∧ KeepsRight legal Domain.union
  | .inter _ => KeepsLeft legal Domain.inter
  | .diff _ => KeepsLeft legal Domain.diff
  | _ => True

variable {mapping : List (String × String)} {fields : List MappedField} {schema : Schema}
  {operation : Domain → Domain → Except Constraint.Clash Domain}

/-- The columns that a mapping takes out of a relation are legal in the domains that the mapping
has found for them. -/
theorem admits_picked {place : MappedField → Nat} {domain : MappedField → Domain}
    (admits : ∀ tuple ∈ relation.tuples, relation.schema.Admits legal tuple)
    (located : ∀ entry ∈ fields, ∃ field, relation.schema[place entry]? = some field ∧
      field.domain = domain entry) :
    ∀ tuple ∈ relation.tuples.map (Tuple.pick (fields.map place)),
      List.Forall₂ (fun entry value => legal (domain entry) value) fields tuple := by
  intro picked member
  rcases List.mem_map.mp member with ⟨tuple, stored, rfl⟩
  have columns := admits tuple stored
  clear member
  induction fields with
  | nil => exact .nil
  | cons entry rest ih =>
      rcases located entry List.mem_cons_self with ⟨field, at_place, same⟩
      have found := forall₂_getElem? columns (place entry)
      rw [at_place] at found
      rw [Tuple.pick, List.map_cons, List.filterMap_cons]
      generalize tuple[place entry]? = value at found ⊢
      cases found with
      | some isLegal =>
          rw [same] at isLegal
          exact .cons isLegal (ih fun other later => located other (List.mem_cons_of_mem _ later))

theorem admits_leftTuples (admits : ∀ tuple ∈ left.tuples, left.schema.Admits legal tuple)
    (resolved : left.mappedFields right mapping = .ok fields) :
    ∀ tuple ∈ left.leftTuples fields,
      List.Forall₂ (fun entry value => legal entry.leftDomain value) fields tuple := by
  apply admits_picked admits
  intro entry inFields
  rcases exists_left_of_forall₂ (mappedFields_eq_ok resolved) inFields with ⟨_, -, resolves⟩
  rcases resolves.left with ⟨field, at_place, -, same⟩
  exact ⟨field, at_place, same⟩

theorem admits_rightTuples (admits : ∀ tuple ∈ right.tuples, right.schema.Admits legal tuple)
    (resolved : left.mappedFields right mapping = .ok fields) :
    ∀ tuple ∈ right.rightTuples fields,
      List.Forall₂ (fun entry value => legal entry.rightDomain value) fields tuple := by
  apply admits_picked admits
  intro entry inFields
  rcases exists_left_of_forall₂ (mappedFields_eq_ok resolved) inFields with ⟨_, -, resolves⟩
  rcases resolves.right with ⟨field, at_place, -, same⟩
  exact ⟨field, at_place, same⟩

/-- Mapped columns conform to a combined schema, if combining keeps their values legal. -/
theorem admits_combined {judged : MappedField → Value → Prop} {tuple : Tuple}
    (combined : combinedSchema fields operation = .ok schema)
    (columns : List.Forall₂ judged fields tuple)
    (keeps : ∀ entry domain, operation entry.leftDomain entry.rightDomain = .ok domain →
      ∀ value, judged entry value → legal domain value) :
    schema.Admits legal tuple :=
  forall₂_join (combinedSchema_eq_ok combined) columns fun entry _ value made isJudged =>
    keeps entry _ made.2 value isJudged

/-- The tuples of a set operation come from one of the relations, under domains that have been
combined from those they come from. -/
theorem Conforms.setOperation {word : String} {gather : List Tuple → List Tuple → List Tuple}
    (leftConforms : left.Conforms legal) (rightConforms : right.Conforms legal)
    (keeps : ∀ lefts rights, ∀ tuple ∈ gather lefts rights,
      (tuple ∈ lefts ∧ KeepsLeft legal operation) ∨ (tuple ∈ rights ∧ KeepsRight legal operation))
    (made : left.setOperation right word operation gather mapping = .ok result) :
    result.Conforms legal := by
  rcases setOperation_eq_ok.mp made with ⟨fields, schema, resolved, combined, rebuilt⟩
  apply conforms_of_ofTuples _ rebuilt
  intro tuple member
  rcases keeps _ _ tuple member with ⟨fromLeft, keepsLeft⟩ | ⟨fromRight, keepsRight⟩
  · exact admits_combined combined (admits_leftTuples leftConforms.admits resolved tuple fromLeft)
      fun entry => keepsLeft entry.leftDomain entry.rightDomain
  · exact admits_combined combined
      (admits_rightTuples rightConforms.admits resolved tuple fromRight)
      fun entry => keepsRight entry.leftDomain entry.rightDomain

theorem Conforms.combine (laws : StorageLaws legal) (leftConforms : left.Conforms legal)
    (rightConforms : right.Conforms legal) {combination : Combination}
    (preserves : combination.Preserves legal)
    (made : combination.apply left right = .ok result) : result.Conforms legal := by
  cases combination with
  | product => exact leftConforms.product rightConforms made
  | thetaJoin predicate => exact leftConforms.thetaJoin rightConforms made
  | equiJoin leftField rightField =>
      exact leftConforms.thetaJoin rightConforms (equiJoin_eq_ok made)
  | naturalJoin pairs? => exact leftConforms.naturalJoin rightConforms made
  | fullOuterJoin predicate => exact leftConforms.outerJoin laws rightConforms made
  | leftOuterJoin predicate => exact leftConforms.outerJoin laws rightConforms made
  | rightOuterJoin predicate => exact leftConforms.outerJoin laws rightConforms made
  | union mapping =>
      rw [Combination.apply, union] at made
      refine leftConforms.setOperation rightConforms (fun lefts rights tuple member => ?_) made
      exact (List.mem_append.mp (OrderedSet.mem_of_mem_ofList member)).imp
        (⟨·, preserves.1⟩) (⟨·, preserves.2⟩)
  | inter mapping =>
      rw [Combination.apply, inter] at made
      exact leftConforms.setOperation rightConforms
        (fun _ _ _ member => .inl ⟨List.mem_of_mem_filter member, preserves⟩) made
  | diff mapping =>
      rw [Combination.apply, diff] at made
      exact leftConforms.setOperation rightConforms
        (fun _ _ _ member => .inl ⟨List.mem_of_mem_filter member, preserves⟩) made

/-! ## Whole derivations -/

/-- A judgement that every call of a repertoire respects holds of all values that the calls ever
store. -/
theorem Derived.conforms {repertoire : Repertoire} (laws : StorageLaws legal)
    (preserves : ∀ combination, repertoire.combines combination → combination.Preserves legal)
    (derived : Derived repertoire relation) : relation.Conforms legal := by
  induction derived with
  | create _ made => exact conforms_empty made
  | apply _ _ _ made ih => exact ih.apply laws made
  | combine combination allowed _ _ made leftIH rightIH =>
      exact leftIH.combine laws rightIH (preserves combination allowed) made

/-- Reachable relations have the shape that every operation relies on. -/
theorem Reachable.wellFormed (reachable : relation.Reachable) : relation.WellFormed := by
  refine Derived.conforms ⟨fun _ => trivial, fun _ _ _ => trivial⟩ ?_ reachable
  intro combination _
  cases combination with
  | union mapping => exact ⟨fun _ _ _ _ _ _ => trivial, fun _ _ _ _ _ _ => trivial⟩
  | inter mapping => exact fun _ _ _ _ _ _ => trivial
  | diff mapping => exact fun _ _ _ _ _ _ => trivial
  | _ => trivial

end Relation

end TypedRelations
