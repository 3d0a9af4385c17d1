import TypedRelations.Proofs.Domain.Combination
import TypedRelations.Proofs.NaturalJoin
import TypedRelations.Proofs.OuterJoin

/-!
# Set operations on mapped columns

In terms of the `columns` that a mapping names, a union is an append without later repetitions, and
an intersection and a difference part the rows of the left relation between them. So the difference
with a difference is the intersection.
-/

namespace TypedRelations.Relation

variable {relation left right result : Relation} {mapping : List (String × String)}
  {fields : List MappedField} {combine : Domain → Domain → Except Constraint.Clash Domain}

/-- The values under the given names in every row, in the order of the names. -/
def columns (relation : Relation) (names : List String) : List Tuple :=
  relation.tuples.map fun tuple => names.filterMap (relation.row tuple).get?

/-- Pairs each of the names with itself. -/
def identityMapping (names : List String) : List (String × String) :=
  names.map fun name => (name, name)

/-- The position of a field that is found by a name is the position of the name. -/
theorem position?_of_find? (distinct : relation.schema.names.Nodup) {name : String} {field : Field}
    {position : Nat} (listed : relation.schema[position]? = some field)
    (byName : relation.schema.find? name = some field) :
    relation.schema.position? name = some position := by
  have named : field.name = name := by simpa using List.find?_some byName
  rw [Schema.position?_eq_some_iff distinct, Schema.getElem?_names, listed, Option.map_some, named]

/-- Picking positions that names were resolved to is asking for the values under these names. -/
theorem map_pick_eq_columns (distinct : relation.schema.names.Nodup) {place : MappedField → Nat}
    {label : String × String → String}
    (located : List.Forall₂ (fun pair entry => ∃ field,
      relation.schema[place entry]? = some field ∧
        relation.schema.find? (label pair) = some field) mapping fields) :
    relation.tuples.map (Tuple.pick (fields.map place)) = relation.columns (mapping.map label) := by
  refine List.map_congr_left fun tuple _ => pick_eq_filterMap_get? ?_ tuple
  rw [List.forall₂_map_left_iff, List.forall₂_map_right_iff]
  refine located.imp fun pair entry found => ?_
  obtain ⟨field, listed, byName⟩ := found
  exact position?_of_find? distinct listed byName

theorem leftTuples_eq_columns (distinct : left.schema.names.Nodup)
    (resolved : left.mappedFields right mapping = .ok fields) :
    left.leftTuples fields = left.columns (mapping.map Prod.fst) := by
  refine map_pick_eq_columns distinct ((mappedFields_eq_ok resolved).imp fun _ _ resolves => ?_)
  obtain ⟨field, listed, byName, -⟩ := resolves.left
  exact ⟨field, listed, byName⟩

theorem rightTuples_eq_columns (distinct : right.schema.names.Nodup)
    (resolved : left.mappedFields right mapping = .ok fields) :
    right.rightTuples fields = right.columns (mapping.map Prod.snd) := by
  refine map_pick_eq_columns distinct ((mappedFields_eq_ok resolved).imp fun _ _ resolves => ?_)
  obtain ⟨field, listed, byName, -⟩ := resolves.right
  exact ⟨field, listed, byName⟩

/-- The columns of all fields are the whole rows. -/
theorem columns_names (shape : relation.WellFormed) :
    relation.columns relation.schema.names = relation.tuples := by
  conv_rhs => rw [← List.map_id relation.tuples]
  exact List.map_congr_left fun tuple member =>
    filterMap_get?_names shape.names_nodup (shape.length_eq member)

theorem exists_mapped {name : String} (member : name ∈ relation.schema.names) :
    ∃ place, relation.mapped name = .ok place := by
  obtain ⟨position, found⟩ := Schema.exists_position?_of_mem member
  obtain ⟨field, -, -, byName⟩ := Schema.find?_eq_getElem? found
  exact ⟨(position, field.domain), by rw [mapped, found, byName]⟩

theorem exists_mappedFields (known : left.Pairs right mapping) :
    ∃ fields, left.mappedFields right mapping = .ok fields := by
  refine exists_mapM_eq_ok fun pair member => ?_
  obtain ⟨leftPlace, leftMapped⟩ := exists_mapped (known pair member).1
  obtain ⟨rightPlace, rightMapped⟩ := exists_mapped (known pair member).2
  exact ⟨_, bind_eq_ok.mpr ⟨leftPlace, leftMapped, bind_eq_ok.mpr ⟨rightPlace, rightMapped, rfl⟩⟩⟩

/-- The fields of a set operation have the left names of the mapping. -/
theorem names_eq_of_combinedSchema {schema : Schema}
    (resolved : left.mappedFields right mapping = .ok fields)
    (combined : combinedSchema fields combine = .ok schema) :
    schema.names = mapping.map Prod.fst := by
  have made := combinedSchema_eq_ok combined
  have resolves := mappedFields_eq_ok resolved
  clear resolved combined
  induction resolves generalizing schema with
  | nil =>
      cases made
      rfl
  | cons head _ ih =>
      cases made with
      | cons fieldMade later =>
          rw [Schema.names, List.map_cons, List.map_cons, fieldMade.1, head.name]
          exact congrArg _ (ih later)

/-- If any two domains can be combined, the fields of a set operation can be. -/
theorem exists_combinedSchema (known : left.Pairs right mapping)
    (combines : ∀ first second, ∃ domain, combine first second = .ok domain) :
    ∃ fields schema, left.mappedFields right mapping = .ok fields ∧
      combinedSchema fields combine = .ok schema := by
  obtain ⟨fields, resolved⟩ := exists_mappedFields known
  obtain ⟨schema, combined⟩ : ∃ schema, combinedSchema fields combine = .ok schema := by
    refine exists_mapM_eq_ok fun entry _ => ?_
    obtain ⟨domain, made⟩ := combines entry.leftDomain entry.rightDomain
    exact ⟨⟨entry.name, domain⟩, by simp only [made]⟩
  exact ⟨fields, schema, resolved, combined⟩

/-- A set operation gets as far as its fields if any two domains can be combined, and their names
differ if those of the mapping do. So it succeeds. -/
theorem exists_setOperation (distinct : (mapping.map Prod.fst).Nodup)
    (known : left.Pairs right mapping)
    (combines : ∀ first second, ∃ domain, combine first second = .ok domain) (word : String)
    (gather : List Tuple → List Tuple → List Tuple) :
    ∃ result, left.setOperation right word combine gather mapping = .ok result := by
  obtain ⟨fields, schema, resolved, combined⟩ := exists_combinedSchema known combines
  rw [← names_eq_of_combinedSchema resolved combined] at distinct
  exact ⟨_, setOperation_eq_ok.mpr
    ⟨fields, schema, resolved, combined, ofTuples_eq_ok_iff.mpr ⟨distinct, rfl⟩⟩⟩

/-- A set operation has the left names of the mapping, and gathers the columns that the mapping
names. -/
theorem columns_of_setOperation (leftShape : left.WellFormed) (rightShape : right.WellFormed)
    {word : String} {gather : List Tuple → List Tuple → List Tuple}
    (made : left.setOperation right word combine gather mapping = .ok result) :
    result.schema.names = mapping.map Prod.fst ∧
      result.tuples =
        gather (left.columns (mapping.map Prod.fst)) (right.columns (mapping.map Prod.snd)) := by
  obtain ⟨fields, schema, resolved, combined, rebuilt⟩ := setOperation_eq_ok.mp made
  rw [(ofTuples_eq_ok_iff.mp rebuilt).2, ← leftTuples_eq_columns leftShape.names_nodup resolved,
    ← rightTuples_eq_columns rightShape.names_nodup resolved]
  exact ⟨names_eq_of_combinedSchema resolved combined, rfl⟩

/-! ## Identities -/

theorem contains_congr {tuples : List Tuple} {first second : Tuple}
    (same : (first == second) = true) : tuples.contains first = tuples.contains second := by
  rw [Bool.eq_iff_iff, List.contains_iff_exists_mem_beq, List.contains_iff_exists_mem_beq]
  constructor
  · intro ⟨other, member, equal⟩
    exact ⟨other, member, PartialEquivBEq.trans (BEq.symm same) equal⟩
  · intro ⟨other, member, equal⟩
    exact ⟨other, member, PartialEquivBEq.trans same equal⟩

/-- A test that cannot tell equal tuples apart decides which tuples of a list are kept. -/
theorem contains_filter {tuples : List Tuple} {keep : Tuple → Bool} {tuple : Tuple}
    (congruent : ∀ other, (tuple == other) = true → keep tuple = keep other)
    (member : tuple ∈ tuples) : (tuples.filter keep).contains tuple = keep tuple := by
  rw [Bool.eq_iff_iff, List.contains_iff_exists_mem_beq]
  constructor
  · intro ⟨other, kept, equal⟩
    rw [congruent other equal]
    exact (List.mem_filter.mp kept).2
  · intro kept
    exact ⟨tuple, List.mem_filter.mpr ⟨member, kept⟩, BEq.rfl⟩

/-- What is left without the tuples that the others lack is what the others have. -/
theorem filter_not_contains_filter (tuples others : List Tuple) :
    (tuples.filter fun tuple =>
        !(tuples.filter fun tuple => !others.contains tuple).contains tuple) =
      tuples.filter fun tuple => others.contains tuple := by
  apply List.filter_congr
  intro tuple member
  rw [contains_filter (fun other same => congrArg not (contains_congr same)) member, Bool.not_not]

theorem pairs_identityMapping {names : List String}
    (inLeft : ∀ name ∈ names, name ∈ left.schema.names)
    (inRight : ∀ name ∈ names, name ∈ right.schema.names) :
    left.Pairs right (identityMapping names) := by
  intro pair member
  obtain ⟨name, listed, rfl⟩ := List.mem_map.mp member
  exact ⟨inLeft name listed, inRight name listed⟩

theorem map_fst_identityMapping (names : List String) :
    (identityMapping names).map Prod.fst = names := by
  rw [identityMapping, List.map_map]
  exact List.map_id names

theorem map_snd_identityMapping (names : List String) :
    (identityMapping names).map Prod.snd = names := by
  rw [identityMapping, List.map_map]
  exact List.map_id names

/-- Under a mapping that names fields, each left field at most once, unions and differences succeed.
A union has the left columns and then the right ones without later repetitions. Each row of the left
columns is either in the intersection, if it is among the right columns, or else in the difference,
and the order of the rows is kept. The difference with the difference has the rows of the
intersection. -/
theorem setOperations_columns (leftReachable : left.Reachable) (rightReachable : right.Reachable)
    (distinct : (mapping.map Prod.fst).Nodup) (known : left.Pairs right mapping) :
    let lefts := left.columns (mapping.map Prod.fst)
    let rights := right.columns (mapping.map Prod.snd)
    (∃ united, left.union right mapping = .ok united ∧
      united.tuples = (lefts ++ rights).eraseDups) ∧
    ∃ rest kept, left.diff right mapping = .ok rest ∧
      left.diff rest (identityMapping (mapping.map Prod.fst)) = .ok kept ∧
      lefts.partition (rights.contains ·) = (kept.tuples, rest.tuples) ∧
      ∀ shared, left.inter right mapping = .ok shared →
        shared.tuples = kept.tuples ∧
          shared.tuples.length + rest.tuples.length = left.tuples.length := by
  intro lefts rights
  have leftShape := leftReachable.wellFormed
  have rightShape := rightReachable.wellFormed
  obtain ⟨united, unites⟩ : ∃ united, left.union right mapping = .ok united :=
    exists_setOperation distinct known Domain.exists_union _ _
  obtain ⟨rest, subtracted⟩ : ∃ rest, left.diff right mapping = .ok rest :=
    exists_setOperation distinct known Domain.exists_diff _ _
  obtain ⟨names, restTuples⟩ := columns_of_setOperation leftShape rightShape subtracted
  have restShape : rest.WellFormed :=
    Reachable.wellFormed (.combine (.diff mapping) trivial leftReachable rightReachable subtracted)
  have inLeft : ∀ name ∈ mapping.map Prod.fst, name ∈ left.schema.names := by
    intro name member
    obtain ⟨pair, listed, rfl⟩ := List.mem_map.mp member
    exact (known pair listed).1
  have inRest : ∀ name ∈ mapping.map Prod.fst, name ∈ rest.schema.names := by
    rw [names]
    exact fun name member => member
  have wholeRows : rest.columns (mapping.map Prod.fst) = rest.tuples := by
    rw [← names]
    exact columns_names restShape
  obtain ⟨kept, againSubtracted⟩ :
      ∃ kept, left.diff rest (identityMapping (mapping.map Prod.fst)) = .ok kept :=
    exists_setOperation (by rwa [map_fst_identityMapping]) (pairs_identityMapping inLeft inRest)
      Domain.exists_diff _ _
  obtain ⟨-, keptTuples⟩ := columns_of_setOperation leftShape restShape againSubtracted
  rw [map_fst_identityMapping, map_snd_identityMapping, wholeRows, restTuples,
    filter_not_contains_filter] at keptTuples
  have parted : lefts.partition (rights.contains ·) = (kept.tuples, rest.tuples) := by
    rw [List.partition_eq_filter_filter, keptTuples, restTuples]
    rfl
  obtain ⟨-, unitedTuples⟩ := columns_of_setOperation leftShape rightShape unites
  rw [OrderedSet.items_ofList] at unitedTuples
  refine ⟨⟨united, unites, unitedTuples⟩, rest, kept, subtracted, againSubtracted, parted, ?_⟩
  intro shared made
  obtain ⟨-, sharedTuples⟩ := columns_of_setOperation leftShape rightShape made
  refine ⟨sharedTuples.trans keptTuples.symm, ?_⟩
  have lengths : left.tuples.length = lefts.length := (List.length_map _).symm
  rw [sharedTuples, restTuples, lengths,
    List.length_eq_length_filter_add (l := lefts) fun tuple => rights.contains tuple]

/-- Repeated samples stay repeated in the intersection and in the difference, but not in the
union. -/
theorem setOperations_samples_marks :
    (∃ united, samples.union marks [("x", "y")] = .ok united ∧
      united.tuples = [[.int 1], [.int 7], [.str "z"]]) ∧
    ∃ rest kept, samples.diff marks [("x", "y")] = .ok rest ∧
      samples.diff rest [("x", "x")] = .ok kept ∧
      kept.tuples = [[.int 1], [.int 1]] ∧ rest.tuples = [[.int 7], [.int 7]] ∧
      samples.inter marks [("x", "y")] = .ok ⟨"A intersection B", [.any "x"], kept.tuples⟩ := by
  have known : samples.Pairs marks [("x", "y")] := by
    intro pair member
    rw [List.mem_singleton.mp member]
    decide
  obtain ⟨⟨united, unites, appended⟩, rest, kept, subtracted, again, parted, shared⟩ :=
    setOperations_columns reachable_samples reachable_marks (by decide) known
  have intersected : samples.inter marks [("x", "y")] =
      .ok ⟨"A intersection B", [.any "x"], [[.int 1], [.int 1]]⟩ := by rfl
  obtain ⟨keptTuples, restTuples⟩ := Prod.mk.inj (parted.symm.trans (by rfl) :
    (kept.tuples, rest.tuples) = ([[.int 1], [.int 1]], [[.int 7], [.int 7]]))
  refine ⟨⟨united, unites, appended.trans (by rfl)⟩, rest, kept, subtracted, again, keptTuples,
    restTuples, ?_⟩
  rw [← (shared _ intersected).1]
  exact intersected

end TypedRelations.Relation
