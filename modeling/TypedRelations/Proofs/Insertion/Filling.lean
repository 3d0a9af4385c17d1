import TypedRelations.Proofs.Insertion

/-!
# Filling a relation

Rows that differ, with null or an accepted value in every field, can be stored whatever they are:
the relation is created and the rows are inserted one after the other (`Derived.filled`).
-/

namespace TypedRelations

variable {schema : Schema} {tuple : Tuple}

namespace Schema

/-- The pairs whose insertion stores the tuple. Nulls are left out, because a field may reject them
when they are given. -/
def entriesOf (schema : Schema) (tuple : Tuple) : List (String × Value) :=
  (schema.names.zip tuple).filter fun entry => !entry.2.isNull

theorem mem_entriesOf {entry : String × Value} :
    entry ∈ schema.entriesOf tuple ↔
      (∃ position : Nat, schema.names[position]? = some entry.1 ∧
        tuple[position]? = some entry.2) ∧ entry.2.isNull = false := by
  rw [entriesOf, List.mem_filter, List.mem_iff_getElem?]
  simp only [List.getElem?_zip_eq_some, Bool.not_eq_true']

/-- Under the name of a field the tuple has null or a value that the field accepts. -/
theorem Admits.storable (admits : schema.Admits Storable tuple) (distinct : schema.names.Nodup)
    {field : Field} (member : field ∈ schema) {position : Nat}
    (named : schema.names[position]? = some field.name) {value : Value}
    (stored : tuple[position]? = some value) : Storable field.domain value := by
  rcases List.getElem?_of_mem member with ⟨place, listed⟩
  have placed : schema.names[place]? = some field.name := by
    rw [getElem?_names, listed, Option.map_some]
  have found := (position?_eq_some_iff distinct).mpr placed
  rw [(position?_eq_some_iff distinct).mpr named] at found
  have related := forall₂_getElem? admits position
  rw [Option.some.inj found, listed, ← Option.some.inj found, stored] at related
  cases related with
  | some storable => exact storable

theorem entriesOf_sublist (width : tuple.length = schema.length) :
    ((schema.entriesOf tuple).map Prod.fst).Sublist schema.names := by
  have all : (schema.names.zip tuple).map Prod.fst = schema.names :=
    List.map_fst_zip (Nat.le_of_eq ((List.length_map Field.name).trans width.symm))
  rw [← all]
  exact List.filter_sublist.map Prod.fst

/-- A tuple that a schema admits is stored by pairs that the schema takes. -/
theorem takes_entriesOf (distinct : schema.names.Nodup) (admits : schema.Admits Storable tuple) :
    schema.Takes (schema.entriesOf tuple) where
  known entry member := by
    obtain ⟨⟨position, named, -⟩, -⟩ := mem_entriesOf.mp member
    exact List.mem_of_getElem? named
  distinct := distinct.sublist (entriesOf_sublist admits.length_eq)
  accepted entry member field inSchema same := by
    obtain ⟨⟨position, named, stored⟩, notNull⟩ := mem_entriesOf.mp member
    rcases admits.storable distinct inSchema (same ▸ named) stored with null | accepted
    · exact absurd null (Bool.eq_false_iff.mp notNull)
    · exact accepted

end Schema

namespace Relation

variable {relation : Relation} {repertoire : Repertoire}

theorem isRowOf_entriesOf (distinct : relation.schema.names.Nodup)
    (width : tuple.length = relation.schema.length) :
    relation.IsRowOf (relation.schema.entriesOf tuple) tuple where
  width := width
  given entry member := by
    obtain ⟨⟨position, named, stored⟩, -⟩ := Schema.mem_entriesOf.mp member
    exact (get?_eq_getElem? distinct named tuple).trans stored
  unnamed name member unnamed := by
    obtain ⟨value, found⟩ := exists_get? width member
    obtain ⟨position, named⟩ := List.getElem?_of_mem member
    have stored := (get?_eq_getElem? distinct named tuple).symm.trans found
    cases null : value.isNull with
    | true =>
        cases value with
        | null => exact found
        | _ => nomatch null
    | false =>
        have given : (name, value) ∈ relation.schema.entriesOf tuple :=
          Schema.mem_entriesOf.mpr ⟨⟨position, named, stored⟩, null⟩
        exact absurd (List.mem_map_of_mem given) unnamed

/-- A tuple that a relation admits and does not have can be inserted. -/
theorem insert_entriesOf (distinct : relation.schema.names.Nodup)
    (admits : relation.schema.Admits Storable tuple)
    (fresh : relation.tuples.contains tuple = false) :
    relation.insert (relation.schema.entriesOf tuple) =
      .ok { relation with tuples := relation.tuples ++ [tuple] } := by
  have listed := (Schema.entriesOf_sublist admits.length_eq).length_le
  rw [List.length_map, Schema.names, List.length_map] at listed
  have inserts : relation.Inserts (relation.schema.entriesOf tuple) tuple :=
    ⟨listed, Schema.takes_entriesOf distinct admits, isRowOf_entriesOf distinct admits.length_eq,
      fresh⟩
  exact (insert_eq_ok_iff distinct).mpr ⟨tuple, inserts, rfl⟩

/-- A relation whose rows differ and have null or an accepted value in every field is built up by
creating it and inserting its rows. -/
theorem Derived.filled {name : String} {tuples : List Tuple}
    (created : repertoire.creates name schema)
    (inserts : ∀ tuple ∈ tuples, repertoire.applies (.insert (schema.entriesOf tuple)))
    (distinct : schema.names.Nodup) (admits : ∀ tuple ∈ tuples, schema.Admits Storable tuple)
    (differ : tuples.Pairwise fun first second => (first == second) = false) :
    Derived repertoire ⟨name, schema, tuples⟩ := by
  induction tuples using List.reverseRecOn with
  | nil => exact derived_empty created distinct
  | append_singleton before tuple ih =>
      rw [List.forall_mem_append, List.forall_mem_singleton] at inserts admits
      obtain ⟨differBefore, -, differLast⟩ := List.pairwise_append.mp differ
      have earlier : Derived repertoire ⟨name, schema, before⟩ :=
        ih inserts.1 admits.1 differBefore
      have fresh : before.contains tuple = false := by
        rw [List.contains_eq_any_beq, List.any_eq_false]
        intro other member
        rw [BEq.comm, differLast other member tuple List.mem_cons_self]
        exact Bool.false_ne_true
      have stored : Relation.insert ⟨name, schema, before⟩ (schema.entriesOf tuple) = _ :=
        insert_entriesOf distinct admits.2 fresh
      exact .apply (.insert _) inserts.2 earlier stored

/-- Any calls can build up such a relation. -/
theorem reachable_of_rows {name : String} {tuples : List Tuple} (distinct : schema.names.Nodup)
    (admits : ∀ tuple ∈ tuples, schema.Admits Storable tuple)
    (differ : tuples.Pairwise fun first second => (first == second) = false) :
    Reachable ⟨name, schema, tuples⟩ :=
  .filled trivial (fun _ _ => trivial) distinct admits differ

end Relation

end TypedRelations
