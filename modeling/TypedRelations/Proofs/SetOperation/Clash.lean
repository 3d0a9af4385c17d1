import TypedRelations.Proofs.Failure
import TypedRelations.Proofs.SetOperation

/-!
# When set operations fail

Under a mapping that names fields, each left field at most once, nothing is left to go wrong but the
combination of domains. Unions and differences of domains always exist, and intersections unless two
paired constraints are apart, whatever the domains are.
-/

namespace TypedRelations.Relation

variable {left right : Relation} {mapping : List (String × String)} {fields : List MappedField}

/-- The mapping pairs two fields with domains that are apart. -/
def ApartUnder (left right : Relation) (mapping : List (String × String)) : Prop :=
  ∃ pair ∈ mapping, ∃ leftField rightField,
    left.schema.find? pair.1 = some leftField ∧ right.schema.find? pair.2 = some rightField ∧
      leftField.domain.Apart rightField.domain

/-- Two relations are apart under a mapping if the domains of a pair that it is resolved to are. -/
theorem apartUnder_iff (resolved : left.mappedFields right mapping = .ok fields) :
    left.ApartUnder right mapping ↔ ∃ entry ∈ fields, entry.leftDomain.Apart entry.rightDomain := by
  have resolves := mappedFields_eq_ok resolved
  constructor
  · rintro ⟨pair, member, leftField, rightField, leftFound, rightFound, apart⟩
    obtain ⟨entry, inFields, entryResolves⟩ := exists_left_of_forall₂ resolves.flip member
    obtain ⟨first, -, firstFound, firstDomain⟩ := entryResolves.left
    obtain ⟨second, -, secondFound, secondDomain⟩ := entryResolves.right
    refine ⟨entry, inFields, ?_⟩
    rw [← firstDomain, ← secondDomain, Option.some.inj (firstFound.symm.trans leftFound),
      Option.some.inj (secondFound.symm.trans rightFound)]
    exact apart
  · rintro ⟨entry, inFields, apart⟩
    obtain ⟨pair, member, entryResolves⟩ := exists_left_of_forall₂ resolves inFields
    obtain ⟨first, -, firstFound, firstDomain⟩ := entryResolves.left
    obtain ⟨second, -, secondFound, secondDomain⟩ := entryResolves.right
    rw [← firstDomain, ← secondDomain] at apart
    exact ⟨pair, member, first, second, firstFound, secondFound, apart⟩

/-- The fields of an intersection can be made unless two domains are apart. -/
theorem combinedSchema_inter_eq_ok_or_error (fields : List MappedField) :
    ((¬ ∃ entry ∈ fields, entry.leftDomain.Apart entry.rightDomain) ∧
        ∃ schema, combinedSchema fields Domain.inter = .ok schema) ∨
      ((∃ entry ∈ fields, entry.leftDomain.Apart entry.rightDomain) ∧
        ∃ clash, clash.isEmptyRange = true ∧
          combinedSchema fields Domain.inter = .error (.clash clash)) := by
  cases result : combinedSchema fields Domain.inter with
  | ok schema =>
      refine .inl ⟨?_, schema, rfl⟩
      rintro ⟨entry, member, apart⟩
      obtain ⟨field, -, -, made⟩ :=
        exists_left_of_forall₂ (combinedSchema_eq_ok result).flip member
      rcases Domain.inter_eq_ok_or_error entry.leftDomain entry.rightDomain with
        ⟨common, -⟩ | ⟨-, clash, -, failed⟩
      · exact common apart
      · cases made.symm.trans failed
  | error failure =>
      obtain ⟨entry, member, failed⟩ := exists_of_mapM_eq_error result
      rcases Domain.inter_eq_ok_or_error entry.leftDomain entry.rightDomain with
        ⟨-, domain, made⟩ | ⟨apart, clash, empty, clashes⟩
      · simp only [made] at failed
        cases failed
      · simp only [clashes] at failed
        exact .inr ⟨⟨entry, member, apart⟩, clash, empty,
          congrArg Except.error (Except.error.inj failed).symm⟩

/-- Relations have an intersection under a mapping unless they are apart under it. -/
theorem inter_eq_ok_or_error (distinct : (mapping.map Prod.fst).Nodup)
    (known : left.Pairs right mapping) :
    (¬ left.ApartUnder right mapping ∧ ∃ shared, left.inter right mapping = .ok shared) ∨
      (left.ApartUnder right mapping ∧ ∃ clash, clash.isEmptyRange = true ∧
        left.inter right mapping = .error (.clash clash)) := by
  obtain ⟨fields, resolved⟩ := exists_mappedFields known
  rw [apartUnder_iff resolved]
  refine (combinedSchema_inter_eq_ok_or_error fields).imp ?_ ?_
  · rintro ⟨common, schema, combined⟩
    rw [← names_eq_of_combinedSchema resolved combined] at distinct
    exact ⟨common, _, setOperation_eq_ok.mpr
      ⟨fields, schema, resolved, combined, ofTuples_eq_ok_iff.mpr ⟨distinct, rfl⟩⟩⟩
  · rintro ⟨apart, clash, empty, failed⟩
    exact ⟨apart, clash, empty,
      bind_eq_error.mpr (.inr ⟨fields, resolved, bind_eq_error.mpr (.inl failed)⟩)⟩

/-- Under a mapping that names fields, each left field at most once, unions and differences succeed,
and an intersection either succeeds or finds that two intervals have nothing in common, the latter
exactly if the relations are apart under the mapping. And no operation on domains, fields or
relations whatsoever fails for constraints of different kinds. -/
theorem setOperations_outcomes :
    (∀ (left right : Relation) (mapping : List (String × String)),
      (mapping.map Prod.fst).Nodup → left.Pairs right mapping →
        (∃ united, left.union right mapping = .ok united) ∧
        (∃ rest, left.diff right mapping = .ok rest) ∧
        ((∃ shared, left.inter right mapping = .ok shared) ∨
          ∃ clash, clash.isEmptyRange = true ∧
            left.inter right mapping = .error (.clash clash)) ∧
        ((∃ clash, clash.isEmptyRange = true ∧
          left.inter right mapping = .error (.clash clash)) ↔ left.ApartUnder right mapping)) ∧
    (∀ left right : Domain,
      FailsOnly (·.isEmptyRange = true) (left.union right) ∧
      FailsOnly (·.isEmptyRange = true) (left.inter right) ∧
      FailsOnly (·.isEmptyRange = true) (left.diff right)) ∧
    (∀ left right : Field,
      FailsOnly (·.isEmptyRange = true) (left.union right) ∧
      FailsOnly (·.isEmptyRange = true) (left.inter right)) ∧
    (∀ name schema, FailsOnly (·.isMismatch = false) (Relation.empty name schema)) ∧
    (∀ (relation : Relation) (operation : Operation),
      FailsOnly (·.isMismatch = false) (operation.apply relation)) ∧
    ∀ (left right : Relation) (combination : Combination),
      FailsOnly (·.isMismatch = false) (combination.apply left right) := by
  refine ⟨fun left right mapping distinct known => ?_, fun left right => ?_, fun left right => ?_,
    fun name schema => failsOnly_ofTuples name schema [], Operation.failsOnly,
    Combination.failsOnly⟩
  · refine ⟨exists_setOperation distinct known Domain.exists_union _ _,
      exists_setOperation distinct known Domain.exists_diff _ _, ?_⟩
    rcases inter_eq_ok_or_error distinct known with
      ⟨common, shared, made⟩ | ⟨apart, clash, empty, failed⟩
    · refine ⟨.inl ⟨shared, made⟩, ?_, fun apart => absurd apart common⟩
      rintro ⟨clash, -, failed⟩
      cases made.symm.trans failed
    · exact ⟨.inr ⟨clash, empty, failed⟩, fun _ => apart, fun _ => ⟨clash, empty, failed⟩⟩
  · exact ⟨Domain.failsOnly_union left right, Domain.failsOnly_inter left right,
      Domain.failsOnly_diff left right⟩
  · exact ⟨Field.failsOnly_union left right, Field.failsOnly_inter left right⟩

/-- Seats up to five, counted from a bound that is NaN, and at the same time from eight to nine. -/
def seat : Field :=
  ⟨"seat", Domain.any.withConstraints [.range ⟨0x7FF8000000000000⟩ 5, .range 8 9]⟩

/-- Places from one to seven. -/
def place : Field := ⟨"place", Domain.any.withConstraints [.range 1 7]⟩

/-- Seats that are not numbered, so that no range is asked. -/
def stalls : Relation := ⟨"stalls", [seat], [[.str "aisle"], [.str "box"]]⟩

/-- Places of which one is a seat as well. -/
def balcony : Relation := ⟨"balcony", [place], [[.str "box"], [.str "rail"]]⟩

theorem mappedFields_stalls_balcony :
    stalls.mappedFields balcony [("seat", "place")] =
      .ok [⟨"seat", 0, 0, seat.domain, place.domain⟩] := by
  rfl

/-- The first range of the seats has an intersection with the places, because its NaN is skipped;
the second one has none. The union and the difference do not depend on this. -/
theorem setOperations_outcomes_stalls_balcony :
    (∃ united, stalls.union balcony [("seat", "place")] = .ok united ∧
      united.tuples = [[.str "aisle"], [.str "box"], [.str "rail"]]) ∧
    (∃ rest, stalls.diff balcony [("seat", "place")] = .ok rest ∧
      rest.tuples = [[.str "aisle"]]) ∧
    ∃ clash, clash.isEmptyRange = true ∧
      stalls.inter balcony [("seat", "place")] = .error (.clash clash) := by
  have known : stalls.Pairs balcony [("seat", "place")] := by
    intro pair member
    rw [List.mem_singleton.mp member]
    decide
  have apart : stalls.ApartUnder balcony [("seat", "place")] :=
    ⟨_, List.mem_singleton.mpr rfl, _, _, rfl, rfl, .range 8 9,
      by simp [seat, Domain.withConstraints], .range 1 7, rfl, by decide +kernel⟩
  obtain ⟨⟨united, unites⟩, ⟨rest, subtracts⟩, -, clashes⟩ :=
    setOperations_outcomes.1 stalls balcony [("seat", "place")] (by decide) known
  refine ⟨⟨united, unites, ?_⟩, ⟨rest, subtracts, ?_⟩, clashes.mpr apart⟩
  · obtain ⟨fields, schema, resolved, -, rebuilt⟩ := setOperation_eq_ok.mp unites
    cases mappedFields_stalls_balcony.symm.trans resolved
    rw [(ofTuples_eq_ok_iff.mp rebuilt).2]
    rfl
  · obtain ⟨fields, schema, resolved, -, rebuilt⟩ := setOperation_eq_ok.mp subtracts
    cases mappedFields_stalls_balcony.symm.trans resolved
    rw [(ofTuples_eq_ok_iff.mp rebuilt).2]
    rfl

end TypedRelations.Relation
