import Mathlib.Data.List.Duplicate
import TypedRelations.Proofs.Insertion.Filling

/-!
# Putting qualifiers on and taking them off

Taking a qualifier off again gives the relation back, whatever the names and the qualifier look
like. Taking it off a relation that has other names as well is refused exactly if two of its names
become the same, and otherwise changes only the names that have it (`Reachable.qualifierLaws`).
-/

namespace TypedRelations

/-- What becomes of a name when a qualifier is taken off. The qualifier and the dot behind it go
once, even if what is left begins with them again, and a name that does not begin with them stays as
it is. -/
inductive Sheds (qualifier : String) : String → String → Prop where
  | qualified (name : String) : Sheds qualifier (qualify qualifier name) name
  | unqualified {name : String} (free : ∀ rest, name ≠ qualify qualifier rest) :
      Sheds qualifier name name

/-- The name without the qualifier, if it has it. -/
def shortName (qualifier name : String) : String := (unqualify? qualifier name).getD name

theorem sheds_iff {qualifier name short : String} :
    Sheds qualifier name short ↔ shortName qualifier name = short := by
  constructor
  · rintro (_ | free)
    · rw [shortName, unqualify?_qualify, Option.getD_some]
    · rw [shortName, unqualify?_eq_none_iff.mpr free, Option.getD_none]
  · rintro rfl
    rw [shortName]
    cases unqualified : unqualify? qualifier name with
    | none => exact .unqualified (unqualify?_eq_none_iff.mp unqualified)
    | some rest =>
        rw [unqualify?_eq_some_iff.mp unqualified]
        exact .qualified rest

namespace Schema

theorem names_unqualified (schema : Schema) (qualifier : String) :
    (schema.unqualified qualifier).names = schema.names.map (shortName qualifier) := by
  simp [names, unqualified, shortName, Function.comp_def]

theorem unqualified_qualified (schema : Schema) (qualifier : String) :
    (schema.qualified qualifier).unqualified qualifier = schema := by
  simp [qualified, unqualified, Function.comp_def]

/-- Only the names of the fields change, each to what is left of it. -/
theorem forall₂_unqualified (schema : Schema) (qualifier : String) :
    List.Forall₂ (fun field shed => shed.domain = field.domain ∧
      Sheds qualifier field.name shed.name) schema (schema.unqualified qualifier) := by
  rw [unqualified, List.forall₂_map_right_iff, List.forall₂_same]
  exact fun field _ => ⟨rfl, sheds_iff.mpr rfl⟩

end Schema

namespace Relation

variable {relation : Relation} {qualifier : String}

/-- Putting a qualifier on and taking it off again gives the relation back. -/
theorem unqualified_qualified (distinct : relation.schema.names.Nodup) (qualifier : String) :
    (relation.qualified qualifier).unqualified qualifier = .ok relation := by
  refine ofTuples_eq_ok_iff.mpr ⟨?_, ?_⟩
  · rwa [qualified, Schema.unqualified_qualified]
  · rw [qualified, Schema.unqualified_qualified]

/-- Two fields have the same name after the qualifier has been taken off. -/
def MergesInto (relation : Relation) (qualifier short : String) : Prop :=
  ∃ first ∈ relation.schema.names, ∃ second ∈ relation.schema.names, first ≠ second ∧
    Sheds qualifier first short ∧ Sheds qualifier second short

/-- A name that appears twice among what is left of different names comes from two of them. -/
theorem mergesInto_of_duplicate (distinct : relation.schema.names.Nodup) {short : String}
    (twice : List.Duplicate short (relation.schema.names.map (shortName qualifier))) :
    relation.MergesInto qualifier short := by
  obtain ⟨names, sublist, same⟩ := List.sublist_map_iff.mp (List.duplicate_iff_sublist.mp twice)
  obtain ⟨first, rest, rfl, isFirst, later⟩ := List.map_eq_cons_iff.mp same.symm
  obtain ⟨second, rest, rfl, isSecond, -⟩ := List.map_eq_cons_iff.mp later
  have differ : first ≠ second := by
    have apart := (List.nodup_cons.mp (distinct.sublist sublist)).1
    exact fun same => apart (same ▸ List.mem_cons_self)
  exact ⟨first, sublist.subset List.mem_cons_self, second,
    sublist.subset (List.mem_cons_of_mem _ List.mem_cons_self), differ, sheds_iff.mpr isFirst,
    sheds_iff.mpr isSecond⟩

/-- A relation that cannot do without a qualifier has two names that become one, and this is the
name that is reported. -/
theorem unqualified_eq_error (distinct : relation.schema.names.Nodup) {error : Error}
    (failed : relation.unqualified qualifier = .error error) :
    ∃ short, relation.MergesInto qualifier short ∧
      error = .duplicateField short relation.name := by
  obtain ⟨short, twice, reported⟩ := ofTuples_eq_error failed
  rw [Schema.names_unqualified] at twice
  exact ⟨short, mergesInto_of_duplicate distinct (List.duplicate_iff_two_le_count.mpr twice),
    reported⟩

theorem unqualified_eq_error_iff (distinct : relation.schema.names.Nodup) :
    (∃ error, relation.unqualified qualifier = .error error) ↔
      ∃ short, relation.MergesInto qualifier short := by
  constructor
  · rintro ⟨error, failed⟩
    obtain ⟨short, merges, -⟩ := unqualified_eq_error distinct failed
    exact ⟨short, merges⟩
  · rintro ⟨short, first, isFirst, second, isSecond, differ, firstSheds, secondSheds⟩
    cases made : relation.unqualified qualifier with
    | error error => exact ⟨error, rfl⟩
    | ok result =>
        have apart := (ofTuples_eq_ok_iff.mp made).1
        rw [Schema.names_unqualified] at apart
        have same := (sheds_iff.mp firstSheds).trans (sheds_iff.mp secondSheds).symm
        exact absurd (List.inj_on_of_nodup_map apart isFirst isSecond same) differ

/-- What a qualifier does to a relation when it is put in front of the names, and when it is taken
off those that have it. -/
structure QualifierLaws (relation : Relation) (qualifier : String) : Prop where
  distinct : (relation.qualified qualifier).schema.names.Nodup
  restores : (relation.qualified qualifier).unqualified qualifier = .ok relation
  refuses : (∃ error, relation.unqualified qualifier = .error error) ↔
    ∃ short, relation.MergesInto qualifier short
  reports : ∀ error, relation.unqualified qualifier = .error error →
    ∃ short, relation.MergesInto qualifier short ∧ error = .duplicateField short relation.name
  keeps : ∀ result, relation.unqualified qualifier = .ok result →
    result.name = relation.name ∧ result.tuples = relation.tuples ∧
      List.Forall₂ (fun field shed => shed.domain = field.domain ∧
        Sheds qualifier field.name shed.name) relation.schema result.schema

/-- Putting a qualifier on and taking it off undo each other, and a qualifier can be taken off
unless two names become the same. -/
theorem Reachable.qualifierLaws (reachable : relation.Reachable) (qualifier : String) :
    relation.QualifierLaws qualifier := by
  have distinct := reachable.wellFormed.names_nodup
  constructor
  case distinct => exact Schema.nodup_names_qualified.mpr distinct
  case restores => exact unqualified_qualified distinct qualifier
  case refuses => exact unqualified_eq_error_iff distinct
  case reports => exact fun error failed => unqualified_eq_error distinct failed
  case keeps =>
    intro result made
    rw [(ofTuples_eq_ok_iff.mp made).2]
    exact ⟨rfl, rfl, Schema.forall₂_unqualified relation.schema qualifier⟩

/-- What was written down about an older number, twice. -/
def archive : Relation :=
  ⟨"archive", [.any "old.old.id", .any "old.id", .any "older", .any "old"],
    [[.int 1, .int 2, .null, .str "?"]]⟩

theorem reachable_archive : archive.Reachable :=
  reachable_of_rows (by decide) (by decide) (by decide)

/-- The qualifier goes once from the first name, and it is no part of the last two. It cannot be
taken off a second time, because then there would be two fields of the name `id`. -/
theorem qualifierLaws_archive :
    ∃ result, archive.unqualified "old" = .ok result ∧
      result.schema.names = ["old.id", "id", "older", "old"] ∧
      result.tuples = archive.tuples ∧
      (∃ error, result.unqualified "old" = .error error) ∧
      (result.qualified "old").unqualified "old" = .ok result := by
  have made : archive.unqualified "old" = .ok _ :=
    ofTuples_eq_ok_iff.mpr ⟨by decide, rfl⟩
  have kept := (reachable_archive.qualifierLaws "old").keeps _ made
  have reachable := Derived.apply (.unqualified "old") trivial reachable_archive made
  have laws := Reachable.qualifierLaws reachable "old"
  have shed : Sheds "old" "id" "id" := sheds_iff.mpr (by decide)
  refine ⟨_, made, by rfl, kept.2.1, laws.refuses.mpr ⟨"id", ?_⟩, laws.restores⟩
  exact ⟨"old.id", by decide, "id", by decide, by decide, .qualified "id", shed⟩

end Relation

end TypedRelations
