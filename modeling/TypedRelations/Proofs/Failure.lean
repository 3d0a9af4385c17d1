import TypedRelations.Proofs.Derivation
import TypedRelations.Proofs.Domain.Intersection

/-!
# No operation meets constraints of different kinds

Combining constraints of different kinds is an error of its own. Domains only combine constraints
that they have paired by kind, so no operation on domains, fields or relations fails with it.
-/

namespace TypedRelations

open Constraint (Clash)

/-- The error says that two constraints are of different kinds. -/
def Error.isMismatch : Error → Bool
  | .clash (.kinds ..) => true
  | _ => false

namespace Domain

theorem failsOnly_union (left right : Domain) :
    FailsOnly (Clash.isEmptyRange · = true) (left.union right) := by
  obtain ⟨combined, made⟩ := exists_union left right
  rw [made]
  exact .ok combined

theorem failsOnly_inter (left right : Domain) :
    FailsOnly (Clash.isEmptyRange · = true) (left.inter right) :=
  fun _ => isEmptyRange_of_inter_eq_error

theorem failsOnly_diff (left right : Domain) :
    FailsOnly (Clash.isEmptyRange · = true) (left.diff right) := by
  obtain ⟨combined, made⟩ := exists_diff left right
  rw [made]
  exact .ok combined

end Domain

namespace Field

theorem failsOnly_union (left right : Field) :
    FailsOnly (Clash.isEmptyRange · = true) (left.union right) :=
  (Domain.failsOnly_union _ _).bind fun _ => .ok _

theorem failsOnly_inter (left right : Field) :
    FailsOnly (Clash.isEmptyRange · = true) (left.inter right) :=
  (Domain.failsOnly_inter _ _).bind fun _ => .ok _

end Field

namespace Condition

theorem failsOnly_parse (source : String) : FailsOnly (·.isMismatch = false) (parse source) := by
  rw [parse]
  split
  · exact .ok _
  · exact .error rfl

theorem failsOnly_evaluate (condition : Condition) (scope : Scope) :
    FailsOnly (·.isMismatch = false) (condition.evaluate scope) := by
  rw [evaluate]
  split
  · exact .ok _
  · exact .error rfl
  · exact .error rfl

end Condition

namespace Relation

variable (relation left right : Relation)

theorem failsOnly_ofTuples (name : String) (schema : Schema) (tuples : List Tuple) :
    FailsOnly (·.isMismatch = false) (ofTuples name schema tuples) := by
  rw [ofTuples]
  split
  · exact .error rfl
  · exact .ok _

theorem failsOnly_position (name : String) :
    FailsOnly (·.isMismatch = false) (relation.position name) := by
  rw [position]
  split
  · exact .ok _
  · exact .error rfl

theorem failsOnly_checkEntries (given : List String) (entries : List (String × Value)) :
    FailsOnly (·.isMismatch = false) (relation.checkEntries given entries) := by
  induction entries generalizing given with
  | nil => exact .ok _
  | cons entry rest ih =>
      rw [checkEntries]
      split
      · exact .error rfl
      · split
        · exact .error rfl
        · split
          · exact .error rfl
          · exact ih _

theorem failsOnly_insert (entries : List (String × Value)) :
    FailsOnly (·.isMismatch = false) (relation.insert entries) := by
  rw [insert]
  split
  · exact .error rfl
  · refine (failsOnly_checkEntries relation [] entries).bind fun _ => ?_
    split
    · exact .error rfl
    · exact .ok _

theorem failsOnly_insertFlat (arguments : List Value) :
    FailsOnly (·.isMismatch = false) (relation.insertFlat arguments) := by
  rw [insertFlat]
  split
  · exact failsOnly_insert relation _
  · exact .error rfl

theorem failsOnly_keepWhere {test : Tuple → Except Error Bool}
    (testFails : ∀ tuple, FailsOnly (·.isMismatch = false) (test tuple)) (tuples : List Tuple) :
    FailsOnly (·.isMismatch = false) (keepWhere test tuples) := by
  induction tuples with
  | nil => exact .ok _
  | cons tuple rest ih => exact (testFails tuple).bind fun _ => ih.bind fun _ => .ok _

theorem failsOnly_select (predicate : String) :
    FailsOnly (·.isMismatch = false) (relation.select predicate) := by
  refine (Condition.failsOnly_parse predicate).bind fun condition => ?_
  refine (failsOnly_keepWhere ?_ relation.tuples).bind fun _ => .ok _
  exact fun tuple => Condition.failsOnly_evaluate condition _

theorem failsOnly_project (names : List String) :
    FailsOnly (·.isMismatch = false) (relation.project names) := by
  rw [project]
  split
  · exact .error rfl
  · exact .ok _

theorem Operation.failsOnly (operation : Operation) :
    FailsOnly (·.isMismatch = false) (operation.apply relation) := by
  cases operation with
  | insert entries => exact failsOnly_insert relation entries
  | insertFlat arguments => exact failsOnly_insertFlat relation arguments
  | copy => exact .ok _
  | renamed name => exact .ok _
  | qualified qualifier => exact .ok _
  | unqualified qualifier => exact failsOnly_ofTuples _ _ _
  | select predicate => exact failsOnly_select relation predicate
  | project names => exact failsOnly_project relation names

theorem failsOnly_product : FailsOnly (·.isMismatch = false) (left.product right) :=
  failsOnly_ofTuples _ _ _

theorem failsOnly_thetaJoin (predicate : String) :
    FailsOnly (·.isMismatch = false) (left.thetaJoin right predicate) :=
  (failsOnly_product left right).bind fun combined => failsOnly_select combined predicate

theorem failsOnly_equiJoin (leftField rightField : String) :
    FailsOnly (·.isMismatch = false) (left.equiJoin right leftField rightField) :=
  (failsOnly_position left leftField).bind fun _ =>
    (failsOnly_position right rightField).bind fun _ => failsOnly_thetaJoin left right _

theorem failsOnly_droppedColumns (pairs : List (String × String)) :
    FailsOnly (·.isMismatch = false) (left.droppedColumns right pairs) :=
  .mapM fun _ _ => (failsOnly_position left _).bind fun _ =>
    (failsOnly_position right _).bind fun _ => .ok _

theorem failsOnly_joinOn (pairs : List (String × String)) :
    FailsOnly (·.isMismatch = false) (left.joinOn right pairs) := by
  rw [joinOn]
  split
  · exact failsOnly_product left right
  · exact failsOnly_thetaJoin left right _

theorem failsOnly_naturalJoin (pairs? : Option (List (String × String))) :
    FailsOnly (·.isMismatch = false) (left.naturalJoin right pairs?) :=
  (failsOnly_droppedColumns left right _).bind fun _ =>
    (failsOnly_joinOn left right _).bind fun _ => failsOnly_ofTuples _ _ _

theorem failsOnly_outerJoin (predicate : String) (side : Side) :
    FailsOnly (·.isMismatch = false) (left.outerJoin right predicate side) :=
  (failsOnly_thetaJoin left right predicate).bind fun _ => .ok _

theorem failsOnly_mapped (name : String) :
    FailsOnly (·.isMismatch = false) (relation.mapped name) := by
  rw [mapped]
  split
  · exact .ok _
  · exact .error rfl

theorem failsOnly_mappedFields (mapping : List (String × String)) :
    FailsOnly (·.isMismatch = false) (left.mappedFields right mapping) :=
  .mapM fun _ _ => (failsOnly_mapped left _).bind fun _ =>
    (failsOnly_mapped right _).bind fun _ => .ok _

/-- A clash that a set operation reports is the clash of two domains. -/
theorem failsOnly_combinedSchema {combine : Domain → Domain → Except Clash Domain}
    (combineFails : ∀ first second, FailsOnly (Clash.isEmptyRange · = true) (combine first second))
    (fields : List MappedField) :
    FailsOnly (·.isMismatch = false) (combinedSchema fields combine) := by
  refine .mapM fun entry _ => ?_
  split
  · exact .ok _
  next clash failed =>
    have empty := combineFails _ _ clash failed
    cases clash with
    | kinds => cases empty
    | lengths => exact .error rfl
    | ranges => exact .error rfl

theorem failsOnly_setOperation {combine : Domain → Domain → Except Clash Domain}
    (combineFails : ∀ first second, FailsOnly (Clash.isEmptyRange · = true) (combine first second))
    (word : String) (gather : List Tuple → List Tuple → List Tuple)
    (mapping : List (String × String)) :
    FailsOnly (·.isMismatch = false) (left.setOperation right word combine gather mapping) :=
  (failsOnly_mappedFields left right mapping).bind fun fields =>
    (failsOnly_combinedSchema combineFails fields).bind fun _ => failsOnly_ofTuples _ _ _

theorem Combination.failsOnly (combination : Combination) :
    FailsOnly (·.isMismatch = false) (combination.apply left right) := by
  cases combination with
  | product => exact failsOnly_product left right
  | thetaJoin predicate => exact failsOnly_thetaJoin left right predicate
  | equiJoin leftField rightField => exact failsOnly_equiJoin left right leftField rightField
  | naturalJoin pairs? => exact failsOnly_naturalJoin left right pairs?
  | fullOuterJoin predicate => exact failsOnly_outerJoin left right predicate .both
  | leftOuterJoin predicate => exact failsOnly_outerJoin left right predicate .left
  | rightOuterJoin predicate => exact failsOnly_outerJoin left right predicate .right
  | union mapping =>
      rw [apply, Relation.union]
      exact failsOnly_setOperation left right Domain.failsOnly_union _ _ mapping
  | inter mapping =>
      rw [apply, Relation.inter]
      exact failsOnly_setOperation left right Domain.failsOnly_inter _ _ mapping
  | diff mapping =>
      rw [apply, Relation.diff]
      exact failsOnly_setOperation left right Domain.failsOnly_diff _ _ mapping

end Relation

end TypedRelations
