import TypedRelations.Proofs.Indexed.Combination
import TypedRelations.Proofs.NaturalJoin

/-!
# Calls, access by access

The calls of a client with every access by position checked. On relations within reach all accesses
stay in range (`Reachable.accesses`). This is what the shape of these relations is for: different
names, and rows as wide as the schema.
-/

namespace TypedRelations

namespace Indexed

variable {relation left right : Relation}

/-- What an operation makes of a relation. -/
def apply (relation : Relation) : Relation.Operation → Run Error Relation
  | .insert entries => insert relation entries
  | .insertFlat arguments => insertFlat relation arguments
  | .copy => .ok relation
  | .renamed name => .ok (relation.renamed name)
  | .qualified qualifier => .ok (relation.qualified qualifier)
  | .unqualified qualifier =>
    ofTuples relation.name (relation.schema.unqualified qualifier) relation.tuples
  | .select predicate => select relation predicate
  | .project names => project relation names

/-- What a combination makes of two relations. -/
def combine (left right : Relation) : Relation.Combination → Run Error Relation
  | .product => product left right
  | .thetaJoin predicate => thetaJoin left right predicate
  | .equiJoin leftField rightField => equiJoin left right leftField rightField
  | .naturalJoin pairs? => naturalJoin left right pairs?
  | .fullOuterJoin predicate => outerJoin left right predicate .both
  | .leftOuterJoin predicate => outerJoin left right predicate .left
  | .rightOuterJoin predicate => outerJoin left right predicate .right
  | .union mapping => union left right mapping
  | .inter mapping => inter left right mapping
  | .diff mapping => diff left right mapping

theorem apply_eq (shape : relation.WellFormed) (operation : Relation.Operation) :
    apply relation operation = lift (operation.apply relation) := by
  cases operation with
  | insert entries => exact insert_eq shape entries
  | insertFlat arguments => exact insertFlat_eq shape arguments
  | copy => rfl
  | renamed name => rfl
  | qualified qualifier => rfl
  | unqualified qualifier => exact ofTuples_eq _ _ _
  | select predicate => exact select_eq shape predicate
  | project names => exact project_eq shape names

theorem combine_eq (leftShape : left.WellFormed) (rightShape : right.WellFormed)
    (combination : Relation.Combination) :
    combine left right combination = lift (combination.apply left right) := by
  cases combination with
  | product => exact product_eq left right
  | thetaJoin predicate => exact thetaJoin_eq leftShape rightShape predicate
  | equiJoin leftField rightField => exact equiJoin_eq leftShape rightShape leftField rightField
  | naturalJoin pairs? => exact naturalJoin_eq leftShape rightShape pairs?
  | fullOuterJoin predicate => exact outerJoin_eq leftShape rightShape predicate .both
  | leftOuterJoin predicate => exact outerJoin_eq leftShape rightShape predicate .left
  | rightOuterJoin predicate => exact outerJoin_eq leftShape rightShape predicate .right
  | union mapping => exact union_eq leftShape rightShape mapping
  | inter mapping => exact inter_eq leftShape rightShape mapping
  | diff mapping => exact diff_eq leftShape rightShape mapping

end Indexed

namespace Relation

open Indexed (Run lift)

variable {relation : Relation}

/-- Relations within reach have different names for their fields and rows that are as wide as the
schema. So no access by position is ever out of range: every call on them, every comparison, every
table and every value of a row comes out of the accesses as the library has it, and a call fails
with an error of the library or not at all. -/
theorem Reachable.accesses (reachable : relation.Reachable) :
    relation.schema.names.Nodup ∧
      (∀ tuple ∈ relation.tuples, tuple.length = relation.schema.length) ∧
      (∀ operation, Indexed.apply relation operation = lift (operation.apply relation)) ∧
      (∀ other : Relation, other.Reachable → ∀ combination,
        Indexed.combine relation other combination = lift (combination.apply relation other)) ∧
      (∀ other : Relation, other.Reachable →
        (Indexed.equal relation other : Run Error Bool) = .ok (relation == other)) ∧
      (Indexed.render relation : Run Error String) = .ok (Table.render relation) ∧
      ∀ tuple ∈ relation.tuples, ∀ name,
        (Indexed.get? (relation.row tuple) name : Run Error (Option Value)) =
          .ok ((relation.row tuple).get? name) := by
  have shape := reachable.wellFormed
  refine ⟨shape.names_nodup, fun _ => shape.length_eq, Indexed.apply_eq shape, ?_, ?_,
    Indexed.render_eq shape, ?_⟩
  · intro other otherReachable combination
    exact Indexed.combine_eq shape otherReachable.wellFormed combination
  · intro other otherReachable
    exact Indexed.equal_eq otherReachable.wellFormed
  · intro tuple stored name
    exact Indexed.get?_eq (shape.length_eq stored) name

/-- A column of the desks, the desks with the floors, and a join that is safe on any condition. -/
theorem accesses_desks :
    Indexed.apply desks (.project ["floor"]) =
        .ok ⟨"my desks", [.any "floor"], [[.int 1], [.int 2]]⟩ ∧
      Indexed.combine desks floors .product =
        .ok ⟨"my desks x floors",
          [.any "my desks.name", .any "my desks.floor", .any "floors.floor", .any "floors.in"],
          [[.str "Ada", .int 1, .int 1, .str "Ada"], [.str "Ada", .int 1, .int 2, .str "Ada"],
            [.str "Ben", .int 2, .int 1, .str "Ada"], [.str "Ben", .int 2, .int 2, .str "Ada"]]⟩ ∧
      ∀ predicate position length,
        Indexed.combine desks floors (.fullOuterJoin predicate) ≠
          .error (.outOfRange position length) := by
  have product : desks.product floors = .ok _ := product_eq_ok.mpr ⟨by decide, rfl⟩
  rcases reachable_desks.accesses with ⟨-, -, applied, combined, -⟩
  refine ⟨(applied _).trans (by rfl), ?_, ?_⟩
  · exact (combined floors reachable_floors .product).trans (congrArg lift product)
  · intro predicate position length
    rw [combined floors reachable_floors]
    exact Indexed.lift_ne_outOfRange _ position length

end Relation

end TypedRelations
