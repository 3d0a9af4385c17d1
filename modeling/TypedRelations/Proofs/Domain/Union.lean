import Mathlib.Data.List.Nodup
import Mathlib.Data.Option.NAry
import TypedRelations.Proofs.Domain.Combination

/-!
# Laws of the union of domains

What a domain says about a value comes in parts: whether it lists the value, whether it allows the
type, and, for each kind of constraint, which bounds the value respects (`limits?`). A union
combines every part by "or". So unions are commutative, associative and idempotent in what they
accept, provided that a domain has one constraint of each kind at most (`OnePerKind`).
-/

namespace TypedRelations

namespace Constraint

variable {first second combined : Constraint} {value : Value}

/-- A union is of the kind of its operands. -/
theorem kind_union (made : first.union second = .ok combined) : combined.kind = first.kind := by
  cases oneKind_of_ok (by simp) made with
  | notNull => rw [← Except.ok.inj made]
  | stringLength => rw [← Except.ok.inj made]; rfl
  | range => rw [← Except.ok.inj made]; rfl
  | positive max₁ max₂ => cases max₁ <;> cases max₂ <;> rw [← Except.ok.inj made] <;> rfl

theorem eitherLimits_comm (left right : Bool × Bool) :
    eitherLimits left right = eitherLimits right left :=
  Prod.ext (Bool.or_comm _ _) (Bool.or_comm _ _)

theorem eitherLimits_assoc (first second third : Bool × Bool) :
    eitherLimits (eitherLimits first second) third =
      eitherLimits first (eitherLimits second third) :=
  Prod.ext (Bool.or_assoc _ _ _) (Bool.or_assoc _ _ _)

theorem eitherLimits_self (limits : Bool × Bool) : eitherLimits limits limits = limits :=
  Prod.ext (Bool.or_self _) (Bool.or_self _)

end Constraint

namespace Domain

open Constraint (eitherLimits)

variable {domain other left right combined : Domain} {value : Value} {kind : Constraint.Kind}

/-- No two constraints are of one kind. -/
def OnePerKind (domain : Domain) : Prop := (domain.constraints.map Constraint.kind).Nodup

instance (domain : Domain) : Decidable domain.OnePerKind :=
  inferInstanceAs (Decidable (domain.constraints.map Constraint.kind).Nodup)

/-- The first constraint of a kind. -/
def constraint? (domain : Domain) (kind : Constraint.Kind) : Option Constraint :=
  domain.constraints.find? (·.kind == kind)

theorem mem_of_constraint? {constraint : Constraint}
    (found : domain.constraint? kind = some constraint) :
    constraint ∈ domain.constraints ∧ constraint.kind = kind :=
  ⟨List.mem_of_find?_eq_some found, by simpa using List.find?_some found⟩

/-- If there is one constraint of each kind, it is found by its kind. -/
theorem constraint?_of_mem (one : domain.OnePerKind) {constraint : Constraint}
    (member : constraint ∈ domain.constraints) :
    domain.constraint? constraint.kind = some constraint := by
  cases found : domain.constraint? constraint.kind with
  | none => exact absurd (BEq.refl constraint.kind) (List.find?_eq_none.mp found _ member)
  | some partner =>
      obtain ⟨inDomain, sameKind⟩ := mem_of_constraint? found
      rw [List.inj_on_of_nodup_map one inDomain member sameKind]

/-- Which bounds of a kind a value respects; none if the domain does not constrain the kind. -/
def limits? (domain : Domain) (kind : Constraint.Kind) (value : Value) : Option (Bool × Bool) :=
  (domain.constraint? kind).map (·.limits value)

/-- With one constraint of each kind, a value of an allowed type is legal if it respects the
bounds of every kind. -/
theorem accepts_iff_limits? (one : domain.OnePerKind) :
    domain.accepts value = true ↔
      domain.values.contains value = true ∨
        value.isNull = false ∧ domain.types.contains value.type = true ∧
          ∀ kind limits, domain.limits? kind value = some limits → limits = (true, true) := by
  have constraints : (∀ constraint ∈ domain.constraints, constraint.accepts value = true) ↔
      ∀ kind limits, domain.limits? kind value = some limits → limits = (true, true) := by
    constructor
    · intro passes kind limits found
      obtain ⟨constraint, stored, rfl⟩ := Option.map_eq_some_iff.mp found
      exact Constraint.accepts_iff_limits.mp (passes constraint (mem_of_constraint? stored).1)
    · intro within constraint member
      apply Constraint.accepts_iff_limits.mpr
      exact within constraint.kind _ (by rw [limits?, constraint?_of_mem one member]; rfl)
  rw [accepts_iff, constraints]

/-- Two domains that agree on a value part by part accept it both or neither. -/
theorem accepts_eq_of_parts (one : domain.OnePerKind) (otherOne : other.OnePerKind)
    (values : domain.values.contains value = other.values.contains value)
    (types : domain.types.contains value.type = other.types.contains value.type)
    (limits : ∀ kind, domain.limits? kind value = other.limits? kind value) :
    domain.accepts value = other.accepts value := by
  rw [Bool.eq_iff_iff, accepts_iff_limits? one, accepts_iff_limits? otherOne, values, types]
  simp only [limits]

theorem contains_values_union (made : left.union right = .ok combined) (value : Value) :
    combined.values.contains value =
      (left.values.contains value || right.values.contains value) := by
  obtain ⟨constraints, -, rfl⟩ := combine_eq_ok.mp made
  exact OrderedSet.contains_union _ _ _

theorem contains_types_union (made : left.union right = .ok combined) (type : ValueType) :
    combined.types.contains type = (left.types.contains type || right.types.contains type) := by
  obtain ⟨constraints, -, rfl⟩ := combine_eq_ok.mp made
  exact OrderedSet.contains_union _ _ _

/-- A kind stays constrained in a union if both domains constrain it, and then a value respects a
bound if it respects that bound on either side. The induction is on the constraints of the left
domain; one without a partner of its kind leaves nothing behind. -/
theorem limits?_union (made : left.union right = .ok combined) (kind : Constraint.Kind)
    (value : Value) :
    combined.limits? kind value =
      Option.map₂ eitherLimits (left.limits? kind value) (right.limits? kind value) := by
  obtain ⟨united, pairs, rfl⟩ := combine_eq_ok.mp made
  obtain ⟨values, types, constraints⟩ := left
  clear made
  simp only [limits?, constraint?]
  simp only [pairedConstraints] at pairs
  induction constraints generalizing united with
  | nil =>
      cases pairs
      rfl
  | cons first rest ih =>
      rw [List.filterMap_cons] at pairs
      cases partner : right.constraints.find? (·.sameKind first) with
      | none =>
          rw [partner] at pairs
          rw [ih united pairs, List.find?_cons]
          cases same : first.kind == kind with
          | false => rfl
          | true =>
              rw [← beq_iff_eq.mp same]
              simp only [Constraint.sameKind] at partner
              simp [partner]
      | some second =>
          rw [partner] at pairs
          cases pairs with
          | @cons _ result _ others unites later =>
              rw [List.find?_cons, List.find?_cons, Constraint.kind_union unites]
              cases same : first.kind == kind with
              | false => exact ih others later
              | true =>
                  rw [← beq_iff_eq.mp same]
                  simp only [Constraint.sameKind] at partner
                  simp [partner, Constraint.limits_union unites]

theorem map_fst_pairedConstraints_sublist (left right : Domain) :
    ((left.pairedConstraints right).map Prod.fst).Sublist left.constraints := by
  rw [pairedConstraints]
  induction left.constraints with
  | nil => exact .slnil
  | cons first rest ih =>
      rw [List.filterMap_cons]
      cases right.constraints.find? (·.sameKind first) with
      | none => exact .cons first ih
      | some second => exact .cons_cons first ih

/-- The kinds of a union are kinds of the left domain, in its order. -/
theorem kinds_union_sublist (made : left.union right = .ok combined) :
    (combined.constraints.map Constraint.kind).Sublist
      (left.constraints.map Constraint.kind) := by
  obtain ⟨united, pairs, rfl⟩ := combine_eq_ok.mp made
  have kinds : united.map Constraint.kind =
      ((left.pairedConstraints right).map Prod.fst).map Constraint.kind := by
    rw [← List.forall₂_eq_eq_eq, List.map_map, List.forall₂_map_left_iff,
      List.forall₂_map_right_iff]
    exact pairs.flip.imp fun result pair unites => Constraint.kind_union unites
  rw [kinds]
  exact (map_fst_pairedConstraints_sublist left right).map Constraint.kind

theorem OnePerKind.union (one : left.OnePerKind) (made : left.union right = .ok combined) :
    combined.OnePerKind :=
  one.sublist (kinds_union_sublist made)

/-! ## The laws -/

/-- Any two domains have a union, and no value is lost in it: what either domain accepts, the union
accepts. It accepts nothing else than what the domains list and values of the types that they
allow. -/
theorem union_loses_nothing (left right : Domain) :
    ∃ combined, left.union right = .ok combined ∧ ∀ value,
      (left.accepts value = true ∨ right.accepts value = true → combined.accepts value = true) ∧
      (combined.accepts value = true →
        (left.values.contains value = true ∨ right.values.contains value = true) ∨
          value.isNull = false ∧
            (left.types.contains value.type = true ∨
              right.types.contains value.type = true)) := by
  obtain ⟨combined, made⟩ := exists_union left right
  refine ⟨combined, made, fun value => ⟨union_accepts made, fun accepted => ?_⟩⟩
  rw [← Bool.or_eq_true, ← Bool.or_eq_true, ← contains_values_union made,
    ← contains_types_union made]
  exact (accepts_iff.mp accepted).imp id fun ⟨notNull, allowed, _⟩ => ⟨notNull, allowed⟩

/-- A number of a room, at most five and from a bound that is NaN, which no number reaches; or the
attic. -/
def rooms : Domain :=
  ⟨.ofList [.str "attic"], .ofList [.int], [.range ⟨0x7FF8000000000000⟩ 5, .positive (some 9)]⟩

/-- A height within bounds that are the wrong way round, or the top. -/
def heights : Domain :=
  ⟨.ofList [.int 40], .ofList [.float], [.stringLength 1 2, .range 2 1]⟩

/-- The NaN and the crossed bounds go under in the union, which keeps what both domains list. -/
theorem union_loses_nothing_rooms_heights :
    ∃ combined, rooms.union heights = .ok combined ∧
      rooms.accepts (.str "attic") = true ∧ combined.accepts (.str "attic") = true ∧
      heights.accepts (.int 40) = true ∧ combined.accepts (.int 40) = true := by
  obtain ⟨combined, made, kept⟩ := union_loses_nothing rooms heights
  have attic : rooms.accepts (.str "attic") = true := by decide
  have top : heights.accepts (.int 40) = true := by decide
  exact ⟨combined, made, attic, (kept _).1 (.inl attic), top, (kept _).1 (.inr top)⟩

/-- In what they accept, unions of domains with one constraint of each kind are commutative,
associative and idempotent, and they have one constraint of each kind again. -/
theorem union_laws {first second third : Domain} (firstOne : first.OnePerKind)
    (secondOne : second.OnePerKind) :
    ∃ both swapped leftNested later rightNested doubled,
      first.union second = .ok both ∧ second.union first = .ok swapped ∧
      both.union third = .ok leftNested ∧ second.union third = .ok later ∧
      first.union later = .ok rightNested ∧ first.union first = .ok doubled ∧
      (∀ value, both.accepts value = swapped.accepts value) ∧
      (∀ value, leftNested.accepts value = rightNested.accepts value) ∧
      (∀ value, doubled.accepts value = first.accepts value) ∧
      ∀ domain ∈ [both, swapped, leftNested, later, rightNested, doubled],
        domain.OnePerKind := by
  obtain ⟨both, bothMade⟩ := exists_union first second
  obtain ⟨swapped, swappedMade⟩ := exists_union second first
  obtain ⟨leftNested, leftMade⟩ := exists_union both third
  obtain ⟨later, laterMade⟩ := exists_union second third
  obtain ⟨rightNested, rightMade⟩ := exists_union first later
  obtain ⟨doubled, doubledMade⟩ := exists_union first first
  have bothOne := firstOne.union bothMade
  have swappedOne := secondOne.union swappedMade
  have leftOne := bothOne.union leftMade
  have rightOne := firstOne.union rightMade
  have doubledOne := firstOne.union doubledMade
  refine ⟨both, swapped, leftNested, later, rightNested, doubled, bothMade, swappedMade, leftMade,
    laterMade, rightMade, doubledMade, fun value => ?_, fun value => ?_, fun value => ?_, ?_⟩
  · apply accepts_eq_of_parts bothOne swappedOne
    · rw [contains_values_union bothMade, contains_values_union swappedMade, Bool.or_comm]
    · rw [contains_types_union bothMade, contains_types_union swappedMade, Bool.or_comm]
    · intro kind
      rw [limits?_union bothMade, limits?_union swappedMade]
      exact Option.map₂_comm Constraint.eitherLimits_comm
  · apply accepts_eq_of_parts leftOne rightOne
    · rw [contains_values_union leftMade, contains_values_union bothMade,
        contains_values_union rightMade, contains_values_union laterMade, Bool.or_assoc]
    · rw [contains_types_union leftMade, contains_types_union bothMade,
        contains_types_union rightMade, contains_types_union laterMade, Bool.or_assoc]
    · intro kind
      rw [limits?_union leftMade, limits?_union bothMade, limits?_union rightMade,
        limits?_union laterMade]
      exact Option.map₂_assoc Constraint.eitherLimits_assoc
  · apply accepts_eq_of_parts doubledOne firstOne
    · rw [contains_values_union doubledMade, Bool.or_self]
    · rw [contains_types_union doubledMade, Bool.or_self]
    · intro kind
      rw [limits?_union doubledMade]
      cases first.limits? kind value with
      | none => rfl
      | some limits => exact congrArg some (Constraint.eitherLimits_self limits)
  · simp [bothOne, swappedOne, leftOne, secondOne.union laterMade, rightOne, doubledOne]

/-- The two orders of a union list different values first, and both accept a number that neither
domain alone does. -/
theorem union_laws_rooms_heights :
    rooms.OnePerKind ∧ heights.OnePerKind ∧ ∃ both swapped,
      rooms.union heights = .ok both ∧ heights.union rooms = .ok swapped ∧
      both.values.items = [.str "attic", .int 40] ∧
      swapped.values.items = [.int 40, .str "attic"] ∧
      both.accepts (.int 3) = true ∧ swapped.accepts (.int 3) = true ∧
      both.OnePerKind ∧ swapped.OnePerKind := by
  have roomsOne : rooms.OnePerKind := by decide
  have heightsOne : heights.OnePerKind := by decide
  obtain ⟨both, swapped, _, _, _, _, bothMade, swappedMade, -, -, -, -, comm, -, -, one⟩ :=
    @union_laws rooms heights .any roomsOne heightsOne
  have accepted : both.accepts (.int 3) = true := by
    have evaluated : (rooms.union heights).toOption.map (·.accepts (.int 3)) = some true := by
      decide +kernel
    rw [bothMade] at evaluated
    exact Option.some.inj evaluated
  refine ⟨roomsOne, heightsOne, both, swapped, bothMade, swappedMade, ?_, ?_, accepted,
    comm _ ▸ accepted, one _ (by simp), one _ (by simp)⟩
  · obtain ⟨_, -, rfl⟩ := combine_eq_ok.mp bothMade
    rfl
  · obtain ⟨_, -, rfl⟩ := combine_eq_ok.mp swappedMade
    rfl

end Domain

end TypedRelations
