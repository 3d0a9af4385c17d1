import TypedRelations.Domain
import TypedRelations.Proofs.Constraint.Difference
import TypedRelations.Proofs.Outcome

/-!
# Combined domains and the values they accept

The values, the types and the constraints of two domains are combined apart from each other. A union
accepts whatever either domain accepts. But a value that one domain lists and the other admits by
its type is listed by no intersection, and a type that both allow is allowed by no difference.
-/

namespace TypedRelations.Domain

variable {left right combined domain : Domain} {value other : Value}

theorem accepts_iff :
    domain.accepts value = true ↔
      domain.values.contains value = true ∨
        value.isNull = false ∧ domain.types.contains value.type = true ∧
          ∀ constraint ∈ domain.constraints, constraint.accepts value = true := by
  rw [accepts_eq]
  simp [and_assoc]

/-- Domains do not tell equal values apart. -/
theorem accepts_congr (domain : Domain) (same : (value == other) = true) :
    domain.accepts value = domain.accepts other := by
  have constraints : ∀ constraint : Constraint,
      constraint.accepts value = constraint.accepts other :=
    fun constraint => constraint.accepts_congr same
  rw [accepts_eq, accepts_eq, OrderedSet.contains_congr domain.values same,
    Value.isNull_congr same, Value.type_eq_of_beq same]
  simp only [constraints]

/-- A constraint of the left domain is paired with the first one of its kind on the right. -/
theorem mem_pairedConstraints_iff {first second : Constraint} :
    (first, second) ∈ left.pairedConstraints right ↔
      first ∈ left.constraints ∧
        right.constraints.find? (·.sameKind first) = some second := by
  rw [pairedConstraints, List.mem_filterMap]
  constructor
  · intro ⟨constraint, inLeft, paired⟩
    obtain ⟨partner, found, same⟩ := Option.map_eq_some_iff.mp paired
    obtain ⟨rfl, rfl⟩ := Prod.mk.inj same
    exact ⟨inLeft, found⟩
  · intro ⟨inLeft, found⟩
    exact ⟨first, inLeft, Option.map_eq_some_iff.mpr ⟨second, found, rfl⟩⟩

/-- Paired constraints are constraints of the two domains, of one kind. -/
theorem mem_pairedConstraints {pair : Constraint × Constraint}
    (member : pair ∈ left.pairedConstraints right) :
    pair.1 ∈ left.constraints ∧ pair.2 ∈ right.constraints ∧ pair.1.sameKind pair.2 = true := by
  obtain ⟨inLeft, found⟩ := mem_pairedConstraints_iff.mp member
  have kinds := List.find?_some found
  exact ⟨inLeft, List.mem_of_find?_eq_some found, BEq.symm kinds⟩

theorem combine_eq_ok {values : OrderedSet Value} {types : OrderedSet ValueType}
    {operation : Constraint → Constraint → Except Constraint.Clash Constraint} :
    left.combine right values types operation = .ok combined ↔
      ∃ constraints, List.Forall₂ (fun pair made => operation pair.1 pair.2 = .ok made)
          (left.pairedConstraints right) constraints ∧
        combined = ⟨values, types, constraints⟩ := by
  rw [combine, bind_eq_ok]
  constructor
  · intro ⟨constraints, made, same⟩
    exact ⟨constraints, mapM_eq_ok.mp made, (Except.ok.inj same).symm⟩
  · intro ⟨constraints, made, same⟩
    exact ⟨constraints, mapM_eq_ok.mpr made, congrArg Except.ok same.symm⟩

/-- A combination fails with the clash of two paired constraints. -/
theorem exists_of_combine_eq_error {values : OrderedSet Value} {types : OrderedSet ValueType}
    {operation : Constraint → Constraint → Except Constraint.Clash Constraint}
    {clash : Constraint.Clash} (failed : left.combine right values types operation = .error clash) :
    ∃ pair ∈ left.pairedConstraints right, operation pair.1 pair.2 = .error clash := by
  rcases bind_eq_error.mp failed with paired | ⟨constraints, -, same⟩
  · exact exists_of_mapM_eq_error paired
  · cases same

/-- Every combined constraint accepts what the combinations of the paired constraints accept. -/
theorem accepts_of_combined
    {operation : Constraint → Constraint → Except Constraint.Clash Constraint}
    {constraints : List Constraint}
    (made : List.Forall₂ (fun pair made => operation pair.1 pair.2 = .ok made)
      (left.pairedConstraints right) constraints)
    (keeps : ∀ first ∈ left.constraints, ∀ second ∈ right.constraints, ∀ result,
      operation first second = .ok result → result.accepts value = true) :
    ∀ constraint ∈ constraints, constraint.accepts value = true := by
  intro constraint member
  rcases exists_left_of_forall₂ made member with ⟨pair, paired, combines⟩
  rcases mem_pairedConstraints paired with ⟨inLeft, inRight, -⟩
  exact keeps pair.1 inLeft pair.2 inRight constraint combines

/-- A combination fails only if the combination of two constraints of one kind does. -/
theorem exists_combine {operation : Constraint → Constraint → Except Constraint.Clash Constraint}
    (left right : Domain) (values : OrderedSet Value) (types : OrderedSet ValueType)
    (succeeds : ∀ first second : Constraint, first.sameKind second = true →
      ∃ made, operation first second = .ok made) :
    ∃ combined, left.combine right values types operation = .ok combined := by
  have combines : ∀ pair ∈ left.pairedConstraints right,
      ∃ made, operation pair.1 pair.2 = .ok made :=
    fun pair member => succeeds pair.1 pair.2 (mem_pairedConstraints member).2.2
  obtain ⟨constraints, made⟩ := exists_mapM_eq_ok combines
  exact ⟨_, combine_eq_ok.mpr ⟨constraints, mapM_eq_ok.mp made, rfl⟩⟩

/-- Any two domains have a union. -/
theorem exists_union (left right : Domain) : ∃ combined, left.union right = .ok combined :=
  exists_combine left right _ _ fun _ _ kinds => Constraint.exists_union kinds

/-- A union accepts what either domain accepts. Constraints without a partner are dropped, which
only lets more values pass. -/
theorem union_accepts (made : left.union right = .ok combined)
    (accepted : left.accepts value = true ∨ right.accepts value = true) :
    combined.accepts value = true := by
  rcases combine_eq_ok.mp made with ⟨constraints, united, rfl⟩
  rw [accepts_iff, OrderedSet.contains_union, OrderedSet.contains_union]
  rw [accepts_iff, accepts_iff] at accepted
  rcases accepted with (listed | ⟨notNull, allowed, passes⟩) | (listed | ⟨notNull, allowed, passes⟩)
  · left
    rw [listed, Bool.true_or]
  · right
    refine ⟨notNull, by rw [allowed, Bool.true_or], ?_⟩
    exact accepts_of_combined united fun first inLeft second _ result combines =>
      Constraint.union_accepts combines (.inl (passes first inLeft))
  · left
    rw [listed, Bool.or_true]
  · right
    refine ⟨notNull, by rw [allowed, Bool.or_true], ?_⟩
    exact accepts_of_combined united fun first _ second inRight result combines =>
      Constraint.union_accepts combines (.inr (passes second inRight))

/-- Any two domains have a difference. -/
theorem exists_diff (left right : Domain) : ∃ combined, left.diff right = .ok combined :=
  exists_combine left right _ _ fun _ _ kinds => Constraint.exists_diff kinds

/-- What an intersection accepts: the values that both domains list, and those of the types that
both allow, as far as the combined constraints accept them. -/
theorem inter_accepts_iff (made : left.inter right = .ok combined) :
    combined.accepts value = true ↔
      (left.values.contains value = true ∧ right.values.contains value = true) ∨
        value.isNull = false ∧ (left.types.contains value.type = true ∧
          right.types.contains value.type = true) ∧
          ∀ constraint ∈ combined.constraints, constraint.accepts value = true := by
  rcases combine_eq_ok.mp made with ⟨constraints, -, rfl⟩
  rw [accepts_iff, OrderedSet.contains_inter, OrderedSet.contains_inter, Bool.and_eq_true,
    Bool.and_eq_true]

/-- A value that both domains accept in the same way is accepted by their intersection. -/
theorem inter_accepts (made : left.inter right = .ok combined)
    (inLeft : left.accepts value = true) (inRight : right.accepts value = true)
    (alike : left.values.contains value = right.values.contains value) :
    combined.accepts value = true := by
  rcases combine_eq_ok.mp made with ⟨constraints, united, rfl⟩
  rw [inter_accepts_iff made]
  rw [accepts_iff] at inLeft inRight
  cases listed : left.values.contains value with
  | true => exact .inl ⟨rfl, alike ▸ listed⟩
  | false =>
      have unlisted : right.values.contains value = false := alike ▸ listed
      rcases inLeft.resolve_left (by simp [listed]) with ⟨notNull, leftAllows, leftPasses⟩
      rcases inRight.resolve_left (by simp [unlisted]) with ⟨-, rightAllows, rightPasses⟩
      refine .inr ⟨notNull, ⟨leftAllows, rightAllows⟩, ?_⟩
      exact accepts_of_combined united fun first inFirst second inSecond result combines =>
        Constraint.inter_accepts combines ⟨leftPasses first inFirst, rightPasses second inSecond⟩

/-- What a difference accepts: the values that only the left domain lists, and those of the types
that only the left domain allows, as far as the combined constraints accept them. -/
theorem diff_accepts_iff (made : left.diff right = .ok combined) :
    combined.accepts value = true ↔
      (left.values.contains value = true ∧ right.values.contains value = false) ∨
        value.isNull = false ∧ (left.types.contains value.type = true ∧
          right.types.contains value.type = false) ∧
          ∀ constraint ∈ combined.constraints, constraint.accepts value = true := by
  rcases combine_eq_ok.mp made with ⟨constraints, -, rfl⟩
  rw [accepts_iff, OrderedSet.contains_diff, OrderedSet.contains_diff, Bool.and_eq_true,
    Bool.and_eq_true, Bool.not_eq_true', Bool.not_eq_true']

/-- The constraints of a difference are those of the left domain that have a partner, each without
what the partner takes away. -/
theorem diff_constraints (made : left.diff right = .ok combined) :
    List.Forall₂ (fun pair rest => Constraint.DifferenceLaws pair.1 pair.2 rest ∧
        ∀ value, rest.accepts value = true ↔
          pair.1.accepts value = true ∧ ¬ pair.1.Loses pair.2 value)
      (left.pairedConstraints right) combined.constraints := by
  rcases combine_eq_ok.mp made with ⟨constraints, united, rfl⟩
  exact united.imp fun pair rest subtracted =>
    ⟨Constraint.differenceLaws_of_diff subtracted, fun _ => Constraint.diff_accepts_iff subtracted⟩

/-- A value that the left domain accepts without listing it is accepted by the difference unless
the right domain allows its type or takes it away by a constraint. -/
theorem diff_accepts_iff_of_unlisted (made : left.diff right = .ok combined)
    (inLeft : left.accepts value = true) (unlisted : left.values.contains value = false) :
    combined.accepts value = true ↔ right.types.contains value.type = false ∧
      ∀ pair ∈ left.pairedConstraints right, ¬ pair.1.Loses pair.2 value := by
  have constraints := diff_constraints made
  rw [accepts_iff] at inLeft
  obtain ⟨notNull, allowed, passes⟩ := inLeft.resolve_left (by simp [unlisted])
  rw [diff_accepts_iff made]
  simp only [unlisted, Bool.false_eq_true, false_and, false_or, notNull, allowed, true_and]
  refine and_congr_right fun _ => ⟨fun accepted pair paired => ?_, fun kept rest member => ?_⟩
  · obtain ⟨rest, member, -, accepts⟩ := exists_left_of_forall₂ constraints.flip paired
    exact ((accepts value).mp (accepted rest member)).2
  · obtain ⟨pair, paired, -, accepts⟩ := exists_left_of_forall₂ constraints member
    exact (accepts value).mpr ⟨passes _ (mem_pairedConstraints paired).1, kept pair paired⟩

end TypedRelations.Domain
