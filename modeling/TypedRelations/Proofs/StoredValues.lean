import TypedRelations.Proofs.SetOperation

/-!
# Stored values and the domains of their fields

Insertion checks values, but no other operation does. Still every value stays inside the domain of
its field, as long as no domain is intersected or subtracted. These two combine tuples by their
values but domains part by part; `InterVerdict` and `DiffVerdict` say what comes of it.
-/

namespace TypedRelations

theorem storable_congr {domain : Domain} {value other : Value} (same : (value == other) = true)
    (storable : Storable domain value) : Storable domain other := by
  rcases storable with null | accepted
  · exact .inl (Value.isNull_congr same ▸ null)
  · exact .inr (domain.accepts_congr same ▸ accepted)

theorem keepsLeft_union : KeepsLeft Storable Domain.union :=
  fun _ _ _ made _ storable =>
    storable.imp id fun accepted => Domain.union_accepts made (.inl accepted)

theorem keepsRight_union : KeepsRight Storable Domain.union :=
  fun _ _ _ made _ storable =>
    storable.imp id fun accepted => Domain.union_accepts made (.inr accepted)

namespace Relation

variable {relation left right result : Relation} {mapping : List (String × String)}
  {fields : List MappedField} {schema : Schema}

/-- Every tuple has one value per field, and the field may hold it. -/
def Fits (relation : Relation) : Prop :=
  ∀ tuple ∈ relation.tuples, relation.schema.Admits Storable tuple

/-- Whatever is derived without intersections and differences, every stored value is null or
accepted by the domain of its field. -/
theorem Derived.fits (derived : Derived .withoutReductions relation) : relation.Fits := by
  have preserves : ∀ combination, Repertoire.withoutReductions.combines combination →
      combination.Preserves Storable := by
    intro combination allowed
    cases combination with
    | union mapping => exact ⟨keepsLeft_union, keepsRight_union⟩
    | inter mapping => exact allowed.elim
    | diff mapping => exact allowed.elim
    | _ => trivial
  exact (Derived.conforms storageLaws_storable preserves derived).admits

/-- A field of strings of bounded length. -/
def bounded (name : String) (min max : UInt64) : Field :=
  ⟨name, (Domain.empty.withTypes [.str]).withConstraints [.stringLength min max]⟩

/-- A guest with a short name and no room. -/
def guests : Relation :=
  ⟨"guests", [bounded "name" 1 5, ⟨"room", Domain.empty.withTypes [.int]⟩],
    [[.str "Ada", .null]]⟩

/-- A member with a long name. -/
def members : Relation := ⟨"members", [bounded "called" 4 9], [[.str "Augusta"]]⟩

/-- The names in either relation. -/
def people : Relation :=
  ⟨"guests union members", [bounded "name" 1 9], [[.str "Ada"], [.str "Augusta"]]⟩

theorem derived_people : Derived .withoutReductions people := by
  have someGuests : Derived .withoutReductions guests :=
    .filled trivial (fun _ _ => trivial) (by decide) (by decide) (by decide)
  have someMembers : Derived .withoutReductions members :=
    .filled trivial (fun _ _ => trivial) (by decide) (by decide) (by decide)
  exact .combine (.union [("name", "called")]) trivial someGuests someMembers (by rfl)

theorem fits_people : Derived .withoutReductions people ∧ people.Fits :=
  ⟨derived_people, Derived.fits derived_people⟩

/-! ## Intersections and differences -/

/-- The two fields that a mapping combines into the field at a position of the result. -/
def Combines (left right : Relation) (mapping : List (String × String)) (position : Nat)
    (first second : Field) : Prop :=
  ∃ pair, mapping[position]? = some pair ∧ left.schema.find? pair.1 = some first ∧
    right.schema.find? pair.2 = some second

/-- Each value of a relation is judged by the domain of its field and by the two domains that this
domain was combined from. -/
def Judged (verdict : Domain → Domain → Domain → Value → Prop) (left right : Relation)
    (mapping : List (String × String)) (result : Relation) : Prop :=
  ∀ tuple ∈ result.tuples, tuple.length = result.schema.length ∧
    ∀ position field value, result.schema[position]? = some field →
      tuple[position]? = some value →
        ∃ first second, left.Combines right mapping position first second ∧
          verdict first.domain second.domain field.domain value

theorem judged_of_mapped {verdict : Domain → Domain → Domain → Value → Prop}
    {operation : Domain → Domain → Except Constraint.Clash Domain} {name : String}
    {tuples : List Tuple} (resolved : left.mappedFields right mapping = .ok fields)
    (combined : combinedSchema fields operation = .ok schema)
    (columns : ∀ tuple ∈ tuples, List.Forall₂ (fun entry value =>
      ∀ domain, operation entry.leftDomain entry.rightDomain = .ok domain →
        verdict entry.leftDomain entry.rightDomain domain value) fields tuple) :
    Judged verdict left right mapping ⟨name, schema, tuples⟩ := by
  intro tuple member
  have values := columns tuple member
  have fieldsMade := combinedSchema_eq_ok combined
  refine ⟨values.length_eq.symm.trans fieldsMade.length_eq, ?_⟩
  intro position field value at_field at_value
  rcases exists_left_at values at_value with ⟨entry, at_entry, verdicts⟩
  rcases exists_left_at fieldsMade at_field with ⟨other, at_other, -, made⟩
  rcases exists_left_at (mappedFields_eq_ok resolved) at_entry with ⟨pair, at_pair, resolves⟩
  rcases resolves.left with ⟨first, -, firstFound, firstDomain⟩
  rcases resolves.right with ⟨second, -, secondFound, secondDomain⟩
  rw [← Option.some.inj (at_entry.symm.trans at_other)] at made
  refine ⟨first, second, ⟨pair, at_pair, firstFound, secondFound⟩, ?_⟩
  rw [firstDomain, secondDomain]
  exact verdicts field.domain made

/-- A value that both relations store under domains that are intersected. It has to be admitted in
the same way by both domains, or by its type in both. -/
def InterVerdict (first second combined : Domain) (value : Value) : Prop :=
  value.isNull = true ∨
    (combined.accepts value = true ↔
      first.values.contains value = second.values.contains value ∨
        (first.types.contains value.type = true ∧ second.types.contains value.type = true ∧
          ∀ constraint ∈ combined.constraints, constraint.accepts value = true))

/-- A value that the left relation stores under a domain that another one is subtracted from. The
constraints that decide on it are differences of constraints of the two domains. If the first domain
does not list the value, it stays inside unless the second one allows its type or takes it away by a
constraint. -/
structure DiffVerdict (first second combined : Domain) (value : Value) : Prop where
  admitted : value.isNull = true ∨
    (combined.accepts value = true ↔
      (first.values.contains value = true ∧ second.values.contains value = false) ∨
        (first.types.contains value.type = true ∧ second.types.contains value.type = false ∧
          ∀ constraint ∈ combined.constraints, constraint.accepts value = true))
  constraints : List.Forall₂ (fun pair rest => Constraint.DifferenceLaws pair.1 pair.2 rest)
    (first.pairedConstraints second) combined.constraints
  unlisted : first.values.contains value = false → value.isNull = true ∨
    (combined.accepts value = true ↔ second.types.contains value.type = false ∧
      ∀ pair ∈ first.pairedConstraints second, ¬ pair.1.Loses pair.2 value)

theorem interVerdict_of_storable {first second combined : Domain} {value : Value}
    (made : first.inter second = .ok combined) (inFirst : Storable first value)
    (inSecond : Storable second value) : InterVerdict first second combined value := by
  cases null : value.isNull with
  | true => exact .inl null
  | false =>
      have firstAccepts := inFirst.resolve_left (by simp [null])
      have secondAccepts := inSecond.resolve_left (by simp [null])
      right
      constructor
      · intro accepted
        rcases (Domain.inter_accepts_iff made).mp accepted with ⟨listed, alsoListed⟩ | byType
        · exact .inl (listed.trans alsoListed.symm)
        · exact .inr ⟨byType.2.1.1, byType.2.1.2, byType.2.2⟩
      · intro admitted
        rcases admitted with alike | ⟨firstAllows, secondAllows, passes⟩
        · exact Domain.inter_accepts made firstAccepts secondAccepts alike
        · exact (Domain.inter_accepts_iff made).mpr
            (.inr ⟨null, ⟨firstAllows, secondAllows⟩, passes⟩)

theorem diffVerdict_of_storable {first second combined : Domain} {value : Value}
    (made : first.diff second = .ok combined) (inFirst : Storable first value) :
    DiffVerdict first second combined value where
  admitted := by
    cases null : value.isNull with
    | true => exact .inl rfl
    | false =>
        right
        rw [Domain.diff_accepts_iff made, null]
        simp [and_assoc]
  constraints := (Domain.diff_constraints made).imp fun _ _ laws => laws.1
  unlisted unlisted :=
    inFirst.imp id fun accepted => Domain.diff_accepts_iff_of_unlisted made accepted unlisted

/-- A tuple of the left relation that the right one has as well is storable on either side. -/
theorem storable_of_contains (rightFits : right.Fits)
    (resolved : left.mappedFields right mapping = .ok fields) {tuple : Tuple}
    (shared : (right.rightTuples fields).contains tuple = true) :
    List.Forall₂ (fun entry value => Storable entry.rightDomain value) fields tuple := by
  rcases List.contains_iff_exists_mem_beq.mp shared with ⟨other, stored, same⟩
  have values := admits_rightTuples rightFits resolved other stored
  have equals := forall₂_of_beq same
  exact (forall₂_join equals.flip values.flip fun _ _ _ equal storable =>
    storable_congr (BEq.symm equal) storable).flip

/-- Which values of an intersection and of a difference their fields accept. -/
theorem inter_diff_judged (leftFits : left.Fits) (rightFits : right.Fits) :
    (∀ result, left.inter right mapping = .ok result →
      Judged InterVerdict left right mapping result) ∧
    (∀ result, left.diff right mapping = .ok result →
      Judged DiffVerdict left right mapping result) := by
  constructor
  · intro result made
    rcases setOperation_eq_ok.mp made with ⟨fields, schema, resolved, combined, rebuilt⟩
    rcases ofTuples_eq_ok_iff.mp rebuilt with ⟨-, rfl⟩
    apply judged_of_mapped resolved combined
    intro tuple member
    rcases List.mem_filter.mp member with ⟨stored, shared⟩
    have inLeft := admits_leftTuples leftFits resolved tuple stored
    have inRight := storable_of_contains rightFits resolved shared
    exact (forall₂_and inLeft inRight).imp fun _ _ storable _ made =>
      interVerdict_of_storable made storable.1 storable.2
  · intro result made
    rcases setOperation_eq_ok.mp made with ⟨fields, schema, resolved, combined, rebuilt⟩
    rcases ofTuples_eq_ok_iff.mp rebuilt with ⟨-, rfl⟩
    apply judged_of_mapped resolved combined
    intro tuple member
    have inLeft := admits_leftTuples leftFits resolved tuple (List.mem_of_mem_filter member)
    exact inLeft.imp fun _ _ storable _ made => diffVerdict_of_storable made storable

/-- A relation of one integer under the given domain. -/
def single (name : String) (domain : Domain) (integer : Int64) : Relation :=
  ⟨name, [⟨"id", domain⟩], [[.int integer]]⟩

/-- The domain that lists a single integer. -/
def listedOnly (integer : Int64) : Domain := Domain.empty.withValues [.int integer]

theorem fits_single {name : String} {domain : Domain} {integer : Int64}
    (accepted : domain.accepts (.int integer) = true) : (single name domain integer).Fits := by
  intro tuple member
  rw [List.mem_singleton.mp member]
  exact .cons (.inr accepted) .nil

theorem not_fits_single {name : String} {domain : Domain} {integer : Int64}
    (rejected : domain.accepts (.int integer) = false) :
    ¬ (single name domain integer).Fits := by
  intro fits
  cases fits _ List.mem_cons_self with
  | cons storable _ =>
      rcases storable with null | accepted
      · nomatch null
      · rw [rejected] at accepted
        nomatch accepted

/-- Both operations may leave a value behind that its field does not accept: an intersection, when
one side lists the value and the other admits it by its type, and a difference, when both sides
allow the type. -/
theorem inter_diff_not_fits :
    (¬ ∀ (left right result : Relation) (mapping : List (String × String)), left.Fits →
      right.Fits → left.inter right mapping = .ok result → result.Fits) ∧
    (¬ ∀ (left right result : Relation) (mapping : List (String × String)), left.Fits →
      right.Fits → left.diff right mapping = .ok result → result.Fits) := by
  constructor
  · intro every
    have listed : (single "A" (listedOnly 5) 5).Fits := fits_single (by rfl)
    have typed : (single "B" .any 5).Fits := fits_single (by rfl)
    have shared := every _ _ (single "A intersection B" .empty 5) [("id", "id")] listed typed
      (by rfl)
    exact not_fits_single (by rfl) shared
  · intro every
    have typed : (single "A" .any 1).Fits := fits_single (by rfl)
    have alsoTyped : (single "B" .any 2).Fits := fits_single (by rfl)
    have kept := every _ _ (single "A difference B" .empty 1) [("id", "id")] typed alsoTyped
      (by rfl)
    exact not_fits_single (by rfl) kept

/-- Scores from one to five. -/
def scores : Relation :=
  ⟨"scores", [⟨"id", (Domain.empty.withTypes [.int]).withConstraints [.range 1 5]⟩],
    [[.int 2], [.int 4]]⟩

/-- A score that is listed, and texts, which a range does not govern. -/
def remarks : Relation :=
  ⟨"remarks",
    [⟨"id", ((Domain.empty.withValues [.int 6]).withTypes [.str]).withConstraints [.range 3 6]⟩],
    [[.int 6]]⟩

theorem fits_scores : scores.Fits := by
  have storable : ∀ tuple ∈ scores.tuples, scores.schema.Admits Storable tuple := by
    decide +kernel
  exact storable

theorem fits_remarks : remarks.Fits := by
  have storable : ∀ tuple ∈ remarks.tuples, remarks.schema.Admits Storable tuple := by
    decide +kernel
  exact storable

/-- A listed value gets lost in an intersection and stays in a difference. Of two scores that are
both no remarks, the difference keeps the one below the range of the remarks in its domain, but not
the one within. -/
theorem inter_diff_judged_single :
    Judged InterVerdict (single "A" (listedOnly 5) 5) (single "B" .any 5) [("id", "id")]
      (single "A intersection B" .empty 5) ∧
    Judged DiffVerdict (single "A" (listedOnly 5) 5) (single "B" .any 6) [("id", "id")]
      (single "A difference B" (listedOnly 5) 5) ∧
    ∃ rest field, scores.diff remarks [("id", "id")] = .ok rest ∧ rest.schema[0]? = some field ∧
      rest.tuples = [[.int 2], [.int 4]] ∧
        field.domain.accepts (.int 2) = true ∧ field.domain.accepts (.int 4) = false := by
  have listed : (single "A" (listedOnly 5) 5).Fits := fits_single (by rfl)
  have typed : (single "B" .any 5).Fits := fits_single (by rfl)
  have alsoTyped : (single "B" .any 6).Fits := fits_single (by rfl)
  have known : scores.Pairs remarks [("id", "id")] := by
    intro pair member
    rw [List.mem_singleton.mp member]
    decide
  obtain ⟨rest, made⟩ : ∃ rest, scores.diff remarks [("id", "id")] = .ok rest :=
    exists_setOperation (by decide) known Domain.exists_diff _ _
  have tuples : rest.tuples = [[.int 2], [.int 4]] := by
    obtain ⟨fields, schema, resolved, -, rebuilt⟩ := setOperation_eq_ok.mp made
    cases resolved
    rw [(ofTuples_eq_ok_iff.mp rebuilt).2]
    rfl
  have judged := (inter_diff_judged fits_scores fits_remarks).2 rest made
  rw [Judged, tuples] at judged
  obtain ⟨field, isField⟩ : ∃ field, rest.schema[0]? = some field := by
    have width := (judged _ List.mem_cons_self).1
    exact ⟨_, List.getElem?_eq_getElem (by rw [← width]; exact Nat.zero_lt_one)⟩
  have verdict : ∀ score, [.int score] ∈ [[Value.int 2], [.int 4]] →
      (field.domain.accepts (.int score) = true ↔
        ¬ (Constraint.range 1 5).Loses (.range 3 6) (.int score)) := by
    intro score member
    obtain ⟨first, second, ⟨pair, listed, isFirst, isSecond⟩, verdict⟩ :=
      (judged _ member).2 0 field (.int score) isField rfl
    cases listed
    cases isFirst
    cases isSecond
    refine ((verdict.unlisted rfl).resolve_left Bool.false_ne_true).trans ?_
    exact (and_iff_right rfl).trans List.forall_mem_singleton
  refine ⟨(inter_diff_judged listed typed).1 _ (by rfl),
    (inter_diff_judged listed alsoTyped).2 _ (by rfl), rest, field, made, isField, tuples,
    (verdict 2 List.mem_cons_self).mpr fun lost => ?_, ?_⟩
  · exact absurd lost.2 (by decide +kernel)
  · rw [Bool.eq_false_iff]
    intro accepted
    have stored : [.int 4] ∈ [[Value.int 2], [.int 4]] := List.mem_cons_of_mem _ List.mem_cons_self
    exact (verdict 4 stored).mp accepted ⟨rfl, by decide +kernel⟩

end Relation

end TypedRelations
