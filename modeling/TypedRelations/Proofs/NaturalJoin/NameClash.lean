import TypedRelations.Proofs.NaturalJoin

/-!
# Name clashes in natural joins

A right field of which the left relation has a namesake keeps its qualifier in a natural join. But
names may have dots in them, and the qualified name may be the name of yet another field, of either
relation (`Collides`). Then the join is refused, although the product of the relations is in order.
In all other cases it succeeds.
-/

namespace TypedRelations.Relation

variable {left right combined : Relation} {pairs : List (String × String)}

/-- The names of the right fields of no pair. -/
def keptNames (right : Relation) (pairs : List (String × String)) : List String :=
  right.schema.names.filter fun name => !(pairs.map Prod.snd).contains name

/-- The name that a right field has in the join. -/
def apartName (left right : Relation) (name : String) : String :=
  if name ∈ left.schema.names then qualify right.name name else name

theorem apartName_of_mem {name : String} (member : name ∈ left.schema.names) :
    left.apartName right name = qualify right.name name :=
  if_pos member

theorem apartName_of_not_mem {name : String} (absent : name ∉ left.schema.names) :
    left.apartName right name = name :=
  if_neg absent

theorem name_apart (field : Field) :
    (left.apart right field).name = left.apartName right field.name := by
  rw [apart, apartName]
  simp only [List.contains_iff_mem]
  split <;> rfl

theorem names_joinSchema (left right : Relation) (pairs : List (String × String)) :
    (left.joinSchema right pairs).names =
      left.schema.names ++ (right.keptNames pairs).map (left.apartName right) := by
  have kept : Schema.names (right.schema.filter (unpaired pairs)) = right.keptNames pairs :=
    Schema.names_filter right.schema fun name => !(pairs.map Prod.snd).contains name
  rw [joinSchema, Schema.names_append, ← kept]
  congr 1
  simp [Schema.names, name_apart]

/-- A right field that is kept has a namesake on the left, and the name that it is given instead is
the name of a left field or of another right field that is kept. -/
def Collides (left right : Relation) (pairs : List (String × String)) : Prop :=
  ∃ name ∈ right.keptNames pairs, name ∈ left.schema.names ∧
    (qualify right.name name ∈ left.schema.names ∨
      qualify right.name name ∈ right.keptNames pairs)

instance (left right : Relation) (pairs : List (String × String)) :
    Decidable (left.Collides right pairs) :=
  inferInstanceAs (Decidable (∃ name ∈ right.keptNames pairs, name ∈ left.schema.names ∧ _))

/-- Unless there is a clash, different right fields get different names. -/
theorem apartName_injOn (free : ¬ left.Collides right pairs) :
    ∀ first ∈ right.keptNames pairs, ∀ second ∈ right.keptNames pairs,
      left.apartName right first = left.apartName right second → first = second := by
  intro first inFirst second inSecond same
  by_cases firstShared : first ∈ left.schema.names
  · rw [apartName_of_mem firstShared] at same
    by_cases secondShared : second ∈ left.schema.names
    · rw [apartName_of_mem secondShared] at same
      exact Schema.qualify_injective right.name same
    · rw [apartName_of_not_mem secondShared] at same
      exact absurd ⟨first, inFirst, firstShared, .inr (same ▸ inSecond)⟩ free
  · rw [apartName_of_not_mem firstShared] at same
    by_cases secondShared : second ∈ left.schema.names
    · rw [apartName_of_mem secondShared] at same
      exact absurd ⟨second, inSecond, secondShared, .inr (same ▸ inFirst)⟩ free
    · rwa [apartName_of_not_mem secondShared] at same

theorem apartName_not_mem (free : ¬ left.Collides right pairs) {name : String}
    (kept : name ∈ right.keptNames pairs) : left.apartName right name ∉ left.schema.names := by
  by_cases shared : name ∈ left.schema.names
  · rw [apartName_of_mem shared]
    exact fun present => free ⟨name, kept, shared, .inl present⟩
  · rwa [apartName_of_not_mem shared]

/-- Where there is a clash, a right field gets a name that is taken. -/
theorem Collides.repeats (collides : left.Collides right pairs) :
    ∃ name ∈ right.keptNames pairs, left.apartName right name ∈ left.schema.names ∨
      ∃ other ∈ right.keptNames pairs, other ≠ name ∧
        left.apartName right other = left.apartName right name := by
  obtain ⟨name, kept, shared, taken⟩ := collides
  refine ⟨name, kept, ?_⟩
  rw [apartName_of_mem shared]
  rcases taken with onLeft | onRight
  · exact .inl onLeft
  · by_cases onLeft : qualify right.name name ∈ left.schema.names
    · exact .inl onLeft
    · refine .inr ⟨_, onRight, ?_, apartName_of_not_mem onLeft⟩
      exact fun same => onLeft (same.symm ▸ shared)

/-- The joined fields have different names unless there is a clash. -/
theorem nodup_names_joinSchema_iff (leftDistinct : left.schema.names.Nodup)
    (rightDistinct : right.schema.names.Nodup) :
    (left.joinSchema right pairs).names.Nodup ↔ ¬ left.Collides right pairs := by
  have keptDistinct : (right.keptNames pairs).Nodup := rightDistinct.filter _
  rw [names_joinSchema, List.nodup_append]
  constructor
  · rintro ⟨-, distinct, disjoint⟩ collides
    obtain ⟨name, kept, onLeft | ⟨other, otherKept, differ, same⟩⟩ := collides.repeats
    · exact disjoint _ onLeft _ (List.mem_map_of_mem kept) rfl
    · exact differ (List.inj_on_of_nodup_map distinct otherKept kept same)
  · intro free
    refine ⟨leftDistinct, keptDistinct.map_on (apartName_injOn free), ?_⟩
    intro name inLeft other inRight same
    obtain ⟨source, kept, rfl⟩ := List.mem_map.mp inRight
    exact apartName_not_mem free kept (same ▸ inLeft)

/-- A relation is refused only for equal names. -/
theorem ofTuples_ok_or_duplicate (name : String) (schema : Schema) (tuples : List Tuple) :
    (schema.names.Nodup ∧ ofTuples name schema tuples = .ok ⟨name, schema, tuples⟩) ∨
      (¬ schema.names.Nodup ∧
        ∃ field, ofTuples name schema tuples = .error (.duplicateField field name)) := by
  rw [← Schema.repeatedName?_eq_none_iff]
  cases repeated : schema.repeatedName? <;> simp [ofTuples, repeated]

/-- A natural join on pairs of fields is refused for two fields of one name exactly if there is a
clash, and otherwise it succeeds. -/
theorem naturalJoin_duplicateField_iff (leftReachable : left.Reachable)
    (rightReachable : right.Reachable) (leftQuotable : left.Quotable)
    (rightQuotable : right.Quotable) (made : left.product right = .ok combined)
    (known : left.Pairs right pairs) :
    ((∃ field relation,
        left.naturalJoin right (some pairs) = .error (.duplicateField field relation)) ↔
      left.Collides right pairs) ∧
    (¬ left.Collides right pairs → ∃ result, left.naturalJoin right (some pairs) = .ok result) := by
  have leftShape := leftReachable.wellFormed
  have rightShape := rightReachable.wellFormed
  have joined :=
    naturalJoin_eq leftShape rightShape leftQuotable rightQuotable made (some pairs) known
  have distinct : (left.joinSchema right pairs).names.Nodup ↔ ¬ left.Collides right pairs :=
    nodup_names_joinSchema_iff leftShape.names_nodup rightShape.names_nodup
  rw [joined]
  rcases ofTuples_ok_or_duplicate (left.name ++ " |x| " ++ right.name)
      (left.joinSchema right pairs) (left.joinTuples right pairs) with
    ⟨differ, succeeds⟩ | ⟨repeats, field, refused⟩
  · have free := distinct.mp differ
    refine ⟨⟨?_, fun collides => absurd collides free⟩, fun _ => ⟨_, succeeds⟩⟩
    rintro ⟨field, relation, failed⟩
    cases succeeds.symm.trans failed
  · have collides := not_not.mp (mt distinct.mpr repeats)
    exact ⟨⟨fun _ => collides, fun _ => ⟨field, _, refused⟩⟩, fun free => absurd collides free⟩

/-- On desks and floors the join keeps a qualifier, and nothing else has the name. -/
theorem naturalJoin_duplicateField_iff_desks_floors :
    ¬ desks.Collides floors [("name", "in")] ∧
      (∃ result, desks.naturalJoin floors (some [("name", "in")]) = .ok result) ∧
      ¬ ∃ field relation, desks.naturalJoin floors (some [("name", "in")]) =
        .error (.duplicateField field relation) := by
  have free : ¬ desks.Collides floors [("name", "in")] := by decide
  have product : desks.product floors = .ok _ := product_eq_ok.mpr ⟨by decide, rfl⟩
  obtain ⟨refused, succeeds⟩ := naturalJoin_duplicateField_iff reachable_desks reachable_floors
    quotable_desks quotable_floors product pairs_desks_floors
  exact ⟨free, succeeds free, fun failed => free (refused.mp failed)⟩

/-- Who sleeps in which cabin. -/
def sailors : Relation :=
  ⟨"sailors", [.any "name", .any "cabin"], [[.str "Ada", .int 1]]⟩

/-- The cabins, each of which has two names. -/
def cabins : Relation :=
  ⟨"cabins", [.any "number", .any "name", .any "cabins.name"], [[.int 1, .str "aft", .str "stern"]]⟩

theorem reachable_sailors : sailors.Reachable :=
  reachable_of_rows (by decide) (by decide) (by decide)

theorem reachable_cabins : cabins.Reachable :=
  reachable_of_rows (by decide) (by decide) (by decide)

/-- The name of a cabin keeps its qualifier, because sailors have names too. Its other name loses
the qualifier and then is the same, although nobody asked for that: with its qualifier the field
would be in nobody's way. -/
theorem naturalJoin_sailors_cabins_refused :
    sailors.Reachable ∧ cabins.Reachable ∧ sailors.Quotable ∧ cabins.Quotable ∧
      (∃ combined, sailors.product cabins = .ok combined) ∧
      sailors.Pairs cabins [("cabin", "number")] ∧
      sailors.naturalJoin cabins (some [("cabin", "number")]) =
        .error (.duplicateField "cabins.name" "sailors |x| cabins") := by
  have sailorsQuotable : sailors.Quotable := ⟨by decide, by decide⟩
  have cabinsQuotable : cabins.Quotable := ⟨by decide, by decide⟩
  have product : sailors.product cabins = .ok _ := product_eq_ok.mpr ⟨by decide, rfl⟩
  have known : sailors.Pairs cabins [("cabin", "number")] := pairs_single (by decide) (by decide)
  refine ⟨reachable_sailors, reachable_cabins, sailorsQuotable, cabinsQuotable, ⟨_, product⟩,
    known, ?_⟩
  rw [naturalJoin_eq reachable_sailors.wellFormed reachable_cabins.wellFormed sailorsQuotable
    cabinsQuotable product (some [("cabin", "number")]) known]
  rfl

end TypedRelations.Relation
