import TypedRelations.Proofs.Conformance

/-!
# Rows by name and by position

The values of a row are stored by position and asked for by name. When the names of the fields
differ, a row is the list of the values under its names, and picking positions is asking for the
names that stand there.
-/

namespace TypedRelations

section Lists

variable {α β γ : Type}

/-- Two lists of what is found under the same items are related if the finds are. -/
theorem forall₂_filterMap_iff {related : β → γ → Prop} {first : α → Option β}
    {second : α → Option γ} {items : List α}
    (firstTotal : ∀ item ∈ items, ∃ value, first item = some value)
    (secondTotal : ∀ item ∈ items, ∃ value, second item = some value) :
    List.Forall₂ related (items.filterMap first) (items.filterMap second) ↔
      ∀ item ∈ items, Option.Rel related (first item) (second item) := by
  induction items with
  | nil => simp
  | cons item rest ih =>
      rw [List.forall_mem_cons] at firstTotal secondTotal
      obtain ⟨⟨value, found⟩, firstTotal⟩ := firstTotal
      obtain ⟨⟨other, otherFound⟩, secondTotal⟩ := secondTotal
      rw [List.filterMap_cons_some found, List.filterMap_cons_some otherFound,
        List.forall₂_cons, List.forall_mem_cons, ih firstTotal secondTotal, found, otherFound,
        Option.rel_some_some]

/-- If there is a find under every item, the finds are listed item by item. -/
theorem forall₂_filterMap {find : α → Option β} {items : List α}
    (total : ∀ item ∈ items, ∃ value, find item = some value) :
    List.Forall₂ (fun item value => find item = some value) items (items.filterMap find) := by
  induction items with
  | nil => exact .nil
  | cons item rest ih =>
      rw [List.forall_mem_cons] at total
      obtain ⟨⟨value, found⟩, total⟩ := total
      rw [List.filterMap_cons_some found]
      exact .cons found (ih total)

theorem filterMap_eq_of_forall₂ {find : α → Option β} {items : List α} {values : List β}
    (found : List.Forall₂ (fun item value => find item = some value) items values) :
    items.filterMap find = values := by
  induction found with
  | nil => rfl
  | cons head _ ih => rw [List.filterMap_cons_some head, ih]

end Lists

namespace Relation

variable {relation : Relation} {name : String} {tuple : Tuple}

theorem get?_eq_bind (relation : Relation) (name : String) (tuple : Tuple) :
    (relation.row tuple).get? name =
      (relation.schema.position? name).bind fun position => tuple[position]? :=
  rfl

theorem get?_eq_none (absent : name ∉ relation.schema.names) :
    (relation.row tuple).get? name = none := by
  rw [get?_eq_bind, Schema.position?_eq_none_iff.mpr absent]
  rfl

/-- A row has a value under the name of every field. -/
theorem exists_get? (width : tuple.length = relation.schema.length)
    (member : name ∈ relation.schema.names) :
    ∃ value, (relation.row tuple).get? name = some value := by
  obtain ⟨position, found⟩ := Schema.exists_position?_of_mem member
  obtain ⟨field, listed, -, -⟩ := Schema.find?_eq_getElem? found
  have bound : position < tuple.length := width ▸ (List.getElem?_eq_some_iff.mp listed).1
  rw [get?_eq_bind, found]
  exact ⟨tuple[position], List.getElem?_eq_getElem bound⟩

theorem get?_eq_none_iff (width : tuple.length = relation.schema.length) (name : String) :
    (relation.row tuple).get? name = none ↔ name ∉ relation.schema.names := by
  constructor
  · intro absent member
    obtain ⟨value, found⟩ := exists_get? width member
    nomatch absent.symm.trans found
  · exact get?_eq_none

/-- A row of nulls has null under every name. -/
theorem get?_nulls (member : name ∈ relation.schema.names) :
    (relation.row (Tuple.nulls relation.schema.length)).get? name = some .null := by
  obtain ⟨position, found⟩ := Schema.exists_position?_of_mem member
  obtain ⟨field, listed, -, -⟩ := Schema.find?_eq_getElem? found
  rw [get?_eq_bind, found]
  exact List.getElem?_replicate_of_lt (List.getElem?_eq_some_iff.mp listed).1

/-- Equal rows have equal values under every name. -/
theorem get?_congr (relation : Relation) {other : Tuple} (same : (tuple == other) = true)
    (name : String) :
    ((relation.row tuple).get? name == (relation.row other).get? name) = true := by
  rw [get?_eq_bind, get?_eq_bind]
  cases relation.schema.position? name with
  | none => rfl
  | some position => exact option_beq_iff.mpr (forall₂_getElem? (forall₂_of_beq same) position)

/-- The value under the name at a position is the value at this position. -/
theorem get?_eq_getElem? (distinct : relation.schema.names.Nodup) {position : Nat}
    (listed : relation.schema.names[position]? = some name) (tuple : Tuple) :
    (relation.row tuple).get? name = tuple[position]? := by
  rw [get?_eq_bind, (Schema.position?_eq_some_iff distinct).mpr listed]
  rfl

/-- A row is the list of the values under its names. -/
theorem filterMap_get?_names (distinct : relation.schema.names.Nodup)
    (width : tuple.length = relation.schema.length) :
    relation.schema.names.filterMap (relation.row tuple).get? = tuple := by
  apply filterMap_eq_of_forall₂
  rw [List.forall₂_iff_get]
  refine ⟨by rw [Schema.names, List.length_map, width], fun position inNames inTuple => ?_⟩
  exact (get?_eq_getElem? distinct (List.getElem?_eq_getElem inNames) tuple).trans
    (List.getElem?_eq_getElem inTuple)

/-- A row that lists the finds under its names has these finds under its names. -/
theorem get?_of_filterMap {find : String → Option Value} (distinct : relation.schema.names.Nodup)
    (total : ∀ name ∈ relation.schema.names, ∃ value, find name = some value)
    (listed : tuple = relation.schema.names.filterMap find)
    (member : name ∈ relation.schema.names) :
    (relation.row tuple).get? name = find name := by
  obtain ⟨position, at_position⟩ := List.getElem?_of_mem member
  have finds := forall₂_getElem? (forall₂_filterMap total) position
  rw [get?_eq_getElem? distinct at_position, listed]
  rw [at_position] at finds
  cases entry : (relation.schema.names.filterMap find)[position]? with
  | none =>
      rw [entry] at finds
      nomatch finds
  | some value =>
      rw [entry, Option.rel_some_some] at finds
      exact finds.symm

/-- Picking the positions of names is asking for the values under these names. -/
theorem pick_eq_filterMap_get? {names : List String} {positions : List Nat}
    (located : List.Forall₂
      (fun name position => relation.schema.position? name = some position) names positions)
    (tuple : Tuple) : tuple.pick positions = names.filterMap (relation.row tuple).get? := by
  induction located with
  | nil => rfl
  | @cons name position _ _ found _ ih =>
      have value : (relation.row tuple).get? name = tuple[position]? := by
        rw [get?_eq_bind, found]
        rfl
      rw [Tuple.pick] at ih
      rw [Tuple.pick, List.filterMap_cons, List.filterMap_cons, value, ih]

theorem length_pick (width : tuple.length = relation.schema.length) (positions : List Nat) :
    (tuple.pick positions).length = (relation.pick positions).schema.length := by
  have columns : List.Forall₂ (fun _ _ => True) relation.schema tuple :=
    List.forall₂_iff_get.mpr ⟨width.symm, fun _ _ _ => trivial⟩
  exact (forall₂_pick columns positions).length_eq.symm

/-- The positions that a projection keeps are those of the names that it keeps. -/
theorem located_positionsOf (distinct : relation.schema.names.Nodup) (names : List String) :
    List.Forall₂ (fun name position => relation.schema.position? name = some position)
      (relation.pick (relation.positionsOf names)).schema.names (relation.positionsOf names) := by
  rw [names_pick_positionsOf, positionsOf]
  conv => arg 2; rw [← List.zipIdx_map_fst 0 relation.schema.names, List.filter_map]
  rw [List.forall₂_map_left_iff, List.forall₂_map_right_iff]
  refine List.forall₂_same.mpr fun entry kept => ?_
  exact (Schema.position?_eq_some_iff distinct).mpr
    (List.mem_zipIdx_iff_getElem?.mp (List.mem_of_mem_filter kept))

/-- A projected row has the values of the whole row under the names that are kept. -/
theorem get?_pick_positionsOf (distinct : relation.schema.names.Nodup) (names : List String)
    (width : tuple.length = relation.schema.length)
    (kept : name ∈ (relation.pick (relation.positionsOf names)).schema.names) :
    ((relation.pick (relation.positionsOf names)).row
        (tuple.pick (relation.positionsOf names))).get? name =
      (relation.row tuple).get? name := by
  have distinctKept : (relation.pick (relation.positionsOf names)).schema.names.Nodup := by
    rw [names_pick_positionsOf]
    exact distinct.filter _
  refine get?_of_filterMap distinctKept (fun other member => exists_get? width ?_)
    (pick_eq_filterMap_get? (located_positionsOf distinct names) tuple) kept
  rw [names_pick_positionsOf] at member
  exact List.mem_of_mem_filter member

end Relation

end TypedRelations
