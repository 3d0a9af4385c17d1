import TypedRelations.Field
import TypedRelations.Proofs.Lists
import Mathlib.Data.List.Nodup

/-!
# Names of fields

A schema is searched by name for positions and for fields. As long as the names differ, a name
stands at one position only, and both searches come to the field that has the name. Qualifiers put
in front of all names change nothing about this.
-/

namespace TypedRelations

/-- A name has a qualifier taken off exactly if it is some name with this qualifier. -/
theorem unqualify?_eq_some_iff {qualifier name rest : String} :
    unqualify? qualifier name = some rest ↔ name = qualify qualifier rest := by
  constructor
  · intro unqualified
    rw [unqualify?] at unqualified
    split at unqualified
    next begins =>
      apply String.toList_injective
      rw [← Option.some.inj unqualified, qualify, String.toList_append, String.toList_ofList]
      exact (List.prefix_iff_eq_append.mp (List.isPrefixOf_iff_prefix.mp begins)).symm
    next => cases unqualified
  · rintro rfl
    exact unqualify?_qualify qualifier rest

theorem unqualify?_eq_none_iff {qualifier name : String} :
    unqualify? qualifier name = none ↔ ∀ rest, name ≠ qualify qualifier rest := by
  rw [Option.eq_none_iff_forall_ne_some]
  exact forall_congr' fun rest => not_congr unqualify?_eq_some_iff

namespace Schema

variable {schema : Schema} {name : String}

theorem mem_names : name ∈ schema.names ↔ ∃ field ∈ schema, field.name = name :=
  List.mem_map

theorem getElem?_names (schema : Schema) (position : Nat) :
    schema.names[position]? = (schema[position]?).map Field.name :=
  List.getElem?_map

@[simp] theorem names_append (left right : Schema) :
    names (left ++ right) = left.names ++ right.names :=
  List.map_append

theorem names_filter (schema : Schema) (keep : String → Bool) :
    names (schema.filter fun field => keep field.name) = schema.names.filter keep := by
  rw [names, names, List.filter_map]
  rfl

theorem position?_eq_none_iff : schema.position? name = none ↔ name ∉ schema.names := by
  rw [position?, List.findIdx?_eq_none_iff, mem_names]
  simp

theorem exists_position?_of_mem (member : name ∈ schema.names) :
    ∃ position, schema.position? name = some position := by
  cases found : schema.position? name with
  | none => exact absurd member (position?_eq_none_iff.mp found)
  | some position => exact ⟨position, rfl⟩

theorem find?_eq_bind (schema : Schema) (name : String) :
    schema.find? name = (schema.position? name).bind fun position => schema[position]? :=
  List.find?_eq_bind_findIdx?_getElem?

/-- The field at the position of a name has this name, and it is the field found by the name. -/
theorem find?_eq_getElem? {position : Nat} (found : schema.position? name = some position) :
    ∃ field, schema[position]? = some field ∧ field.name = name ∧
      schema.find? name = some field := by
  rcases List.findIdx?_eq_some_iff_getElem.mp found with ⟨inBounds, named, -⟩
  refine ⟨schema[position], List.getElem?_eq_getElem inBounds, by simpa using named, ?_⟩
  rw [find?_eq_bind, found]
  exact List.getElem?_eq_getElem inBounds

/-- When all names differ, a name stands at one position only. -/
theorem position?_eq_some_iff (distinct : schema.names.Nodup) {position : Nat} :
    schema.position? name = some position ↔ schema.names[position]? = some name := by
  constructor
  · intro found
    rcases find?_eq_getElem? found with ⟨field, at_position, named, -⟩
    rw [getElem?_names, at_position, Option.map_some, named]
  · intro listed
    rcases List.getElem?_eq_some_iff.mp listed with ⟨inBounds, named⟩
    have member : name ∈ schema.names := List.mem_of_getElem? listed
    rcases exists_position?_of_mem member with ⟨other, found⟩
    rcases find?_eq_getElem? found with ⟨field, at_other, fieldName, -⟩
    have alsoListed : schema.names[other]? = some name := by
      rw [getElem?_names, at_other, Option.map_some, fieldName]
    have bound : other < schema.names.length := (List.getElem?_eq_some_iff.mp alsoListed).1
    rw [found, (List.getElem?_inj bound distinct).mp (alsoListed.trans listed.symm)]

/-- When all names differ, a field is found by its name. -/
theorem find?_eq_some_of_mem (distinct : schema.names.Nodup) {field : Field}
    (member : field ∈ schema) : schema.find? field.name = some field := by
  rcases List.getElem_of_mem member with ⟨position, inBounds, same⟩
  have listed : schema.names[position]? = some field.name := by
    rw [getElem?_names, List.getElem?_eq_getElem inBounds, Option.map_some, same]
  rcases find?_eq_getElem? ((position?_eq_some_iff distinct).mpr listed) with
    ⟨found, at_position, -, byName⟩
  rw [List.getElem?_eq_getElem inBounds, same] at at_position
  rw [byName, at_position]

theorem count_of_repeatedFrom? {seen names : List String} {name : String}
    (repeated : repeatedFrom? seen names = some name) :
    name ∈ names ∧ (name ∈ seen ∨ 2 ≤ names.count name) := by
  induction names generalizing seen with
  | nil => nomatch repeated
  | cons head rest ih =>
      rw [repeatedFrom?] at repeated
      split at repeated
      next member =>
        cases repeated
        exact ⟨List.mem_cons_self, .inl (List.contains_iff_mem.mp member)⟩
      next =>
        obtain ⟨listed, earlier⟩ := ih repeated
        refine ⟨List.mem_cons_of_mem _ listed, ?_⟩
        rcases earlier with inSeen | twice
        · rcases List.mem_cons.mp inSeen with rfl | before
          · have once := List.count_pos_iff.mpr listed
            rw [List.count_cons_self]
            exact .inr (by omega)
          · exact .inl before
        · exact .inr (Nat.le_trans twice List.count_le_count_cons)

/-- A name is reported as repeated only if two fields have it. -/
theorem two_le_count_of_repeatedName? {schema : Schema} {name : String}
    (repeated : schema.repeatedName? = some name) : 2 ≤ schema.names.count name :=
  (count_of_repeatedFrom? repeated).2.resolve_left List.not_mem_nil

theorem qualify_injective (qualifier : String) : Function.Injective (qualify qualifier) := by
  intro left right same
  have stripped := congrArg (unqualify? qualifier) same
  rw [unqualify?_qualify, unqualify?_qualify] at stripped
  exact Option.some.inj stripped

@[simp] theorem names_qualified (schema : Schema) (qualifier : String) :
    (schema.qualified qualifier).names = schema.names.map (qualify qualifier) := by
  simp [names, qualified, Function.comp_def]

@[simp] theorem length_qualified (schema : Schema) (qualifier : String) :
    (schema.qualified qualifier).length = schema.length :=
  List.length_map _

/-- Qualified names differ if the plain ones do. -/
theorem nodup_names_qualified {qualifier : String} :
    (schema.qualified qualifier).names.Nodup ↔ schema.names.Nodup := by
  rw [names_qualified]
  exact List.nodup_map_iff (qualify_injective qualifier)

end Schema

end TypedRelations
