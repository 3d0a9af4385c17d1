import TypedRelations.Domain

/-!
# Fields and schemas

A field is a name together with the domain of its values. The fields of a relation form its
schema, and the rows hold one value per field in the order of the schema. Names may be qualified:
`R.id` is the field `id` with the qualifier `R`.
-/

namespace TypedRelations

/-- A named column. -/
structure Field where
  name : String
  domain : Domain

namespace Field

instance : Inhabited Field := ⟨⟨"", .empty⟩⟩

/-- A field that holds any value but null. -/
def any (name : String) : Field := ⟨name, .any⟩

/-- Fields are equal if their names and their domains are. -/
instance : BEq Field := ⟨fun left right => left.name == right.name && left.domain == right.domain⟩

/-- The text of a field. -/
def text (field : Field) : String :=
  "Field(name=" ++ field.name ++ ", domain=" ++ field.domain.text ++ ")"

instance : ToString Field := ⟨text⟩

/-- Why the field cannot hold a value; none if it can. -/
def rejection? (field : Field) (value : Value) : Option Domain.Rejection :=
  field.domain.rejection? value

/-- The field can hold the value. -/
def accepts (field : Field) (value : Value) : Bool := field.domain.accepts value

/-- The name of a field made of two. -/
def mergedName (left right : Field) : String := left.name ++ "|" ++ right.name

/-- A field for the values of either field. -/
def union (left right : Field) : Except Constraint.Clash Field := do
  return ⟨left.mergedName right, ← left.domain.union right.domain⟩

/-- A field for the values of both fields. -/
def inter (left right : Field) : Except Constraint.Clash Field := do
  return ⟨left.mergedName right, ← left.domain.inter right.domain⟩

end Field

/-- A name with a qualifier in front. -/
def qualify (qualifier name : String) : String := qualifier ++ "." ++ name

/-- A name without the given qualifier; none if the name does not have it. -/
def unqualify? (qualifier name : String) : Option String :=
  let qualifierText := (qualifier ++ ".").toList
  if qualifierText.isPrefixOf name.toList then
    some (String.ofList (name.toList.drop qualifierText.length))
  else none

/-- Taking off the qualifier that was put in front gives the name back. -/
@[simp] theorem unqualify?_qualify (qualifier name : String) :
    unqualify? qualifier (qualify qualifier name) = some name := by
  simp [unqualify?, qualify, String.toList_append]

/-- The fields of a relation in order. -/
abbrev Schema := List Field

namespace Schema

/-- The names of the fields in order. -/
def names (schema : Schema) : List String := schema.map Field.name

/-- Where the field with the given name stands. -/
def position? (schema : Schema) (name : String) : Option Nat :=
  schema.findIdx? fun field => field.name == name

/-- The field with the given name. -/
def find? (schema : Schema) (name : String) : Option Field :=
  List.find? (fun field => field.name == name) schema

/-- The first name of a list that is among the names already seen or repeats an earlier one. -/
def repeatedFrom? (seen : List String) : List String → Option String
  | [] => none
  | name :: rest =>
    if seen.contains name then some name else repeatedFrom? (name :: seen) rest

/-- The first name that an earlier field has as well; none if all names differ. -/
def repeatedName? (schema : Schema) : Option String := repeatedFrom? [] schema.names

/-- Puts a qualifier in front of every name. -/
def qualified (schema : Schema) (qualifier : String) : Schema :=
  schema.map fun field => { field with name := qualify qualifier field.name }

/-- Takes a qualifier off the names that have it. -/
def unqualified (schema : Schema) (qualifier : String) : Schema :=
  schema.map fun field =>
    { field with name := (unqualify? qualifier field.name).getD field.name }

/-- No name is repeated exactly if the names differ from each other and from those seen. -/
theorem repeatedFrom?_eq_none_iff {seen names : List String} :
    repeatedFrom? seen names = none ↔ names.Nodup ∧ ∀ name ∈ names, name ∉ seen := by
  induction names generalizing seen with
  | nil => simp [repeatedFrom?]
  | cons name rest ih =>
    simp only [repeatedFrom?, List.contains_iff_mem, List.nodup_cons, List.mem_cons,
      forall_eq_or_imp]
    by_cases member : name ∈ seen
    · simp [member]
    · simp only [member, if_false, ih, List.mem_cons, not_or]
      constructor
      · rintro ⟨distinct, fresh⟩
        exact ⟨⟨fun inRest => (fresh name inRest).1 rfl, distinct⟩, not_false,
          fun other inRest => (fresh other inRest).2⟩
      · rintro ⟨⟨notInRest, distinct⟩, -, fresh⟩
        exact ⟨distinct, fun other inRest =>
          ⟨fun equal => notInRest (equal ▸ inRest), fresh other inRest⟩⟩

/-- No name is repeated exactly if all names differ. -/
theorem repeatedName?_eq_none_iff {schema : Schema} :
    schema.repeatedName? = none ↔ schema.names.Nodup := by
  simp [repeatedName?, repeatedFrom?_eq_none_iff]

end Schema

end TypedRelations
