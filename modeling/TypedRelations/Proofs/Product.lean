import TypedRelations.Proofs.Rows

/-!
# Names and values of a product

As long as a product succeeds, a row has under a qualified name what the row of the one relation has
under the plain name, so it makes no difference to these values which relation comes first
(`get?_productSchema_swap`).
-/

namespace TypedRelations.Relation

variable {relation left right : Relation}

theorem position?_qualified (schema : Schema) (qualifier name : String) :
    (schema.qualified qualifier).position? (qualify qualifier name) = schema.position? name := by
  rw [Schema.position?, Schema.qualified, List.findIdx?_map]
  change List.findIdx? (fun field => qualify qualifier field.name == qualify qualifier name)
      schema =
    List.findIdx? (fun field => field.name == name) schema
  congr 1
  funext field
  rw [Bool.eq_iff_iff, beq_iff_eq, beq_iff_eq]
  exact (Schema.qualify_injective qualifier).eq_iff

theorem names_productSchema (left right : Relation) :
    (left.productSchema right).names =
      left.schema.names.map (qualify left.name) ++ right.schema.names.map (qualify right.name) := by
  rw [productSchema, Schema.names_append, Schema.names_qualified, Schema.names_qualified]

theorem position?_productSchema_left {name : String} (member : name ∈ left.schema.names) :
    (left.productSchema right).position? (qualify left.name name) =
      left.schema.position? name := by
  rcases Schema.exists_position?_of_mem member with ⟨position, found⟩
  rw [Schema.position?, productSchema, List.findIdx?_append]
  change ((left.schema.qualified left.name).position? _).or _ = _
  rw [position?_qualified, found]
  rfl

theorem position?_productSchema_right (distinct : (left.productSchema right).names.Nodup)
    {name : String} (member : name ∈ right.schema.names) :
    (left.productSchema right).position? (qualify right.name name) =
      (right.schema.position? name).map (· + left.schema.length) := by
  rw [productSchema, Schema.names_append, List.nodup_append] at distinct
  have absent : qualify right.name name ∉ (left.schema.qualified left.name).names := by
    intro present
    apply distinct.2.2 _ present (qualify right.name name) _ rfl
    rw [Schema.names_qualified]
    exact List.mem_map_of_mem member
  rw [Schema.position?, productSchema, List.findIdx?_append]
  change ((left.schema.qualified left.name).position? _).or
    (((right.schema.qualified right.name).position? _).map _) = _
  rw [Schema.position?_eq_none_iff.mpr absent, position?_qualified, Schema.length_qualified]
  rfl

/-- A row of the product has the values of its left part under their qualified names. -/
theorem get?_productSchema_left {source name : String} {first : Tuple} (second : Tuple)
    (width : first.length = left.schema.length) (member : name ∈ left.schema.names) :
    (Row.mk source (left.productSchema right) (first ++ second)).get? (qualify left.name name) =
      (left.row first).get? name := by
  rw [Row.get?, Row.get?, position?_productSchema_left member]
  change (left.schema.position? name).bind _ = (left.schema.position? name).bind _
  rcases Schema.exists_position?_of_mem member with ⟨position, found⟩
  rcases Schema.find?_eq_getElem? found with ⟨field, at_position, -, -⟩
  rw [found]
  apply List.getElem?_append_left
  rw [width]
  exact (List.getElem?_eq_some_iff.mp at_position).1

theorem get?_productSchema_right (distinct : (left.productSchema right).names.Nodup)
    {source name : String} {first : Tuple} (second : Tuple)
    (width : first.length = left.schema.length) (member : name ∈ right.schema.names) :
    (Row.mk source (left.productSchema right) (first ++ second)).get? (qualify right.name name) =
      (right.row second).get? name := by
  rw [Row.get?, Row.get?, position?_productSchema_right distinct member]
  change ((right.schema.position? name).map _).bind _ = (right.schema.position? name).bind _
  rcases Schema.exists_position?_of_mem member with ⟨position, found⟩
  rw [found]
  change (first ++ second)[position + left.schema.length]? = second[position]?
  rw [List.getElem?_append_right (by omega), width, Nat.add_sub_cancel]

theorem names_productSchema_swap (left right : Relation) :
    (right.productSchema left).names.Perm (left.productSchema right).names := by
  rw [names_productSchema, names_productSchema]
  exact List.perm_append_comm

/-- Two rows side by side have the same values under the qualified names in either order. -/
theorem get?_productSchema_swap (distinct : (left.productSchema right).names.Nodup)
    {source otherSource : String} {first second : Tuple}
    (firstWidth : first.length = left.schema.length)
    (secondWidth : second.length = right.schema.length) :
    (Row.mk source (left.productSchema right) (first ++ second)).get? =
      (Row.mk otherSource (right.productSchema left) (second ++ first)).get? := by
  have names := names_productSchema_swap left right
  have otherDistinct := names.nodup_iff.mpr distinct
  funext name
  by_cases member : name ∈ (left.productSchema right).names
  · rw [names_productSchema, List.mem_append] at member
    cases member with
    | inl inLeft =>
        obtain ⟨plain, isField, rfl⟩ := List.mem_map.mp inLeft
        rw [get?_productSchema_left second firstWidth isField,
          get?_productSchema_right otherDistinct first secondWidth isField]
    | inr inRight =>
        obtain ⟨plain, isField, rfl⟩ := List.mem_map.mp inRight
        rw [get?_productSchema_right distinct second firstWidth isField,
          get?_productSchema_left first secondWidth isField]
  · have absent := mt names.mem_iff.mp member
    rw [Row.get?, Row.get?, Schema.position?_eq_none_iff.mpr member,
      Schema.position?_eq_none_iff.mpr absent]
    rfl

end TypedRelations.Relation
