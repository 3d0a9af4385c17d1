import TypedRelations.Proofs.Conformance
import TypedRelations.Proofs.Indexed.Access
import TypedRelations.Table

/-!
# Columns and rows, access by access

What takes columns out of a relation or values out of its rows: projection, looking up a field of a
row, conditions on rows and selection, the equality of relations, and tables. Positions come from
the schema, so the accesses stay in range as long as the rows are as wide as the schema.
-/

namespace TypedRelations.Indexed

open Condition (Expr Failure truth)

variable {ε : Type} {relation left right : Relation} {row : Row}

/-- The columns at the given positions, in the order of the positions. -/
def pickColumns (relation : Relation) (positions : List Nat) : Run Error Relation := do
  let schema ← pick positions relation.schema
  let tuples ← relation.tuples.mapM (pick positions)
  return { relation with schema := schema, tuples := tuples }

/-- The columns with the given names, in the order in which the relation has them. -/
def project (relation : Relation) (names : List String) : Run Error Relation :=
  match names.find? fun name =>
    name != Relation.everyField && !relation.schema.names.contains name with
  | some missing => refuse (.unknownField missing relation.name)
  | none => pickColumns relation (relation.positionsOf names)

theorem mapM_pick {positions : List Nat} {tuples : List Tuple} {width : Nat}
    (bounds : ∀ position ∈ positions, position < width)
    (widths : ∀ tuple ∈ tuples, tuple.length = width) :
    (tuples.mapM (pick positions) : Run ε (List Tuple)) = .ok (tuples.map (Tuple.pick positions)) :=
  mapM_eq_ok_map fun tuple member => pick_eq_ok fun position picked =>
    (widths tuple member).symm ▸ bounds position picked

theorem pickColumns_eq (shape : relation.WellFormed) {positions : List Nat}
    (bounds : ∀ position ∈ positions, position < relation.schema.length) :
    pickColumns relation positions = .ok (relation.pick positions) := by
  rw [pickColumns, pick_eq_ok bounds, mapM_pick bounds fun _ => shape.length_eq]
  rfl

theorem project_eq (shape : relation.WellFormed) (names : List String) :
    project relation names = lift (relation.project names) := by
  rw [project, Relation.project]
  cases names.find? fun name =>
    name != Relation.everyField && !relation.schema.names.contains name with
  | some missing => rfl
  | none =>
      apply pickColumns_eq shape
      intro position member
      rcases List.mem_map.mp member with ⟨entry, kept, rfl⟩
      have bound := lt_of_mem_zipIdx (List.mem_of_mem_filter kept)
      rwa [Schema.names, List.length_map] at bound

/-- The value of the field with the given name. -/
def get? (row : Row) (name : String) : Run ε (Option Value) :=
  match row.schema.position? name with
  | some position => (entry row.tuple position).map some
  | none => .ok none

/-- The value of an expression, with the values of names given by a computation. -/
def eval (lookup : String → Run Failure (Option Value)) : Expr → Run Failure Value
  | .literal value => .ok value
  | .field name => do
    match ← lookup name with
    | some value => return value
    | none => refuse (.unresolved name)
  | .not operand => do
    let holds ← lift (truth (← eval lookup operand))
    return .bool !holds
  | .and left right => do
    let holds ← lift (truth (← eval lookup left))
    if holds then return .bool (← lift (truth (← eval lookup right))) else return .bool false
  | .or left right => do
    let holds ← lift (truth (← eval lookup left))
    if holds then return .bool true else return .bool (← lift (truth (← eval lookup right)))
  | .compare left comparison right => do
    let leftValue ← eval lookup left
    let rightValue ← eval lookup right
    return .bool (← lift (comparison.test leftValue rightValue))

/-- The error that a failure to evaluate a condition amounts to. -/
def asError (condition : Condition) (place : String) : Failure → Error
  | .unresolved name => .unknownField name place
  | .fault fault => .condition condition.source fault

/-- The truth value of a condition on a row. -/
def evaluate (condition : Condition) (row : Row) : Run Error Bool :=
  mapRefusal (asError condition row.relation) do
    lift (truth (← eval (get? row) condition.expr))

/-- The rows for which a condition holds. -/
def select (relation : Relation) (predicate : String) : Run Error Relation := do
  let condition ← lift (Condition.parse predicate)
  let tuples ← keepWhere (fun tuple => evaluate condition (relation.row tuple)) relation.tuples
  return { relation with name := relation.name ++ " where: " ++ predicate, tuples := tuples }

theorem get?_eq (width : row.tuple.length = row.schema.length) (name : String) :
    (get? row name : Run ε (Option Value)) = .ok (row.get? name) := by
  rw [get?, Row.get?]
  cases located : row.schema.position? name with
  | none => rfl
  | some position =>
      rcases Schema.find?_eq_getElem? located with ⟨field, at_position, -, -⟩
      have bound : position < row.tuple.length :=
        width ▸ (List.getElem?_eq_some_iff.mp at_position).1
      have listed := List.getElem?_eq_getElem bound
      rw [Option.bind_some, listed]
      change (entry row.tuple position).map some = _
      rw [entry_eq_ok listed]
      rfl

theorem eval_eq {lookup : String → Run Failure (Option Value)} {scope : Scope}
    (found : ∀ name, lookup name = .ok (scope.lookup name)) (expr : Expr) :
    eval lookup expr = lift (expr.eval scope) := by
  induction expr with
  | literal value => rfl
  | field name =>
      rw [eval, Expr.eval, found, ok_bind]
      cases scope.lookup name with
      | none => rfl
      | some value => rfl
  | not operand ih =>
      rw [eval, Expr.eval, ih]
      exact lift_bind_congr fun value _ => lift_bind_congr fun holds _ => rfl
  | and left right leftIH rightIH =>
      rw [eval, Expr.eval, leftIH]
      refine lift_bind_congr fun value _ => lift_bind_congr fun holds _ => ?_
      cases holds with
      | false => rfl
      | true =>
          rw [rightIH]
          exact lift_bind_congr fun other _ => lift_bind_congr fun otherHolds _ => rfl
  | or left right leftIH rightIH =>
      rw [eval, Expr.eval, leftIH]
      refine lift_bind_congr fun value _ => lift_bind_congr fun holds _ => ?_
      cases holds with
      | true => rfl
      | false =>
          rw [rightIH]
          exact lift_bind_congr fun other _ => lift_bind_congr fun otherHolds _ => rfl
  | compare left comparison right leftIH rightIH =>
      rw [eval, Expr.eval, leftIH, rightIH]
      exact lift_bind_congr fun leftValue _ => lift_bind_congr fun rightValue _ =>
        lift_bind_congr fun holds _ => rfl

theorem evaluate_eq (width : row.tuple.length = row.schema.length) (condition : Condition) :
    evaluate condition row = lift (condition.evaluate row.scope) := by
  have evaluated : (do lift (truth (← eval (get? row) condition.expr))) =
      lift (condition.expr.holds row.scope) := by
    rw [@eval_eq _ row.scope (get?_eq width), Expr.holds, lift_bind]
  rw [evaluate, evaluated, mapRefusal_lift, Condition.evaluate]
  cases condition.expr.holds row.scope with
  | ok holds => rfl
  | error failure =>
      cases failure with
      | unresolved name => rfl
      | fault fault => rfl

theorem keepWhere_eq_lift {test : Tuple → Except Error Bool} {checked : Tuple → Run Error Bool}
    {tuples : List Tuple} (same : ∀ tuple ∈ tuples, checked tuple = lift (test tuple)) :
    keepWhere checked tuples = lift (Relation.keepWhere test tuples) := by
  induction tuples with
  | nil => rfl
  | cons tuple rest ih =>
      have later := ih fun other member => same other (List.mem_cons_of_mem _ member)
      rw [keepWhere, Relation.keepWhere, same tuple List.mem_cons_self, later]
      exact lift_bind_congr fun passes _ => lift_bind_congr fun kept _ => rfl

theorem select_eq (shape : relation.WellFormed) (predicate : String) :
    select relation predicate = lift (relation.select predicate) := by
  rw [select, Relation.select]
  refine lift_bind_congr fun condition _ => ?_
  rw [keepWhere_eq_lift fun tuple member => evaluate_eq (shape.length_eq member) condition]
  exact lift_bind_congr fun tuples _ => rfl

/-- The relations have the same name, fields of the same names in any order, and the same tuples in
the same order, read field by field. -/
def equal (left right : Relation) : Run ε Bool :=
  if left.name == right.name && left.schema.length == right.schema.length &&
      left.tuples.length == right.tuples.length then
    match left.schema.names.mapM right.schema.position? with
    | some positions =>
      (left.tuples.zip right.tuples).allM fun (first, second) => do
        return first == (← pick positions second)
    | none => return false
  else return false

/-- Positions that a schema gives for names are within the schema. -/
theorem lt_of_mapM_position? {schema : Schema} {names : List String} {positions : List Nat}
    (located : names.mapM schema.position? = some positions) :
    ∀ position ∈ positions, position < schema.length := by
  intro position member
  rcases exists_left_of_forall₂ (mapM_eq_some.mp located) member with ⟨name, -, found⟩
  rcases Schema.find?_eq_getElem? found with ⟨field, listed, -, -⟩
  exact (List.getElem?_eq_some_iff.mp listed).1

theorem equal_eq (shape : right.WellFormed) :
    (equal left right : Run ε Bool) = .ok (left == right) := by
  rw [equal]
  change _ = Except.ok (left.beq right)
  rw [Relation.beq]
  cases left.name == right.name && left.schema.length == right.schema.length &&
    left.tuples.length == right.tuples.length with
  | false => rfl
  | true =>
      rw [if_pos rfl, Bool.true_and]
      cases located : left.schema.names.mapM right.schema.position? with
      | none => rfl
      | some positions =>
          have bounds := lt_of_mapM_position? located
          refine allM_eq_all fun pair member => ?_
          have width := shape.length_eq (List.of_mem_zip member).2
          change (pick positions pair.2 >>= _) = _
          rw [pick_eq_ok (width.symm ▸ bounds)]
          rfl

/-- The width of the column at a position: the length of its longest text, the name included. -/
def columnWidth (rows : List (List String)) (position : Nat) (name : String) : Run ε Nat :=
  rows.foldlM (fun width row => do
    let text ← entry row position
    return max width text.length) name.length

/-- The table of a relation. -/
def render (relation : Relation) : Run ε String :=
  if relation.isEmpty then return "Empty set"
  else do
    let widths ← relation.schema.names.zipIdx.mapM fun (name, position) =>
      columnWidth (relation.tuples.map Table.texts) position name
    return "\n".intercalate <|
      [Table.border widths, Table.textLine widths relation.schema.names, Table.border widths] ++
        relation.tuples.map (fun tuple => Table.textLine widths (Table.texts tuple)) ++
          [Table.border widths]

theorem columnWidth_eq {rows : List (List String)} {position : Nat}
    (bounds : ∀ row ∈ rows, position < row.length) (name : String) :
    (columnWidth rows position name : Run ε Nat) = .ok (Table.columnWidth rows position name) := by
  refine foldlM_eq_foldl (fun width row member => ?_) name.length
  have listed := List.getElem?_eq_getElem (bounds row member)
  rw [entry_eq_ok listed, listed]
  rfl

theorem render_eq (shape : relation.WellFormed) :
    (render relation : Run ε String) = .ok (Table.render relation) := by
  rw [render, Table.render]
  split
  · rfl
  · have widths : (relation.schema.names.zipIdx.mapM (fun (name, position) =>
        columnWidth (relation.tuples.map Table.texts) position name) : Run ε (List Nat)) =
          .ok (Table.columnWidths relation) := by
      refine mapM_eq_ok_map fun column member => columnWidth_eq ?_ column.1
      intro row inRows
      rcases List.mem_map.mp inRows with ⟨tuple, stored, rfl⟩
      have bound := lt_of_mem_zipIdx member
      rw [Schema.names, List.length_map] at bound
      rwa [Table.texts, List.length_map, shape.length_eq stored]
    rw [widths]
    rfl

end TypedRelations.Indexed
