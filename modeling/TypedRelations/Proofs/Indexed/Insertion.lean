import TypedRelations.Proofs.Conformance
import TypedRelations.Proofs.Indexed.Access

/-!
# Insertion, access by access

On arrays a row is built up in an array of values, next to an array of marks for the fields that
have got theirs. No access fails, and the row comes out that the library inserts, which looks the
values up by name (`insert_eq`, `insertFlat_eq`).
-/

namespace TypedRelations.Indexed

variable {relation : Relation}

/-- Looks for the name of a field among the fields before it. -/
def checkName (name : String) (schema : Schema) : Field × Nat → Run Error Unit
  | (field, position) => do
    let earlier ← upTo schema position
    if earlier.any fun other => other.name == field.name then
      refuse (.duplicateField field.name name)

/-- The relation with the given parts, provided that no two fields have the same name. -/
def ofTuples (name : String) (schema : Schema) (tuples : List Tuple) : Run Error Relation := do
  forM schema.zipIdx (checkName name schema)
  return ⟨name, schema, tuples⟩

/-- The search through the fields before finds a name exactly if it has been seen. -/
theorem forM_checkName (name : String) {before rest : Schema} {seen : List String}
    (same : ∀ other, seen.contains other = before.any fun field => field.name == other) :
    forM (rest.zipIdx before.length) (checkName name (before ++ rest)) =
      lift (match Schema.repeatedFrom? seen rest.names with
        | some repeated => .error (.duplicateField repeated name)
        | none => .ok ()) := by
  induction rest generalizing before seen with
  | nil => rfl
  | cons field rest ih =>
      have checked : checkName name (before ++ field :: rest) (field, before.length) =
          if seen.contains field.name then refuse (.duplicateField field.name name)
          else .ok () := by
        simp only [checkName]
        rw [upTo_eq_ok (by simp), List.take_left, same]
        rfl
      rw [List.zipIdx_cons, List.forM_cons, checked, Schema.names, List.map_cons,
        Schema.repeatedFrom?]
      split
      · rfl
      · have grown : ∀ other, (field.name :: seen).contains other =
            (before ++ [field]).any fun earlier => earlier.name == other := by
          intro other
          rw [List.contains_cons, same, List.any_append, List.any_cons, List.any_nil,
            Bool.or_false, Bool.or_comm, BEq.comm]
        have later := ih grown
        rw [List.length_append, List.append_assoc] at later
        exact later

theorem ofTuples_eq (name : String) (schema : Schema) (tuples : List Tuple) :
    ofTuples name schema tuples = lift (Relation.ofTuples name schema tuples) := by
  have checked := @forM_checkName name [] schema [] fun other => rfl
  rw [List.nil_append, List.length_nil] at checked
  rw [ofTuples, checked, Relation.ofTuples, Schema.repeatedName?]
  cases Schema.repeatedFrom? [] schema.names with
  | none => rfl
  | some repeated => rfl

/-- Puts named values into an array of values, one after the other. An array of marks says which
fields have got theirs. -/
def assign (relation : Relation) : List (String × Value) → Tuple → List Bool → Run Error Tuple
  | [], values, _ => .ok values
  | (name, value) :: rest, values, marks => do
    let position ← lift (relation.position name)
    if ← entry marks position then refuse (.duplicateField name relation.name)
    else
      let field ← entry relation.schema position
      match field.rejection? value with
      | some rejection => refuse (.validation name value rejection)
      | none =>
        let values ← overwrite values position value
        let marks ← overwrite marks position true
        assign relation rest values marks

/-- The relation with one more row, given by the values of some of its fields. -/
def insert (relation : Relation) (entries : List (String × Value)) : Run Error Relation :=
  if relation.schema.length < entries.length then
    refuse (.arity relation.name (.tooMany relation.schema.length entries.length))
  else do
    let tuple ← assign relation entries (Tuple.nulls relation.schema.length)
      (List.replicate relation.schema.length false)
    if relation.tuples.contains tuple then refuse (.duplicateRow relation.name)
    else return { relation with tuples := relation.tuples ++ [tuple] }

/-- Pairs of neighbours, and the last item alone if their number is odd. -/
def chunks {α : Type} : List α → List (List α)
  | first :: second :: rest => [first, second] :: chunks rest
  | [last] => [[last]]
  | [] => []

/-- Reads pairs of a name and a value, the first of which stands at the given position. -/
def entriesOfChunks (position : Nat) : List (List Value) → Run ArityFault (List (String × Value))
  | [] => .ok []
  | chunk :: rest => do
    match ← entry chunk 0 with
    | .str name =>
      let value ← entry chunk 1
      return (name, value) :: (← entriesOfChunks (position + 2) rest)
    | found => refuse (.notAName position found)

/-- The relation with one more row, given by names and values that take turns. -/
def insertFlat (relation : Relation) (arguments : List Value) : Run Error Relation :=
  if arguments.length % 2 = 1 then refuse (.arity relation.name (.oddCount arguments.length))
  else do
    let entries ← mapRefusal (.arity relation.name) (entriesOfChunks 0 (chunks arguments))
    insert relation entries

/-- What the array of values holds after some entries. -/
def valuesAfter (relation : Relation) (given : List (String × Value)) : Tuple :=
  relation.schema.names.map fun name => (given.lookup name).getD .null

/-- What the array of marks holds after some entries. -/
def marksAfter (relation : Relation) (given : List (String × Value)) : List Bool :=
  relation.schema.names.map (given.map Prod.fst).contains

/-- Writing into the image of a list of different labels changes it for one label. -/
theorem overwrite_map {α β ε : Type} [DecidableEq α] {labels : List α} (distinct : labels.Nodup)
    {position : Nat} {label : α} (listed : labels[position]? = some label) (image : α → β)
    (item : β) :
    (overwrite (labels.map image) position item : Run ε (List β)) =
      .ok (labels.map fun other => if other = label then item else image other) := by
  have bound := (List.getElem?_eq_some_iff.mp listed).1
  rw [overwrite_eq_ok (by rwa [List.length_map])]
  congr 1
  apply List.ext_getElem?
  intro index
  rw [List.getElem?_set, List.length_map, List.getElem?_map, List.getElem?_map]
  split
  next here =>
    rw [← here, listed, Option.map_some, if_pos rfl]
  next elsewhere =>
    cases found : labels[index]? with
    | none => rfl
    | some other =>
        have differs : other ≠ label := by
          intro same
          rw [same, ← listed] at found
          exact elsewhere ((List.getElem?_inj bound distinct).mp found.symm)
        rw [Option.map_some, Option.map_some, if_neg differs]

theorem overwrite_valuesAfter (distinct : relation.schema.names.Nodup) {position : Nat}
    {name : String} (listed : relation.schema.names[position]? = some name)
    (given : List (String × Value)) (value : Value) :
    (overwrite (valuesAfter relation given) position value : Run Error Tuple) =
      .ok (valuesAfter relation ((name, value) :: given)) := by
  rw [valuesAfter, overwrite_map distinct listed, valuesAfter]
  congr 2
  funext other
  rw [List.lookup_cons]
  by_cases same : other = name
  · rw [if_pos same, beq_iff_eq.mpr same]
    rfl
  · rw [if_neg same, beq_false_of_ne same]

theorem overwrite_marksAfter (distinct : relation.schema.names.Nodup) {position : Nat}
    {name : String} (listed : relation.schema.names[position]? = some name)
    (given : List (String × Value)) (value : Value) :
    (overwrite (marksAfter relation given) position true : Run Error (List Bool)) =
      .ok (marksAfter relation ((name, value) :: given)) := by
  rw [marksAfter, overwrite_map distinct listed, marksAfter]
  congr 2
  funext other
  rw [List.map_cons, List.contains_cons]
  by_cases same : other = name <;> simp [same]

theorem assign_cons {name : String} {value : Value} {rest : List (String × Value)}
    {values : Tuple} {marks : List Bool} {position : Nat} {field : Field} {marked : Bool}
    (located : relation.schema.position? name = some position)
    (at_position : relation.schema[position]? = some field)
    (listed : marks[position]? = some marked) :
    assign relation ((name, value) :: rest) values marks =
      if marked then refuse (.duplicateField name relation.name)
      else
        match field.rejection? value with
        | some rejection => refuse (.validation name value rejection)
        | none =>
          (overwrite values position value >>= fun values =>
            overwrite marks position true >>= fun marks =>
              assign relation rest values marks) := by
  rw [assign, Relation.position, located]
  simp only [lift_ok, ok_bind, entry_eq_ok listed, entry_eq_ok at_position]

/-- An entry may change sides in the search for a name, as long as no entry before it has its
name. -/
theorem lookup_moved {name : String} {given : List (String × Value)}
    (fresh : name ∉ given.map Prod.fst) (value : Value) (rest : List (String × Value))
    (other : String) :
    (((name, value) :: given).lookup other).or (rest.lookup other) =
      (given.lookup other).or (((name, value) :: rest).lookup other) := by
  rw [List.lookup_cons, List.lookup_cons]
  by_cases same : other = name
  · rw [same, lookup_eq_none_of_not_mem fresh, beq_self_eq_true]
    rfl
  · rw [beq_false_of_ne same]

/-- The arrays are always as long as the schema, and they end up with the values that the entries
name. -/
theorem assign_eq (distinct : relation.schema.names.Nodup) (given rest : List (String × Value)) :
    assign relation rest (valuesAfter relation given) (marksAfter relation given) =
      lift (relation.checkEntries (given.map Prod.fst) rest >>= fun _ =>
        .ok (relation.schema.names.map fun name =>
          ((given.lookup name).or (rest.lookup name)).getD .null)) := by
  induction rest generalizing given with
  | nil =>
      simp only [List.lookup_nil, Option.or_none]
      rfl
  | cons entry rest ih =>
      rcases entry with ⟨name, value⟩
      cases located : relation.schema.position? name with
      | none =>
          rw [assign, Relation.checkEntries, Relation.position, Schema.find?_eq_bind, located]
          rfl
      | some position =>
          rcases Schema.find?_eq_getElem? located with ⟨field, at_position, -, byName⟩
          have listed := (Schema.position?_eq_some_iff distinct).mp located
          have markedForName : (marksAfter relation given)[position]? =
              some ((given.map Prod.fst).contains name) := by
            rw [marksAfter, List.getElem?_map, listed, Option.map_some]
          rw [assign_cons located at_position markedForName, Relation.checkEntries, byName]
          change (if _ then _ else _) = lift ((if _ then _ else _) >>= _)
          split
          · rfl
          next fresh =>
            cases judged : field.rejection? value with
            | some rejection => rfl
            | none =>
                change (overwrite _ position value >>= _) = _
                rw [overwrite_valuesAfter distinct listed, ok_bind,
                  overwrite_marksAfter distinct listed given value, ok_bind, ih]
                change lift (relation.checkEntries (name :: given.map Prod.fst) rest >>= _) =
                  lift (relation.checkEntries (name :: given.map Prod.fst) rest >>= _)
                congr 2
                funext checked
                congr 2
                funext other
                rw [List.contains_iff_mem] at fresh
                rw [lookup_moved fresh]

theorem insert_eq (shape : relation.WellFormed) (entries : List (String × Value)) :
    insert relation entries = lift (relation.insert entries) := by
  have width : relation.schema.names.length = relation.schema.length := List.length_map _
  have empty : valuesAfter relation [] = Tuple.nulls relation.schema.length :=
    List.map_const'.trans (congrArg Tuple.nulls width)
  have unmarked : marksAfter relation [] = List.replicate relation.schema.length false :=
    List.map_const'.trans (congrArg (List.replicate · false) width)
  rw [insert, Relation.insert, ← empty, ← unmarked, assign_eq shape.names_nodup]
  split
  · rfl
  · rw [lift_bind, lift_bind, bind_assoc]
    congr 1
    funext checked
    change (if relation.tuples.contains (relation.tupleOf entries) then _ else _) = lift _
    split
    · rfl
    · rfl

theorem entriesOfChunks_eq {arguments : List Value} (even : arguments.length % 2 = 0)
    (position : Nat) :
    entriesOfChunks position (chunks arguments) =
      lift (Relation.entriesFrom position arguments) := by
  induction arguments using chunks.induct generalizing position with
  | case1 first second rest ih =>
      rw [List.length_cons, List.length_cons] at even
      have later := ih (by omega) (position + 2)
      cases first with
      | str name =>
          change (entriesOfChunks (position + 2) (chunks rest) >>= _) = _
          rw [later, Relation.entriesFrom]
          cases Relation.entriesFrom (position + 2) rest with
          | error fault => rfl
          | ok entries => rfl
      | _ => rfl
  | case2 last => simp at even
  | case3 => rfl

theorem insertFlat_eq (shape : relation.WellFormed) (arguments : List Value) :
    insertFlat relation arguments = lift (relation.insertFlat arguments) := by
  rw [insertFlat, Relation.insertFlat, Relation.entriesOfFlat]
  split
  · rfl
  next even =>
    rw [entriesOfChunks_eq (by omega), mapRefusal_lift]
    cases Relation.entriesFrom 0 arguments with
    | error fault => rfl
    | ok entries => exact insert_eq shape entries

end TypedRelations.Indexed
