import TypedRelations.Proofs.Insertion.Flat

/-!
# Nulls in fields that forbid null

A field that forbids null cannot be given null in any insertion, but the null that it holds when it
is not named has never been checked. So after any run of insertions its nulls tell which rows have
been stored without naming it.
-/

namespace TypedRelations

namespace Domain

/-- A constraint of the domain rejects null, and the domain does not list null either. -/
structure ForbidsNull (domain : Domain) : Prop where
  constrained : .notNull ∈ domain.constraints
  unlisted : domain.values.contains .null = false

theorem ForbidsNull.not_accepts {domain : Domain} (forbids : domain.ForbidsNull) :
    domain.accepts .null = false := by
  rw [accepts_eq, forbids.unlisted]
  rfl

end Domain

/-- A row that a schema takes leaves null in a field that does not accept it only by not naming the
field. -/
theorem Schema.Takes.lookup_eq_null_iff {schema : Schema} {entries : List (String × Value)}
    (takes : schema.Takes entries) {field : Field} (member : field ∈ schema)
    (strict : field.accepts .null = false) :
    (entries.lookup field.name).getD .null = .null ↔ field.name ∉ entries.map Prod.fst := by
  constructor
  · intro null named
    obtain ⟨entry, given, same⟩ := List.mem_map.mp named
    have accepted := takes.accepted entry given field member same.symm
    rw [← same, lookup_eq_some_of_mem takes.distinct given, Option.getD_some] at null
    rw [null, strict] at accepted
    nomatch accepted
  · intro unnamed
    rw [lookup_eq_none_of_not_mem unnamed, Option.getD_none]

namespace Relation

variable {relation result : Relation} {entries : List (String × Value)}

/-- The pairs that a call gives, if its arguments spell pairs. -/
def Insertion.entries? : Insertion → Option (List (String × Value))
  | .named entries => some entries
  | .flat arguments => (entriesOfFlat arguments).toOption

/-- The pairs of a call that succeeds. -/
def Insertion.accepted? (relation : Relation) (call : Insertion) :
    Option (List (String × Value)) :=
  match call.apply relation with
  | .ok _ => call.entries?
  | .error _ => none

/-- The pairs of those calls of a run that succeed. -/
def accepted (relation : Relation) : List Insertion → List (List (String × Value))
  | [] => []
  | call :: rest => (call.accepted? relation).toList ++ (relation.after call).accepted rest

/-- The relation that its owner has after a run of calls. -/
def afterAll (relation : Relation) (calls : List Insertion) : Relation :=
  calls.foldl after relation

theorem Insertion.exists_entries {call : Insertion} (made : call.apply relation = .ok result) :
    ∃ entries, call.entries? = some entries ∧ relation.insert entries = .ok result := by
  cases call with
  | named entries => exact ⟨entries, rfl, made⟩
  | flat arguments =>
      rw [Insertion.apply, insertFlat] at made
      rw [entries?]
      cases read : entriesOfFlat arguments with
      | ok entries =>
          rw [read] at made
          exact ⟨entries, rfl, made⟩
      | error fault =>
          rw [read] at made
          nomatch made

/-- One call stores the tuple of the pairs that it gives, or nothing. -/
theorem after_cases (distinct : relation.schema.names.Nodup) (call : Insertion) :
    (call.accepted? relation = none ∧ relation.after call = relation) ∨
      ∃ entries, call.accepted? relation = some entries ∧ relation.schema.Takes entries ∧
        relation.after call =
          { relation with tuples := relation.tuples ++ [relation.tupleOf entries] } := by
  rw [Insertion.accepted?, after]
  cases made : call.apply relation with
  | error error => exact .inl ⟨rfl, rfl⟩
  | ok result =>
      obtain ⟨entries, given, inserted⟩ := Insertion.exists_entries made
      obtain ⟨-, checked, -, rfl⟩ := insert_eq_ok.mp inserted
      exact .inr ⟨entries, given, (checkEntries_eq_ok_iff distinct).mp checked, rfl⟩

/-- A run stores the tuples of the successful calls one behind the other. Schema and name never
change, so all of these calls are judged by the same fields. -/
theorem tuples_afterAll (distinct : relation.schema.names.Nodup) (calls : List Insertion) :
    (relation.afterAll calls).tuples =
        relation.tuples ++ (relation.accepted calls).map relation.tupleOf ∧
      ∀ entries ∈ relation.accepted calls, relation.schema.Takes entries := by
  induction calls generalizing relation with
  | nil => exact ⟨(List.append_nil _).symm, fun _ member => nomatch member⟩
  | cons call rest ih =>
      rw [accepted, afterAll, List.foldl_cons, ← afterAll]
      obtain ⟨failed, same⟩ | ⟨entries, succeeded, takes, grown⟩ := after_cases distinct call
      · rw [failed, same]
        exact ih distinct
      · rw [succeeded, grown]
        obtain ⟨stored, later⟩ :=
          @ih { relation with tuples := relation.tuples ++ [relation.tupleOf entries] } distinct
        rw [List.append_assoc] at stored
        exact ⟨stored, List.forall_mem_cons.mpr ⟨takes, later⟩⟩

/-- After any run of insertions that starts from nothing, the tuples are those of the successful
calls, and the ones with null in a field that forbids null are exactly those whose call has not
named the field. -/
theorem null_iff_unnamed {name : String} {schema : Schema} {start : Relation}
    (made : Relation.empty name schema = .ok start) (calls : List Insertion) {position : Nat}
    {field : Field} (declared : schema[position]? = some field)
    (forbids : field.domain.ForbidsNull) :
    List.Forall₂
      (fun entries tuple => ∃ value, tuple[position]? = some value ∧
        (value = .null ↔ field.name ∉ entries.map Prod.fst))
      (start.accepted calls) (start.afterAll calls).tuples := by
  obtain ⟨distinct, rfl⟩ := ofTuples_eq_ok_iff.mp made
  obtain ⟨stored, takes⟩ := @tuples_afterAll ⟨name, schema, []⟩ distinct calls
  rw [stored, List.nil_append, List.forall₂_map_right_iff, List.forall₂_same]
  have listed : schema.names[position]? = some field.name := by
    rw [Schema.getElem?_names, declared, Option.map_some]
  intro entries succeeded
  exact ⟨_, getElem?_tupleOf listed, (takes entries succeeded).lookup_eq_null_iff
    (List.mem_of_getElem? declared) forbids.not_accepts⟩

/-- The identifier of a visit. -/
def identifier : Field :=
  ⟨"id", (Domain.empty.withTypes [.int]).withConstraints [.notNull]⟩

/-- No visits yet. -/
def visits : Relation := ⟨"visits", [identifier, .any "tag"], []⟩

/-- A visit with its identifier, one whose identifier is null, and one without. -/
def arrivals : List Insertion :=
  [.named [("id", .int 1)], .named [("id", .null)], .flat [.str "tag", .int 2]]

theorem empty_visits : Relation.empty "visits" [identifier, .any "tag"] = .ok visits :=
  ofTuples_eq_ok_iff.mpr ⟨by decide, rfl⟩

theorem forbidsNull_identifier : identifier.domain.ForbidsNull :=
  ⟨List.mem_singleton.mpr rfl, by decide⟩

/-- The identifier cannot be given as null, but it can be left out and is null then. -/
theorem null_iff_unnamed_identifier :
    visits.accepted arrivals = [[("id", .int 1)], [("tag", .int 2)]] ∧
      (visits.afterAll arrivals).tuples = [[.int 1, .null], [.null, .int 2]] ∧
      List.Forall₂
        (fun entries tuple => ∃ value, tuple[0]? = some value ∧
          (value = .null ↔ "id" ∉ entries.map Prod.fst))
        (visits.accepted arrivals) (visits.afterAll arrivals).tuples :=
  ⟨rfl, rfl, null_iff_unnamed empty_visits arrivals rfl forbidsNull_identifier⟩

/-- A field that forbids null may hold it after a run. -/
theorem null_where_forbidden :
    ¬ ∀ (name : String) (schema : Schema) (start : Relation) (calls : List Insertion)
        (position : Nat) (field : Field), Relation.empty name schema = .ok start →
        schema[position]? = some field → field.domain.ForbidsNull →
        ∀ tuple ∈ (start.afterAll calls).tuples, tuple[position]? ≠ some .null := by
  intro never
  have stored : [.null, .int 2] ∈ (visits.afterAll arrivals).tuples :=
    List.mem_cons_of_mem _ List.mem_cons_self
  exact never _ _ visits arrivals 0 identifier empty_visits rfl forbidsNull_identifier _ stored rfl

end Relation

end TypedRelations
