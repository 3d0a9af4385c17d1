import TypedRelations.Proofs.Rows
import Mathlib.Data.List.Induction

/-!
# Which rows an insertion takes

Insertion checks its pairs of a name and a value one after the other. Here the list of pairs is
judged as a whole: which lists are taken, which tuple is stored for them, and which error the others
are refused with. The order of the pairs only decides which error comes first.
-/

namespace TypedRelations

namespace Schema

variable {schema : Schema} {entries : List (String × Value)}

/-- Every pair names a field, no two pairs name the same one, and every value is legal in the
domain of its field. -/
structure Takes (schema : Schema) (entries : List (String × Value)) : Prop where
  known : ∀ entry ∈ entries, entry.1 ∈ schema.names
  distinct : (entries.map Prod.fst).Nodup
  accepted : ∀ entry ∈ entries, ∀ field ∈ schema, field.name = entry.1 →
    field.accepts entry.2 = true

theorem takes_nil (schema : Schema) : schema.Takes [] :=
  ⟨by simp, by simp, by simp⟩

/-- One more pair is judged on its own and against the names before it. -/
theorem takes_append_singleton {entry : String × Value} :
    schema.Takes (entries ++ [entry]) ↔
      schema.Takes entries ∧ schema.Takes [entry] ∧ entry.1 ∉ entries.map Prod.fst := by
  have names : ((entries ++ [entry]).map Prod.fst).Nodup ↔
      (entries.map Prod.fst).Nodup ∧ entry.1 ∉ entries.map Prod.fst := by
    rw [List.map_append, List.nodup_append_comm]
    exact List.nodup_cons.trans and_comm
  constructor
  · rintro ⟨known, distinct, accepted⟩
    rw [List.forall_mem_append] at known accepted
    obtain ⟨distinct, fresh⟩ := names.mp distinct
    exact ⟨⟨known.1, distinct, accepted.1⟩,
      ⟨known.2, List.nodup_singleton _, accepted.2⟩, fresh⟩
  · rintro ⟨before, alone, fresh⟩
    exact ⟨List.forall_mem_append.mpr ⟨before.known, alone.known⟩,
      names.mpr ⟨before.distinct, fresh⟩,
      List.forall_mem_append.mpr ⟨before.accepted, alone.accepted⟩⟩

theorem Takes.perm {others : List (String × Value)} (takes : schema.Takes entries)
    (permuted : entries.Perm others) : schema.Takes others where
  known entry member := takes.known entry (permuted.mem_iff.mpr member)
  distinct := (permuted.map Prod.fst).nodup_iff.mp takes.distinct
  accepted entry member := takes.accepted entry (permuted.mem_iff.mpr member)

end Schema

namespace Relation

variable {relation result : Relation} {entries : List (String × Value)} {tuple : Tuple}

/-- The tuple holds the given values, and null in every field that is not named. -/
structure IsRowOf (relation : Relation) (entries : List (String × Value)) (tuple : Tuple) :
    Prop where
  width : tuple.length = relation.schema.length
  given : ∀ entry ∈ entries, (relation.row tuple).get? entry.1 = some entry.2
  unnamed : ∀ name ∈ relation.schema.names, name ∉ entries.map Prod.fst →
    (relation.row tuple).get? name = some .null

theorem getElem?_tupleOf {position : Nat} {name : String}
    (listed : relation.schema.names[position]? = some name) :
    (relation.tupleOf entries)[position]? = some ((entries.lookup name).getD .null) := by
  rw [tupleOf, List.getElem?_map, listed, Option.map_some]

theorem get?_tupleOf (distinct : relation.schema.names.Nodup) {name : String}
    (member : name ∈ relation.schema.names) :
    (relation.row (relation.tupleOf entries)).get? name =
      some ((entries.lookup name).getD .null) := by
  obtain ⟨position, listed⟩ := List.getElem?_of_mem member
  rw [get?_eq_getElem? distinct listed, getElem?_tupleOf listed]

/-- The tuple that insertion builds is the one that the pairs describe. -/
theorem isRowOf_tupleOf (distinct : relation.schema.names.Nodup)
    (takes : relation.schema.Takes entries) :
    relation.IsRowOf entries (relation.tupleOf entries) where
  width := by rw [tupleOf, Schema.names, List.length_map, List.length_map]
  given entry member := by
    rw [get?_tupleOf distinct (takes.known entry member),
      lookup_eq_some_of_mem takes.distinct member, Option.getD_some]
  unnamed name member unnamed := by
    rw [get?_tupleOf distinct member, lookup_eq_none_of_not_mem unnamed, Option.getD_none]

theorem IsRowOf.unique (distinct : relation.schema.names.Nodup) {other : Tuple}
    (row : relation.IsRowOf entries tuple) (otherRow : relation.IsRowOf entries other) :
    tuple = other := by
  rw [← filterMap_get?_names distinct row.width, ← filterMap_get?_names distinct otherRow.width]
  refine List.filterMap_congr fun name member => ?_
  by_cases named : name ∈ entries.map Prod.fst
  · obtain ⟨entry, inEntries, rfl⟩ := List.mem_map.mp named
    rw [row.given entry inEntries, otherRow.given entry inEntries]
  · rw [row.unnamed name member named, otherRow.unnamed name member named]

theorem IsRowOf.perm {others : List (String × Value)} (row : relation.IsRowOf entries tuple)
    (permuted : entries.Perm others) : relation.IsRowOf others tuple where
  width := row.width
  given entry member := row.given entry (permuted.mem_iff.mpr member)
  unnamed name member unnamed :=
    row.unnamed name member fun named => unnamed ((permuted.map Prod.fst).mem_iff.mp named)

/-- Why a pair is refused behind pairs of the given names. It fails the test of its constructor and
passes those of the constructors before. -/
inductive Refuses (relation : Relation) (given : List String) : String × Value → Error → Prop where
  | unknown {name : String} {value : Value} (absent : name ∉ relation.schema.names) :
      Refuses relation given (name, value) (.unknownField name relation.name)
  | repeated {name : String} {value : Value} (known : name ∈ relation.schema.names)
      (again : name ∈ given) :
      Refuses relation given (name, value) (.duplicateField name relation.name)
  | rejected {field : Field} {value : Value} {rejection : Domain.Rejection}
      (known : field ∈ relation.schema) (fresh : field.name ∉ given)
      (reason : field.rejection? value = some rejection) :
      Refuses relation given (field.name, value) (.validation field.name value rejection)

/-- The pairs are taken up to one that is refused with the error. -/
inductive Offends (relation : Relation) : List (String × Value) → Error → Prop where
  | at_first {before after : List (String × Value)} {entry : String × Value} {error : Error}
      (takes : relation.schema.Takes before)
      (refused : relation.Refuses (before.map Prod.fst) entry error) :
      Offends relation (before ++ entry :: after) error

/-- A pair that no test stops can follow the pairs of the given names. -/
theorem takes_or_refuses (relation : Relation) (given : List String) (entry : String × Value) :
    (relation.schema.Takes [entry] ∧ entry.1 ∉ given) ∨
      ∃ error, relation.Refuses given entry error := by
  obtain ⟨name, value⟩ := entry
  by_cases known : name ∈ relation.schema.names
  case neg => exact .inr ⟨_, .unknown known⟩
  by_cases again : name ∈ given
  case pos => exact .inr ⟨_, .repeated known again⟩
  by_cases accepted : ∀ field ∈ relation.schema, field.name = name → field.accepts value = true
  case pos =>
    refine .inl ⟨⟨?_, List.nodup_singleton _, ?_⟩, again⟩
    · exact List.forall_mem_singleton.mpr known
    · exact List.forall_mem_singleton.mpr accepted
  case neg =>
    push Not at accepted
    obtain ⟨field, member, rfl, refused⟩ := accepted
    cases reason : field.rejection? value with
    | none => exact absurd (Option.isNone_iff_eq_none.mpr reason) refused
    | some rejection => exact .inr ⟨_, .rejected member again reason⟩

theorem takes_or_offends (relation : Relation) (entries : List (String × Value)) :
    relation.schema.Takes entries ∨ ∃ error, relation.Offends entries error := by
  induction entries using List.reverseRecOn with
  | nil => exact .inl relation.schema.takes_nil
  | append_singleton before entry ih =>
      obtain takes | ⟨error, offends⟩ := ih
      · obtain ⟨alone, fresh⟩ | ⟨error, refused⟩ :=
          takes_or_refuses relation (before.map Prod.fst) entry
        · exact .inl (Schema.takes_append_singleton.mpr ⟨takes, alone, fresh⟩)
        · exact .inr ⟨error, .at_first takes refused⟩
      · obtain ⟨earlier, refused⟩ := offends
        rw [List.append_assoc, List.cons_append]
        exact .inr ⟨error, .at_first earlier refused⟩

/-- The check goes on behind a pair that can follow. It has the names before in reverse. -/
theorem checkEntries_of_takes (distinct : relation.schema.names.Nodup) {given : List String}
    {entry : String × Value} (takes : relation.schema.Takes [entry]) (fresh : entry.1 ∉ given)
    (rest : List (String × Value)) :
    relation.checkEntries given.reverse (entry :: rest) =
      relation.checkEntries (given ++ [entry.1]).reverse rest := by
  obtain ⟨name, value⟩ := entry
  obtain ⟨field, member, rfl⟩ :=
    Schema.mem_names.mp (takes.known _ (List.mem_singleton.mpr rfl))
  have legal : field.rejection? value = none :=
    Option.isNone_iff_eq_none.mp (takes.accepted _ (List.mem_singleton.mpr rfl) field member rfl)
  have unseen : given.reverse.contains field.name = false := by simpa using fresh
  rw [checkEntries, Schema.find?_eq_some_of_mem distinct member]
  simp only [unseen, Bool.false_eq_true, if_false, legal, List.reverse_append,
    List.reverse_singleton, List.singleton_append]

theorem checkEntries_of_refuses (distinct : relation.schema.names.Nodup) {given : List String}
    {entry : String × Value} {error : Error} (refused : relation.Refuses given entry error)
    (rest : List (String × Value)) :
    relation.checkEntries given.reverse (entry :: rest) = .error error := by
  rw [checkEntries.eq_def]
  cases refused with
  | unknown absent =>
      simp only [Schema.find?_eq_bind, Schema.position?_eq_none_iff.mpr absent, Option.bind_none]
  | @repeated name value known again =>
      obtain ⟨field, member, rfl⟩ := Schema.mem_names.mp known
      have seen : given.reverse.contains field.name = true := by simpa using again
      simp only [Schema.find?_eq_some_of_mem distinct member, seen, if_true]
  | @rejected field value rejection known fresh reason =>
      have unseen : given.reverse.contains field.name = false := by simpa using fresh
      simp only [Schema.find?_eq_some_of_mem distinct known, unseen, Bool.false_eq_true, if_false,
        reason]

/-- The check passes over pairs that are taken. -/
theorem checkEntries_append (distinct : relation.schema.names.Nodup)
    (takes : relation.schema.Takes entries) (rest : List (String × Value)) :
    relation.checkEntries [] (entries ++ rest) =
      relation.checkEntries (entries.map Prod.fst).reverse rest := by
  induction entries using List.reverseRecOn generalizing rest with
  | nil => rfl
  | append_singleton before entry ih =>
      obtain ⟨earlier, alone, fresh⟩ := Schema.takes_append_singleton.mp takes
      rw [List.append_assoc, List.singleton_append, ih earlier,
        checkEntries_of_takes distinct alone fresh, List.map_append, List.map_singleton]

theorem checkEntries_of_offends (distinct : relation.schema.names.Nodup) {error : Error}
    (offends : relation.Offends entries error) :
    relation.checkEntries [] entries = .error error := by
  obtain ⟨takes, refused⟩ := offends
  rw [checkEntries_append distinct takes, checkEntries_of_refuses distinct refused]

theorem checkEntries_eq_ok_iff (distinct : relation.schema.names.Nodup) :
    relation.checkEntries [] entries = .ok () ↔ relation.schema.Takes entries := by
  constructor
  · intro checked
    obtain takes | ⟨error, offends⟩ := takes_or_offends relation entries
    · exact takes
    · rw [checkEntries_of_offends distinct offends] at checked
      nomatch checked
  · intro takes
    have passed := checkEntries_append distinct takes []
    rw [List.append_nil] at passed
    rw [passed, checkEntries]

theorem checkEntries_eq_error_iff (distinct : relation.schema.names.Nodup) {error : Error} :
    relation.checkEntries [] entries = .error error ↔ relation.Offends entries error := by
  constructor
  · intro checked
    obtain takes | ⟨other, offends⟩ := takes_or_offends relation entries
    · rw [(checkEntries_eq_ok_iff distinct).mpr takes] at checked
      nomatch checked
    · rw [checkEntries_of_offends distinct offends] at checked
      exact Except.error.inj checked ▸ offends
  · exact checkEntries_of_offends distinct

/-! ## Success and failure -/

/-- The error that an insertion fails with. The number of pairs comes first, the pairs come next,
and the rows already stored come last. -/
inductive Rejects (relation : Relation) (entries : List (String × Value)) : Error → Prop where
  | tooMany (more : relation.schema.length < entries.length) :
      Rejects relation entries
        (.arity relation.name (.tooMany relation.schema.length entries.length))
  | offending {error : Error} (fits : entries.length ≤ relation.schema.length)
      (offends : relation.Offends entries error) : Rejects relation entries error
  | stored {tuple : Tuple} (fits : entries.length ≤ relation.schema.length)
      (takes : relation.schema.Takes entries) (row : relation.IsRowOf entries tuple)
      (stored : relation.tuples.contains tuple = true) :
      Rejects relation entries (.duplicateRow relation.name)

/-- The list of pairs makes a row that the relation can still take. -/
structure Inserts (relation : Relation) (entries : List (String × Value)) (tuple : Tuple) :
    Prop where
  length_le : entries.length ≤ relation.schema.length
  takes : relation.schema.Takes entries
  row : relation.IsRowOf entries tuple
  fresh : relation.tuples.contains tuple = false

theorem insert_eq_ok_iff (distinct : relation.schema.names.Nodup) :
    relation.insert entries = .ok result ↔
      ∃ tuple, relation.Inserts entries tuple ∧
        result = { relation with tuples := relation.tuples ++ [tuple] } := by
  rw [insert_eq_ok, checkEntries_eq_ok_iff distinct]
  constructor
  · rintro ⟨fits, takes, fresh, rfl⟩
    exact ⟨_, ⟨fits, takes, isRowOf_tupleOf distinct takes, fresh⟩, rfl⟩
  · rintro ⟨tuple, ⟨fits, takes, row, fresh⟩, rfl⟩
    rw [row.unique distinct (isRowOf_tupleOf distinct takes)] at fresh ⊢
    exact ⟨fits, takes, fresh, rfl⟩

theorem insert_of_rejects (distinct : relation.schema.names.Nodup) {error : Error}
    (rejects : relation.Rejects entries error) : relation.insert entries = .error error := by
  rw [insert]
  cases rejects with
  | tooMany more => rw [if_pos more]
  | offending fits offends =>
      rw [if_neg (Nat.not_lt_of_le fits), (checkEntries_eq_error_iff distinct).mpr offends]
      rfl
  | stored fits takes row stored =>
      rw [if_neg (Nat.not_lt_of_le fits), (checkEntries_eq_ok_iff distinct).mpr takes,
        ← row.unique distinct (isRowOf_tupleOf distinct takes)]
      exact if_pos stored

/-- There is no list of pairs that is neither inserted nor rejected. -/
theorem inserts_or_rejects (distinct : relation.schema.names.Nodup)
    (entries : List (String × Value)) :
    (∃ tuple, relation.Inserts entries tuple) ∨ ∃ error, relation.Rejects entries error := by
  by_cases fits : entries.length ≤ relation.schema.length
  case neg => exact .inr ⟨_, .tooMany (Nat.lt_of_not_le fits)⟩
  obtain takes | ⟨error, offends⟩ := takes_or_offends relation entries
  case inr => exact .inr ⟨error, .offending fits offends⟩
  have row := isRowOf_tupleOf distinct takes
  cases stored : relation.tuples.contains (relation.tupleOf entries) with
  | false => exact .inl ⟨_, fits, takes, row, stored⟩
  | true => exact .inr ⟨_, .stored fits takes row stored⟩

theorem insert_eq_error_iff (distinct : relation.schema.names.Nodup) {error : Error} :
    relation.insert entries = .error error ↔ relation.Rejects entries error := by
  constructor
  · intro refused
    obtain ⟨tuple, inserts⟩ | ⟨other, rejects⟩ := inserts_or_rejects distinct entries
    · rw [(insert_eq_ok_iff distinct).mpr ⟨tuple, inserts, rfl⟩] at refused
      nomatch refused
    · rw [insert_of_rejects distinct rejects] at refused
      exact Except.error.inj refused ▸ rejects
  · exact insert_of_rejects distinct

theorem Inserts.perm {others : List (String × Value)} (inserts : relation.Inserts entries tuple)
    (permuted : entries.Perm others) : relation.Inserts others tuple where
  length_le := permuted.length_eq ▸ inserts.length_le
  takes := inserts.takes.perm permuted
  row := inserts.row.perm permuted
  fresh := inserts.fresh

theorem insert_perm (distinct : relation.schema.names.Nodup) {others : List (String × Value)}
    (permuted : entries.Perm others) :
    relation.insert entries = .ok result ↔ relation.insert others = .ok result := by
  rw [insert_eq_ok_iff distinct, insert_eq_ok_iff distinct]
  refine exists_congr fun tuple => and_congr_left fun _ => ?_
  exact ⟨fun inserts => inserts.perm permuted, fun inserts => inserts.perm permuted.symm⟩

end Relation

end TypedRelations
