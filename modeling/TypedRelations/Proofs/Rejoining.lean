import TypedRelations.Proofs.NaturalJoin

/-!
# Joining results again

A join on fields writes a condition, which holds names between back quotes, and has it read back. So
results can be joined again as long as no text that went into their names has a back quote
(`Derived.rejoins`). Clean names from the client are not enough for this: a selection may be on a
condition with quoted names, and a join on an equality writes one itself (`rejoin_refused`).
-/

namespace TypedRelations.Relation

open Condition (backQuote Lexeme Expr Reader)

variable {relation left right combined result : Relation} {leftField rightField : String}

/-- The text can be written between back quotes. -/
abbrev Clean (text : String) : Prop := backQuote ∉ text.toList

theorem clean_append {first second : String} :
    Clean (first ++ second) ↔ Clean first ∧ Clean second := by
  rw [Clean, String.toList_append, List.mem_append, not_or]

theorem clean_qualify {qualifier name : String} (qualifierClean : Clean qualifier)
    (nameClean : Clean name) : Clean (qualify qualifier name) :=
  (readable_qualify qualifierClean nameClean).clean

/-- What is left of a name without its qualifier is a part of it. -/
theorem clean_unqualify? {qualifier name plain : String}
    (unqualified : unqualify? qualifier name = some plain) (nameClean : Clean name) :
    Clean plain := by
  rw [unqualify?_eq_some_iff.mp unqualified, qualify, clean_append] at nameClean
  exact nameClean.2

theorem clean_names_qualified {schema : Schema} {qualifier : String}
    (qualifierClean : Clean qualifier) (namesClean : ∀ name ∈ schema.names, Clean name) :
    ∀ name ∈ (schema.qualified qualifier).names, Clean name := by
  intro name member
  rw [Schema.names_qualified] at member
  rcases List.mem_map.mp member with ⟨plain, listed, rfl⟩
  exact clean_qualify qualifierClean (namesClean plain listed)

/-- The names and qualifiers among the arguments of an operation. -/
def Operation.names : Operation → List String
  | .insert entries => entries.map Prod.fst
  | .insertFlat arguments => ((entriesOfFlat arguments).toOption.getD []).map Prod.fst
  | .copy | .select _ => []
  | .renamed name => [name]
  | .qualified qualifier | .unqualified qualifier => [qualifier]
  | .project names => names

/-- The names among the arguments of a combination. -/
def Combination.names : Combination → List String
  | .equiJoin leftField rightField => [leftField, rightField]
  | .naturalJoin pairs? => (pairs?.getD []).flatMap fun pair => [pair.1, pair.2]
  | .union mapping | .inter mapping | .diff mapping =>
    mapping.flatMap fun pair => [pair.1, pair.2]
  | _ => []

namespace Repertoire

/-- The calls in which the client gives no name with a back quote. Conditions may have some. -/
def cleanlyNamed : Repertoire where
  creates name schema := ∀ text ∈ name :: schema.names, Clean text
  applies operation := ∀ text ∈ operation.names, Clean text
  combines combination := ∀ text ∈ combination.names, Clean text

/-- The calls that put no back quote into a name. A join on an equality is allowed as the join on
its condition. -/
def unquoted : Repertoire where
  creates := cleanlyNamed.creates
  applies
    | .select predicate => Clean predicate
    | operation => cleanlyNamed.applies operation
  combines
    | .thetaJoin predicate => Clean predicate
    | .equiJoin _ _ => False
    | combination => cleanlyNamed.combines combination

end Repertoire

/-- A join on an equality whose condition needs no quotes is among the calls that put no back quote
into a name. -/
theorem Derived.equiJoin (leftDerived : Derived .unquoted left)
    (rightDerived : Derived .unquoted right)
    (plain : Clean (left.equalityText right (leftField, rightField)))
    (made : left.equiJoin right leftField rightField = .ok result) :
    Derived .unquoted result :=
  .combine (.thetaJoin _) plain leftDerived rightDerived (equiJoin_eq_ok made)

/-- Calls that put no back quote into a name are among those that are given none in a name. -/
theorem Derived.cleanlyNamed (derived : Derived .unquoted relation) :
    Derived .cleanlyNamed relation := by
  induction derived with
  | create allowed made => exact .create allowed made
  | apply operation allowed _ made ih =>
      refine .apply operation ?_ ih made
      cases operation with
      | select predicate => exact fun _ member => nomatch member
      | _ => exact allowed
  | combine combination allowed _ _ made leftIH rightIH =>
      refine .combine combination ?_ leftIH rightIH made
      cases combination with
      | thetaJoin predicate => exact fun _ member => nomatch member
      | equiJoin leftField rightField => exact allowed.elim
      | _ => exact allowed

theorem quotable_of_schema (quotable : relation.Quotable) (name : Clean result.name)
    (fields : ∀ field ∈ result.schema.names, field ∈ relation.schema.names) : result.Quotable :=
  ⟨name, fun field member => quotable.fields field (fields field member)⟩

theorem Quotable.unqualified (quotable : relation.Quotable) {qualifier : String}
    (made : relation.unqualified qualifier = .ok result) : result.Quotable := by
  rcases ofTuples_eq_ok_iff.mp made with ⟨-, rfl⟩
  refine ⟨quotable.name, fun name member => ?_⟩
  rcases Schema.mem_names.mp member with ⟨field, listed, rfl⟩
  rcases List.mem_map.mp listed with ⟨source, inSchema, rfl⟩
  have sourceClean := quotable.fields _ (List.mem_map_of_mem inSchema)
  change Clean ((unqualify? qualifier source.name).getD source.name)
  cases unqualified : unqualify? qualifier source.name with
  | none => exact sourceClean
  | some plain => exact clean_unqualify? unqualified sourceClean

theorem Quotable.apply (quotable : relation.Quotable) {operation : Operation}
    (allowed : Repertoire.unquoted.applies operation)
    (made : operation.apply relation = .ok result) : result.Quotable := by
  cases operation with
  | insert entries =>
      rcases insert_eq_ok.mp made with ⟨-, -, -, rfl⟩
      exact quotable_of_schema quotable quotable.name fun _ member => member
  | insertFlat arguments =>
      rcases exists_insert_of_insertFlat made with ⟨entries, inserted⟩
      rcases insert_eq_ok.mp inserted with ⟨-, -, -, rfl⟩
      exact quotable_of_schema quotable quotable.name fun _ member => member
  | copy =>
      rw [← Except.ok.inj made]
      exact quotable
  | renamed name =>
      rw [← Except.ok.inj made]
      exact quotable_of_schema quotable (allowed name List.mem_cons_self) fun _ member => member
  | qualified qualifier =>
      rw [← Except.ok.inj made]
      have qualifierClean := allowed qualifier List.mem_cons_self
      exact ⟨quotable.name, clean_names_qualified qualifierClean quotable.fields⟩
  | unqualified qualifier => exact quotable.unqualified made
  | select predicate =>
      rcases select_eq_ok.mp made with ⟨-, -, -, -, rfl⟩
      have nameClean : Clean (relation.name ++ " where: " ++ predicate) :=
        clean_append.mpr ⟨clean_append.mpr ⟨quotable.name, by decide⟩, allowed⟩
      exact quotable_of_schema quotable nameClean fun _ member => member
  | project names =>
      rw [project_eq_ok made]
      refine quotable_of_schema quotable quotable.name fun name member => ?_
      rw [names_pick_positionsOf] at member
      exact List.mem_of_mem_filter member

/-- Two clean names with a clean text in between. -/
theorem clean_between {text : String} (leftQuotable : left.Quotable)
    (rightQuotable : right.Quotable) (textClean : Clean text) :
    Clean (left.name ++ text ++ right.name) :=
  clean_append.mpr ⟨clean_append.mpr ⟨leftQuotable.name, textClean⟩, rightQuotable.name⟩

theorem clean_names_productSchema (leftQuotable : left.Quotable)
    (rightQuotable : right.Quotable) :
    ∀ name ∈ (left.productSchema right).names, Clean name := by
  intro name member
  rw [productSchema, Schema.names_append, List.mem_append] at member
  rcases member with inLeft | inRight
  · exact clean_names_qualified leftQuotable.name leftQuotable.fields name inLeft
  · exact clean_names_qualified rightQuotable.name rightQuotable.fields name inRight

theorem Quotable.thetaJoin (leftQuotable : left.Quotable) (rightQuotable : right.Quotable)
    {predicate : String} (predicateClean : Clean predicate)
    (made : left.thetaJoin right predicate = .ok result) : result.Quotable := by
  have schema := schema_of_thetaJoin made
  rcases thetaJoin_eq_ok.mp made with ⟨combined, product, selected⟩
  rcases select_eq_ok.mp selected with ⟨-, -, -, -, rfl⟩
  rcases product_eq_ok.mp product with ⟨-, rfl⟩
  have productClean := clean_between leftQuotable rightQuotable (show Clean " x " by decide)
  refine ⟨clean_append.mpr ⟨clean_append.mpr ⟨productClean, by decide⟩, predicateClean⟩, ?_⟩
  exact clean_names_productSchema leftQuotable rightQuotable

theorem schema_of_joinOn {pairs : List (String × String)}
    (made : left.joinOn right pairs = .ok result) : result.schema = left.productSchema right := by
  rcases joinOn_eq_ok made with product | ⟨predicate, theta⟩
  · rw [(product_eq_ok.mp product).2]
  · exact schema_of_thetaJoin theta

theorem clean_joinedField {field : Field} (fieldClean : Clean field.name) (position : Nat) :
    Clean (left.joinedField right position field).name := by
  simp only [joinedField]
  split
  · cases unqualified : unqualify? left.name field.name with
    | none => exact fieldClean
    | some plain => exact clean_unqualify? unqualified fieldClean
  · cases unqualified : unqualify? right.name field.name with
    | none => exact fieldClean
    | some plain =>
        rw [Option.filter_some]
        split
        · exact clean_unqualify? unqualified fieldClean
        · exact fieldClean

theorem Quotable.naturalJoin (leftQuotable : left.Quotable) (rightQuotable : right.Quotable)
    {pairs? : Option (List (String × String))}
    (made : left.naturalJoin right pairs? = .ok result) : result.Quotable := by
  rcases naturalJoin_eq_ok.mp made with ⟨dropped, joined, -, combined, rebuilt⟩
  rcases ofTuples_eq_ok_iff.mp rebuilt with ⟨-, rfl⟩
  refine ⟨clean_between leftQuotable rightQuotable (by decide), fun name member => ?_⟩
  rcases Schema.mem_names.mp member with ⟨field, listed, rfl⟩
  rcases List.mem_map.mp listed with ⟨⟨source, position⟩, kept, rfl⟩
  have inJoined : source ∈ joined.schema :=
    List.fst_mem_of_mem_zipIdx (List.mem_of_mem_filter kept)
  rw [schema_of_joinOn combined] at inJoined
  have sourceClean := clean_names_productSchema leftQuotable rightQuotable source.name
    (List.mem_map_of_mem inJoined)
  exact clean_joinedField sourceClean position

theorem Quotable.outerJoin (leftQuotable : left.Quotable) (rightQuotable : right.Quotable)
    {predicate : String} {side : Side}
    (made : left.outerJoin right predicate side = .ok result) : result.Quotable := by
  rcases outerJoin_eq_ok.mp made with ⟨joined, theta, rfl⟩
  constructor
  · have sideClean : Clean side.text := by
      cases side with
      | left => decide
      | right => decide
      | both => decide
    have before := clean_append.mpr ⟨leftQuotable.name, show Clean " " by decide⟩
    have inside := clean_append.mpr ⟨before, sideClean⟩
    have outer := clean_append.mpr ⟨inside, show Clean " outer join " by decide⟩
    exact clean_append.mpr ⟨outer, rightQuotable.name⟩
  · rw [schema_of_thetaJoin theta]
    exact clean_names_productSchema leftQuotable rightQuotable

/-- A set operation gives its fields the names of fields of the left relation. -/
theorem names_combinedSchema {mapping : List (String × String)} {fields : List MappedField}
    {combine : Domain → Domain → Except Constraint.Clash Domain} {schema : Schema}
    (mapped : left.mappedFields right mapping = .ok fields)
    (made : combinedSchema fields combine = .ok schema) :
    ∀ name ∈ schema.names, name ∈ left.schema.names := by
  intro name member
  rcases Schema.mem_names.mp member with ⟨field, listed, rfl⟩
  rcases exists_left_of_forall₂ (combinedSchema_eq_ok made) listed with
    ⟨resolved, inFields, sameName, -⟩
  rcases exists_left_of_forall₂ (mappedFields_eq_ok mapped) inFields with
    ⟨pair, -, resolves⟩
  rcases resolves.left with ⟨source, at_position, byName, -⟩
  change List.find? (fun field => field.name == pair.1) left.schema = some source at byName
  have named := List.find?_some byName
  rw [sameName, resolves.name, ← beq_iff_eq.mp named]
  exact List.mem_map_of_mem (List.mem_of_getElem? at_position)

/-- The result of a set operation, whose name has a word between the names of the relations. -/
theorem Quotable.setOperation (leftQuotable : left.Quotable) (rightQuotable : right.Quotable)
    {word : String} {combine : Domain → Domain → Except Constraint.Clash Domain}
    {gather : List Tuple → List Tuple → List Tuple} {mapping : List (String × String)}
    (wordClean : Clean word)
    (made : left.setOperation right word combine gather mapping = .ok result) :
    result.Quotable := by
  rcases setOperation_eq_ok.mp made with ⟨fields, schema, mapped, combined, rebuilt⟩
  rcases ofTuples_eq_ok_iff.mp rebuilt with ⟨-, rfl⟩
  exact quotable_of_schema leftQuotable (clean_between leftQuotable rightQuotable wordClean)
    (names_combinedSchema mapped combined)

theorem Quotable.combine (leftQuotable : left.Quotable) (rightQuotable : right.Quotable)
    {combination : Combination} (allowed : Repertoire.unquoted.combines combination)
    (made : combination.apply left right = .ok result) : result.Quotable := by
  cases combination with
  | product =>
      rcases product_eq_ok.mp made with ⟨-, rfl⟩
      exact ⟨clean_between leftQuotable rightQuotable (by decide),
        clean_names_productSchema leftQuotable rightQuotable⟩
  | thetaJoin predicate => exact leftQuotable.thetaJoin rightQuotable allowed made
  | equiJoin leftField rightField => exact allowed.elim
  | naturalJoin pairs? => exact leftQuotable.naturalJoin rightQuotable made
  | fullOuterJoin predicate => exact leftQuotable.outerJoin rightQuotable made
  | leftOuterJoin predicate => exact leftQuotable.outerJoin rightQuotable made
  | rightOuterJoin predicate => exact leftQuotable.outerJoin rightQuotable made
  | union mapping =>
      rw [Combination.apply, union] at made
      exact leftQuotable.setOperation rightQuotable (by decide) made
  | inter mapping =>
      rw [Combination.apply, inter] at made
      exact leftQuotable.setOperation rightQuotable (by decide) made
  | diff mapping =>
      rw [Combination.apply, diff] at made
      exact leftQuotable.setOperation rightQuotable (by decide) made

/-- No back quote gets into a name by itself. -/
theorem Derived.quotable (derived : Derived .unquoted relation) : relation.Quotable := by
  induction derived with
  | create allowed made =>
      rcases ofTuples_eq_ok_iff.mp made with ⟨-, rfl⟩
      exact ⟨allowed _ List.mem_cons_self,
        fun name member => allowed name (List.mem_cons_of_mem _ member)⟩
  | apply operation allowed _ made ih => exact ih.apply allowed made
  | combine combination allowed _ _ made leftIH rightIH =>
      exact leftIH.combine rightIH allowed made

/-! ## Joining again -/

/-- A join on an equality succeeds as soon as the product does, provided that the names of its two
fields can be read. Its name ends in the condition. -/
theorem equiJoin_eq_ok_of_readable (leftShape : left.WellFormed) (rightShape : right.WellFormed)
    (made : left.product right = .ok combined) (inLeft : leftField ∈ left.schema.names)
    (inRight : rightField ∈ right.schema.names)
    (leftReadable : Condition.Readable (qualify left.name leftField))
    (rightReadable : Condition.Readable (qualify right.name rightField)) :
    left.equiJoin right leftField rightField =
      .ok ⟨combined.name ++ " where: " ++ left.equalityText right (leftField, rightField),
        combined.schema, left.pairedTuples right [(leftField, rightField)]⟩ := by
  rcases product_eq_ok.mp made with ⟨distinct, rfl⟩
  have readable : ∀ pair ∈ [left.qualifiedPair right (leftField, rightField)],
      Condition.Readable pair.1 ∧ Condition.Readable pair.2 :=
    List.forall_mem_singleton.mpr ⟨leftReadable, rightReadable⟩
  have parsed := Condition.parse_equalities readable
  have kept := keepWhere_agrees leftShape rightShape distinct (pairs_single inLeft inRight)
    (left.name ++ " x " ++ right.name) (left.equalityText right (leftField, rightField))
  rw [equiJoin_eq_joinOn inLeft inRight]
  exact thetaJoin_eq_ok.mpr ⟨_, made, select_eq_ok.mpr ⟨_, _, parsed, kept, rfl⟩⟩

/-- A natural join whose condition can be read fails only if two of its fields would have one
name. -/
theorem naturalJoin_error_of_joinOn {pairs : List (String × String)} {joined : Relation}
    {error : Error} (known : left.Pairs right pairs)
    (made : left.joinOn right pairs = .ok joined)
    (failed : left.naturalJoin right (some pairs) = .error error) :
    ∃ field relation, error = .duplicateField field relation := by
  simp only [naturalJoin, Option.getD_some, droppedColumns_eq_ok known, made] at failed
  change ofTuples _ _ _ = .error error at failed
  rw [ofTuples] at failed
  split at failed
  · exact ⟨_, _, (Except.error.inj failed).symm⟩
  · cases failed

/-- Results that got no back quote into their names can be joined again whenever their product can
be formed: the join on an equality of fields succeeds, and the natural join on the two fields fails
for no other reason than that two of its fields would have one name. -/
theorem Derived.rejoins (leftDerived : Derived .unquoted left)
    (rightDerived : Derived .unquoted right) (made : left.product right = .ok combined)
    (inLeft : leftField ∈ left.schema.names) (inRight : rightField ∈ right.schema.names) :
    (∃ joined, left.equiJoin right leftField rightField = .ok joined) ∧
      ∀ error, left.naturalJoin right (some [(leftField, rightField)]) = .error error →
        ∃ field relation, error = .duplicateField field relation := by
  have leftQuotable := leftDerived.quotable
  have rightQuotable := rightDerived.quotable
  have joined := equiJoin_eq_ok_of_readable leftDerived.reachable.wellFormed
    rightDerived.reachable.wellFormed made inLeft inRight
    (readable_qualify leftQuotable.name (leftQuotable.fields _ inLeft))
    (readable_qualify rightQuotable.name (rightQuotable.fields _ inRight))
  refine ⟨⟨_, joined⟩, fun error failed => ?_⟩
  rw [equiJoin_eq_joinOn inLeft inRight] at joined
  exact naturalJoin_error_of_joinOn (pairs_single inLeft inRight) joined failed

/-- Stools, in a relation whose name is a plain word. -/
def stools : Relation := ⟨"stools", [.any "id"], [[.int 1]]⟩

/-- The lamps over them. -/
def lamps : Relation := ⟨"lamps", [.any "id"], [[.int 1]]⟩

/-- The stools with the lamps of the same number. -/
def furniture : Relation :=
  ⟨"stools x lamps where: stools.id == lamps.id", [.any "stools.id", .any "lamps.id"],
    [[.int 1, .int 1]]⟩

theorem derived_numbered {name : String} (nameClean : Clean name) :
    Derived .unquoted ⟨name, [.any "id"], [[.int 1]]⟩ := by
  have idClean : ∀ text ∈ ["id"], Clean text := by decide
  have named : ∀ text ∈ [name, "id"], Clean text := List.forall_mem_cons.mpr ⟨nameClean, idClean⟩
  exact .filled named (List.forall_mem_singleton.mpr idClean) (by decide) (by decide) (by decide)

theorem derived_stools : Derived .unquoted stools := derived_numbered (by decide)

theorem derived_lamps : Derived .unquoted lamps := derived_numbered (by decide)

/-- The join of a relation like these with the lamps, whatever its name is. -/
theorem equiJoin_numbered_lamps {name : String} (nameClean : Clean name)
    (apart : qualify name "id" ≠ "lamps.id") :
    equiJoin ⟨name, [.any "id"], [[.int 1]]⟩ lamps "id" "id" =
      .ok ⟨name ++ " x " ++ "lamps" ++ " where: " ++
          (Condition.nameText (qualify name "id") ++ " == " ++ Condition.nameText "lamps.id"),
        [.any (qualify name "id"), .any "lamps.id"], [[.int 1, .int 1]]⟩ := by
  have idClean : Clean "id" := by decide
  have lampsClean : Clean "lamps" := by decide
  have distinct : [qualify name "id", "lamps.id"].Nodup := by simpa using apart
  have product : Relation.product ⟨name, [.any "id"], [[.int 1]]⟩ lamps = .ok _ :=
    product_eq_ok.mpr ⟨distinct, rfl⟩
  have named : "id" ∈ Schema.names [.any "id"] := by decide
  exact equiJoin_eq_ok_of_readable (derived_numbered nameClean).reachable.wellFormed
    derived_lamps.reachable.wellFormed product named named (readable_qualify nameClean idClean)
    (readable_qualify lampsClean idClean)

theorem equiJoin_stools_lamps : stools.equiJoin lamps "id" "id" = .ok furniture :=
  (equiJoin_numbered_lamps (by decide) (by decide)).trans (by rfl)

/-- The result of a join on an equality whose condition needs no quotes can be joined again. -/
theorem rejoins_furniture_lamps :
    (∃ joined, furniture.equiJoin lamps "lamps.id" "id" = .ok joined) ∧
      ∀ error, furniture.naturalJoin lamps (some [("lamps.id", "id")]) = .error error →
        ∃ field relation, error = .duplicateField field relation := by
  have derived : Derived .unquoted furniture :=
    derived_stools.equiJoin derived_lamps (by decide) equiJoin_stools_lamps
  have product : furniture.product lamps = .ok _ := product_eq_ok.mpr ⟨by decide, rfl⟩
  exact derived.rejoins derived_lamps product (by decide) (by decide)

/-! ## Where it fails -/

theorem thetaJoin_eq_error {predicate : String} {error : Error}
    (made : left.product right = .ok combined)
    (unreadable : Condition.parse predicate = .error error) :
    left.thetaJoin right predicate = .error error := by
  rw [thetaJoin, made]
  change combined.select predicate = _
  rw [select, unreadable]
  rfl

theorem naturalJoin_eq_error {pairs : List (String × String)} {error : Error}
    (known : left.Pairs right pairs) (failed : left.joinOn right pairs = .error error) :
    left.naturalJoin right (some pairs) = .error error := by
  simp only [naturalJoin, Option.getD_some, droppedColumns_eq_ok known, failed]
  rfl

/-- Two names in a row are no condition. -/
theorem ofLexemes_names {first second : String} {firstText secondText : List Char}
    {firstStart secondStart : Nat} (rest : List Lexeme) :
    Expr.ofLexemes
        (⟨.name first, firstText, firstStart⟩ :: ⟨.name second, secondText, secondStart⟩ :: rest) =
      .error (.unexpectedToken .endOfInput (.name second) secondStart) := by
  rfl

/-- Benches, in a relation whose name has a blank. -/
def benches : Relation := ⟨"my benches", [.any "id"], [[.int 1]]⟩

/-- The benches with the lamps of the same number. -/
def lit : Relation :=
  ⟨"my benches x lamps where: `my benches.id` == lamps.id",
    [.any "my benches.id", .any "lamps.id"], [[.int 1, .int 1]]⟩

theorem derived_benches : Derived .unquoted benches := derived_numbered (by decide)

theorem equiJoin_benches_lamps : benches.equiJoin lamps "id" "id" = .ok lit :=
  (equiJoin_numbered_lamps (by decide) (by decide)).trans (by rfl)

/-- The condition that a join of the lit benches with the lamps writes. -/
def relitText : String :=
  "`my benches x lamps where: `my benches.id` == lamps.id.lamps.id` == lamps.id"

/-- The back quote inside the first name ends it, so a second name follows right behind. -/
theorem parse_relitText :
    Condition.parse relitText =
      .error (.condition relitText (.unexpectedToken .endOfInput (.name "my") 28)) := by
  have scanned : Lexeme.ofText relitText =
      .ok [⟨.name "my benches x lamps where: ", "`my benches x lamps where: `".toList, 0⟩,
        ⟨.name "my", "my".toList, 28⟩, ⟨.name "benches.id", "benches.id".toList, 31⟩,
        ⟨.name " == lamps.id.lamps.id", "` == lamps.id.lamps.id`".toList, 41⟩,
        ⟨.relator .eq, "==".toList, 65⟩, ⟨.name "lamps.id", "lamps.id".toList, 68⟩] := by
    rfl
  have read : Expr.ofText relitText =
      .error (.unexpectedToken .endOfInput (.name "my") 28) := by
    simp only [Expr.ofText, scanned, bind, Except.bind, ofLexemes_names]
  rw [Condition.parse, read]

/-- The names of the benches and of the lamps have no back quotes and no condition is given, yet the
result of a join cannot be joined again: its name holds the condition of that join, which quotes a
name. -/
theorem rejoin_refused :
    Derived .cleanlyNamed lit ∧ Derived .cleanlyNamed lamps ∧
      (∃ combined, lit.product lamps = .ok combined) ∧
      "lamps.id" ∈ lit.schema.names ∧ "id" ∈ lamps.schema.names ∧
      lit.equiJoin lamps "lamps.id" "id" =
        .error (.condition relitText (.unexpectedToken .endOfInput (.name "my") 28)) ∧
      lit.naturalJoin lamps (some [("lamps.id", "id")]) =
        .error (.condition relitText (.unexpectedToken .endOfInput (.name "my") 28)) := by
  have inLit : "lamps.id" ∈ lit.schema.names := by decide
  have inLamps : "id" ∈ lamps.schema.names := by decide
  have product : lit.product lamps = .ok _ := product_eq_ok.mpr ⟨by decide, rfl⟩
  have named : ∀ text ∈ ["id", "id"], Clean text := by decide
  have derived : Derived .cleanlyNamed lit :=
    .combine (.equiJoin "id" "id") named derived_benches.cleanlyNamed derived_lamps.cleanlyNamed
      equiJoin_benches_lamps
  have refused : lit.joinOn lamps [("lamps.id", "id")] =
      .error (.condition relitText (.unexpectedToken .endOfInput (.name "my") 28)) :=
    thetaJoin_eq_error product parse_relitText
  refine ⟨derived, derived_lamps.cleanlyNamed, ⟨_, product⟩, inLit, inLamps, ?_, ?_⟩
  · rw [equiJoin_eq_joinOn inLit inLamps]
    exact refused
  · exact naturalJoin_eq_error (pairs_single inLit inLamps) refused

end TypedRelations.Relation
