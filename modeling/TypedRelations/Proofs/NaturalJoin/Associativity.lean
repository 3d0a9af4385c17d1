import TypedRelations.Proofs.NaturalJoin

/-!
# Natural joins are associative

On the fields that the relations share, a natural join is associative to the letter. Rows are
compared as partial functions from names to values: two rows agree if these are compatible, and the
row made of both is the left function, extended by the right one. That three rows agree does not
depend on which two are joined first, because equality of values is transitive.
-/

namespace TypedRelations

/-- Wherever both functions have a value, the two values are equal. -/
def Compatible (first second : String → Option Value) : Prop :=
  ∀ name left right, first name = some left → second name = some right → (left == right) = true

/-- The first function, extended by the second one. -/
def extended (first second : String → Option Value) : String → Option Value :=
  fun name => (first name).or (second name)

theorem extended_left {first second : String → Option Value} {name : String} {value : Value}
    (found : first name = some value) : extended first second name = some value := by
  rw [extended, found]
  rfl

theorem extended_right {first second : String → Option Value} {name : String}
    (absent : first name = none) : extended first second name = second name := by
  rw [extended, absent]
  rfl

/-- Three functions that are compatible in one grouping are so in the other one. -/
theorem compatible_extended_iff {first second third : String → Option Value} :
    Compatible first second ∧ Compatible (extended first second) third ↔
      Compatible second third ∧ Compatible first (extended second third) := by
  constructor
  · intro ⟨firstSecond, bothThird⟩
    constructor
    · intro name left right atSecond atThird
      cases atFirst : first name with
      | none => exact bothThird name left right ((extended_right atFirst).trans atSecond) atThird
      | some value =>
          have toSecond := firstSecond name value left atFirst atSecond
          have toThird := bothThird name value right (extended_left atFirst) atThird
          exact PartialEquivBEq.trans (BEq.symm toSecond) toThird
    · intro name left right atFirst atRest
      cases atSecond : second name with
      | none =>
          rw [extended_right atSecond] at atRest
          exact bothThird name left right (extended_left atFirst) atRest
      | some value =>
          rw [extended_left atSecond] at atRest
          exact firstSecond name left right atFirst (atSecond.trans atRest)
  · intro ⟨secondThird, firstRest⟩
    constructor
    · intro name left right atFirst atSecond
      exact firstRest name left right atFirst (extended_left atSecond)
    · intro name left right atBoth atThird
      cases atFirst : first name with
      | none =>
          rw [extended_right atFirst] at atBoth
          exact secondThird name left right atBoth atThird
      | some value =>
          rw [extended_left atFirst] at atBoth
          rw [← Option.some.inj atBoth]
          cases atSecond : second name with
          | none =>
              exact firstRest name value right atFirst ((extended_right atSecond).trans atThird)
          | some other =>
              have toSecond := firstRest name value other atFirst (extended_left atSecond)
              have toThird := secondThird name other right atSecond atThird
              exact PartialEquivBEq.trans toSecond toThird

namespace Relation

open Condition (backQuote)

variable {relation left right result a b c : Relation}

/-- The value of the first column with a name. -/
def valueIn (columns : List (Field × Value)) (name : String) : Option Value :=
  (columns.find? fun column => column.1.name == name).map Prod.snd

theorem valueIn_append (first second : List (Field × Value)) :
    valueIn (first ++ second) = extended (valueIn first) (valueIn second) := by
  funext name
  rw [valueIn, extended, valueIn, valueIn, List.find?_append]
  cases first.find? fun column => column.1.name == name with
  | none => rfl
  | some column => rfl

/-- A row has the values of its columns. -/
theorem get?_eq_valueIn (schema : Schema) (tuple : Tuple) (source : String) :
    (Row.mk source schema tuple).get? = valueIn (schema.zip tuple) := by
  funext name
  rw [Row.get?, Schema.position?, valueIn]
  induction schema generalizing tuple with
  | nil => rfl
  | cons field rest ih =>
      cases tuple with
      | nil => simp
      | cons value values =>
          rw [List.findIdx?_cons, List.zip_cons_cons, List.find?_cons]
          cases field.name == name with
          | true => rfl
          | false =>
              rw [← ih values]
              change ((List.findIdx? _ rest).map _).bind _ = (List.findIdx? _ rest).bind _
              cases List.findIdx? (fun field => field.name == name) rest with
              | none => rfl
              | some position => rfl

/-- The columns of the fields that a relation lacks. -/
def lacking (relation : Relation) (columns : List (Field × Value)) : List (Field × Value) :=
  columns.filter fun column => !relation.schema.names.contains column.1.name

theorem lacking_append (relation : Relation) (first second : List (Field × Value)) :
    relation.lacking (first ++ second) = relation.lacking first ++ relation.lacking second :=
  List.filter_append _ _

theorem map_fst_lacking (relation : Relation) {schema : Schema} {tuple : Tuple}
    (width : tuple.length = schema.length) :
    (relation.lacking (schema.zip tuple)).map Prod.fst =
      schema.filter fun field => !relation.schema.names.contains field.name := by
  conv_rhs => rw [← List.map_fst_zip (Nat.le_of_eq width.symm), List.filter_map]
  rfl

theorem unpairedValues_sharedPairs (left right : Relation) (tuple : Tuple) :
    right.unpairedValues (left.sharedPairs right) tuple =
      (left.lacking (right.schema.zip tuple)).map Prod.snd := by
  rw [unpairedValues, lacking]
  congr 1
  apply List.filter_congr
  intro column member
  exact unpaired_sharedPairs (List.of_mem_zip member).1

/-- A joined row consists of the columns of the left row and of those that the left relation
lacks. -/
theorem zip_joinSchema {first second : Tuple} (firstWidth : first.length = left.schema.length)
    (secondWidth : second.length = right.schema.length) :
    (left.joinSchema right (left.sharedPairs right)).zip
        (first ++ right.unpairedValues (left.sharedPairs right) second) =
      left.schema.zip first ++ left.lacking (right.schema.zip second) := by
  rw [joinSchema_sharedPairs, unpairedValues_sharedPairs, List.zip_append firstWidth.symm,
    ← map_fst_lacking left secondWidth, List.zip_map']
  exact congrArg _ (List.map_id _)

theorem valueIn_lacking {columns : List (Field × Value)} {name : String}
    (absent : name ∉ relation.schema.names) :
    valueIn (relation.lacking columns) name = valueIn columns name := by
  rw [valueIn, lacking, List.find?_filter, valueIn]
  congr 2
  funext column
  cases same : column.1.name == name with
  | false => simp
  | true =>
      have named : column.1.name = name := beq_iff_eq.mp same
      simp [named, absent]

/-- Behind the columns of a relation, those that it lacks are as good as all. -/
theorem extended_lacking {first : Tuple} (columns : List (Field × Value))
    (width : first.length = relation.schema.length) :
    extended (valueIn (relation.schema.zip first)) (valueIn (relation.lacking columns)) =
      extended (valueIn (relation.schema.zip first)) (valueIn columns) := by
  funext name
  by_cases member : name ∈ relation.schema.names
  · rcases exists_get? width member with ⟨value, found⟩
    rw [row, get?_eq_valueIn] at found
    rw [extended_left found, extended_left found]
  · rw [extended, extended, valueIn_lacking member]

/-- The values of a row by name. -/
def valuesOf (relation : Relation) (tuple : Tuple) : String → Option Value :=
  valueIn (relation.schema.zip tuple)

theorem mem_names_of_valuesOf {tuple : Tuple} {name : String} {value : Value}
    (found : relation.valuesOf tuple name = some value) : name ∈ relation.schema.names := by
  rcases Option.map_eq_some_iff.mp found with ⟨column, foundColumn, -⟩
  have named := List.find?_some foundColumn
  have listed := List.of_mem_zip (List.mem_of_find?_eq_some foundColumn)
  exact Schema.mem_names.mpr ⟨column.1, listed.1, beq_iff_eq.mp named⟩

/-- Rows agree on the shared fields if they are compatible. -/
theorem agrees_sharedPairs_iff {first second : Tuple}
    (firstWidth : first.length = left.schema.length)
    (secondWidth : second.length = right.schema.length) :
    left.agrees right (left.sharedPairs right) first second = true ↔
      Compatible (left.valuesOf first) (right.valuesOf second) := by
  rw [agrees, List.all_eq_true, row, row, get?_eq_valueIn, get?_eq_valueIn]
  constructor
  · intro agree name leftValue rightValue atLeft atRight
    have inRight := mem_names_of_valuesOf atRight
    have shared : (name, name) ∈ left.sharedPairs right :=
      List.mem_map_of_mem (List.mem_filter.mpr
        ⟨mem_names_of_valuesOf atLeft, List.contains_iff_mem.mpr inRight⟩)
    have same := agree (name, name) shared
    change (left.valuesOf first name == right.valuesOf second name) = true at same
    rw [atLeft, atRight] at same
    exact same
  · intro compatible pair shared
    rcases List.mem_map.mp shared with ⟨name, kept, rfl⟩
    rcases List.mem_filter.mp kept with ⟨inLeft, inRight⟩
    rcases exists_get? firstWidth inLeft with ⟨leftValue, atLeft⟩
    rcases exists_get? secondWidth (List.contains_iff_mem.mp inRight) with ⟨rightValue, atRight⟩
    rw [row, get?_eq_valueIn] at atLeft atRight
    have same := compatible name leftValue rightValue atLeft atRight
    change (valueIn _ name == valueIn _ name) = true
    rw [atLeft, atRight]
    exact same

/-! ## The join on shared fields -/

/-- The natural join on the shared fields, by definition. -/
def joined (left right : Relation) : Relation :=
  ⟨left.name ++ " |x| " ++ right.name, left.joinSchema right (left.sharedPairs right),
    left.joinTuples right (left.sharedPairs right)⟩

/-- Two rows side by side, with the shared values once. -/
def joinedTuple (left right : Relation) (first second : Tuple) : Tuple :=
  first ++ right.unpairedValues (left.sharedPairs right) second

theorem valuesOf_joinedTuple {first second : Tuple} (firstWidth : first.length = left.schema.length)
    (secondWidth : second.length = right.schema.length) :
    (left.joined right).valuesOf (left.joinedTuple right first second) =
      extended (left.valuesOf first) (right.valuesOf second) := by
  rw [valuesOf, joined, joinedTuple, zip_joinSchema firstWidth secondWidth, valueIn_append,
    extended_lacking _ firstWidth]
  rfl

theorem length_joinedTuple {first second : Tuple} (firstWidth : first.length = left.schema.length)
    (secondWidth : second.length = right.schema.length) :
    (left.joinedTuple right first second).length = (left.joined right).schema.length := by
  rw [joinedTuple, joined, joinSchema_sharedPairs, unpairedValues_sharedPairs,
    List.length_append, List.length_append, firstWidth, List.length_map,
    ← map_fst_lacking left secondWidth, List.length_map]

theorem contains_names_joined (left right : Relation) (name : String) :
    (left.joined right).schema.names.contains name =
      (left.schema.names.contains name || right.schema.names.contains name) := by
  rw [joined, joinSchema_sharedPairs, Schema.names_append,
    Schema.names_filter right.schema fun name => !left.schema.names.contains name,
    Bool.eq_iff_iff, Bool.or_eq_true, List.contains_iff_mem, List.contains_iff_mem,
    List.contains_iff_mem, List.mem_append, List.mem_filter]
  by_cases inLeft : name ∈ left.schema.names
  · simp [inLeft]
  · simp [inLeft]

theorem schema_joined_assoc (a b c : Relation) :
    ((a.joined b).joined c).schema = (a.joined (b.joined c)).schema := by
  have outer := joinSchema_sharedPairs (a.joined b) c
  have inner := joinSchema_sharedPairs a b
  simp only [contains_names_joined, Bool.not_or] at outer
  change (a.joined b).joinSchema c _ = a.joinSchema (b.joined c) _
  rw [outer, joinSchema_sharedPairs a (b.joined c)]
  change a.joinSchema b _ ++ _ = _ ++ List.filter _ (b.joinSchema c _)
  rw [inner, joinSchema_sharedPairs b c, List.filter_append, List.filter_filter,
    List.append_assoc]

theorem lacking_joined (left right : Relation) (columns : List (Field × Value)) :
    (left.joined right).lacking columns = left.lacking (right.lacking columns) := by
  rw [lacking, lacking, lacking, List.filter_filter]
  simp only [contains_names_joined, Bool.not_or]

theorem joinedTuple_assoc {first second third : Tuple}
    (secondWidth : second.length = b.schema.length)
    (thirdWidth : third.length = c.schema.length) :
    (a.joined b).joinedTuple c (a.joinedTuple b first second) third =
      a.joinedTuple (b.joined c) first (b.joinedTuple c second third) := by
  rw [joinedTuple, joinedTuple, joinedTuple, unpairedValues_sharedPairs,
    unpairedValues_sharedPairs, unpairedValues_sharedPairs a (b.joined c)]
  change _ = first ++ List.map _ (a.lacking (List.zip (b.joinSchema c _) _))
  rw [joinedTuple, zip_joinSchema secondWidth thirdWidth, lacking_joined, List.append_assoc]
  rw [lacking_append, List.map_append]

/-- Whether three rows are joined does not depend on the grouping. -/
theorem agrees_joined_assoc {first second third : Tuple}
    (firstWidth : first.length = a.schema.length)
    (secondWidth : second.length = b.schema.length)
    (thirdWidth : third.length = c.schema.length) :
    (a.agrees b (a.sharedPairs b) first second &&
      (a.joined b).agrees c ((a.joined b).sharedPairs c) (a.joinedTuple b first second) third) =
    (b.agrees c (b.sharedPairs c) second third &&
      a.agrees (b.joined c) (a.sharedPairs (b.joined c)) first
        (b.joinedTuple c second third)) := by
  rw [Bool.eq_iff_iff, Bool.and_eq_true, Bool.and_eq_true,
    agrees_sharedPairs_iff firstWidth secondWidth,
    agrees_sharedPairs_iff (length_joinedTuple firstWidth secondWidth) thirdWidth,
    agrees_sharedPairs_iff secondWidth thirdWidth,
    agrees_sharedPairs_iff firstWidth (length_joinedTuple secondWidth thirdWidth),
    valuesOf_joinedTuple firstWidth secondWidth, valuesOf_joinedTuple secondWidth thirdWidth]
  exact compatible_extended_iff

theorem tuples_joined (left right : Relation) :
    (left.joined right).tuples = left.tuples.flatMap fun first =>
      (right.tuples.filter (left.agrees right (left.sharedPairs right) first)).map
        (left.joinedTuple right first) :=
  rfl

/-- For two fixed rows of `a` and `b`, either side keeps and maps rows of `c`, in their order. -/
theorem tuples_joined_assoc (aShape : a.WellFormed) (bShape : b.WellFormed)
    (cShape : c.WellFormed) :
    ((a.joined b).joined c).tuples = (a.joined (b.joined c)).tuples := by
  rw [tuples_joined (a.joined b) c, tuples_joined a b, tuples_joined a (b.joined c),
    tuples_joined b c, List.flatMap_assoc]
  apply List.flatMap_congr
  intro first inA
  rw [List.flatMap_map, flatMap_filter, List.filter_flatMap, List.map_flatMap]
  apply List.flatMap_congr
  intro second inB
  have firstWidth := aShape.length_eq inA
  have secondWidth := bShape.length_eq inB
  rw [ite_filter_map, List.filter_map, List.map_map, List.filter_filter]
  have kept : ∀ third ∈ c.tuples, _ := fun third inC =>
    (agrees_joined_assoc firstWidth secondWidth (cShape.length_eq inC)).trans (Bool.and_comm _ _)
  rw [List.filter_congr kept]
  apply List.map_congr_left
  intro third inC
  exact joinedTuple_assoc secondWidth (cShape.length_eq (List.mem_of_mem_filter inC))

/-- The join on shared fields is associative. -/
theorem joined_assoc (aShape : a.WellFormed) (bShape : b.WellFormed) (cShape : c.WellFormed) :
    (a.joined b).joined c = a.joined (b.joined c) := by
  have name : ((a.joined b).joined c).name = (a.joined (b.joined c)).name := by
    simp [joined, String.append_assoc]
  have schema := schema_joined_assoc a b c
  have tuples := tuples_joined_assoc aShape bShape cShape
  cases left : (a.joined b).joined c with
  | mk leftName leftSchema leftTuples =>
      rw [left] at name schema tuples
      subst name schema tuples
      rfl

/-! ## The operation -/

theorem exists_product_of_naturalJoin {pairs? : Option (List (String × String))}
    (made : left.naturalJoin right pairs? = .ok result) :
    ∃ combined, left.product right = .ok combined := by
  rcases naturalJoin_eq_ok.mp made with ⟨-, selected, -, joined, -⟩
  rcases joinOn_eq_ok joined with product | ⟨predicate, theta⟩
  · exact ⟨selected, product⟩
  · rcases thetaJoin_eq_ok.mp theta with ⟨combined, product, -⟩
    exact ⟨combined, product⟩

theorem naturalJoin_eq_joined (leftShape : left.WellFormed) (rightShape : right.WellFormed)
    (leftQuotable : left.Quotable) (rightQuotable : right.Quotable)
    (made : left.product right = .ok result) :
    left.naturalJoin right none = .ok (left.joined right) :=
  (naturalJoin_eq leftShape rightShape leftQuotable rightQuotable made none
    (pairs_sharedPairs left right)).trans
    (ofTuples_eq_ok_iff.mpr ⟨nodup_joinSchema_sharedPairs leftShape rightShape, rfl⟩)

theorem eq_joined_of_naturalJoin (leftShape : left.WellFormed) (rightShape : right.WellFormed)
    (leftQuotable : left.Quotable) (rightQuotable : right.Quotable)
    (made : left.naturalJoin right none = .ok result) : result = left.joined right := by
  rcases exists_product_of_naturalJoin made with ⟨combined, product⟩
  rw [naturalJoin_eq_joined leftShape rightShape leftQuotable rightQuotable product] at made
  exact (Except.ok.inj made).symm

/-- A join on shared fields can be joined again: it has no names but those of its operands. -/
theorem Quotable.joined (leftQuotable : left.Quotable) (rightQuotable : right.Quotable) :
    (left.joined right).Quotable := by
  constructor
  · change backQuote ∉ (left.name ++ " |x| " ++ right.name).toList
    rw [String.toList_append, String.toList_append, List.mem_append, List.mem_append]
    intro present
    rcases present with (inLeft | inSign) | inRight
    · exact leftQuotable.name inLeft
    · nomatch inSign
    · exact rightQuotable.name inRight
  · intro name member
    rw [← List.contains_iff_mem, contains_names_joined, Bool.or_eq_true, List.contains_iff_mem,
      List.contains_iff_mem] at member
    rcases member with inLeft | inRight
    · exact leftQuotable.fields name inLeft
    · exact rightQuotable.fields name inRight

/-- Natural joins are associative: if all four succeed, the two results are the same relation. -/
theorem naturalJoin_assoc (aReachable : a.Reachable) (bReachable : b.Reachable)
    (cReachable : c.Reachable) (aQuotable : a.Quotable) (bQuotable : b.Quotable)
    (cQuotable : c.Quotable) {ab bc leftResult rightResult : Relation}
    (joinedAB : a.naturalJoin b none = .ok ab) (joinedABC : ab.naturalJoin c none = .ok leftResult)
    (joinedBC : b.naturalJoin c none = .ok bc)
    (joinedA : a.naturalJoin bc none = .ok rightResult) : leftResult = rightResult := by
  have aShape := aReachable.wellFormed
  have bShape := bReachable.wellFormed
  have cShape := cReachable.wellFormed
  have abReachable : ab.Reachable :=
    .combine (.naturalJoin none) trivial aReachable bReachable joinedAB
  have bcReachable : bc.Reachable :=
    .combine (.naturalJoin none) trivial bReachable cReachable joinedBC
  have abShape := abReachable.wellFormed
  have bcShape := bcReachable.wellFormed
  have abEq := eq_joined_of_naturalJoin aShape bShape aQuotable bQuotable joinedAB
  have bcEq := eq_joined_of_naturalJoin bShape cShape bQuotable cQuotable joinedBC
  subst abEq bcEq
  calc leftResult = (a.joined b).joined c :=
        eq_joined_of_naturalJoin abShape cShape (aQuotable.joined bQuotable) cQuotable joinedABC
    _ = a.joined (b.joined c) := joined_assoc aShape bShape cShape
    _ = rightResult :=
        (eq_joined_of_naturalJoin aShape bcShape aQuotable (bQuotable.joined cQuotable)
          joinedA).symm

/-- Who has which keys. -/
def keys : Relation :=
  ⟨"keys", [.any "in", .any "key no."], [[.str "Ada", .int 7], [.str "Ada", .int 8]]⟩

theorem reachable_keys : keys.Reachable :=
  reachable_of_rows (by decide) (by decide) (by decide)

theorem quotable_keys : keys.Quotable := ⟨by decide, by decide⟩

/-- Desks, floors and keys are joined in either grouping. -/
theorem naturalJoin_desks_floors_keys :
    desks.naturalJoin floors none = .ok (desks.joined floors) ∧
      (desks.joined floors).naturalJoin keys none = .ok ((desks.joined floors).joined keys) ∧
      floors.naturalJoin keys none = .ok (floors.joined keys) ∧
      desks.naturalJoin (floors.joined keys) none = .ok (desks.joined (floors.joined keys)) ∧
      (desks.joined floors).joined keys = desks.joined (floors.joined keys) := by
  have desksFloors : desks.naturalJoin floors none = .ok (desks.joined floors) :=
    naturalJoin_eq_joined reachable_desks.wellFormed reachable_floors.wellFormed quotable_desks
      quotable_floors (product_eq_ok.mpr ⟨by decide, rfl⟩)
  have floorsKeys : floors.naturalJoin keys none = .ok (floors.joined keys) :=
    naturalJoin_eq_joined reachable_floors.wellFormed reachable_keys.wellFormed quotable_floors
      quotable_keys (product_eq_ok.mpr ⟨by decide, rfl⟩)
  have leftReachable : (desks.joined floors).Reachable :=
    .combine (.naturalJoin none) trivial reachable_desks reachable_floors desksFloors
  have rightReachable : (floors.joined keys).Reachable :=
    .combine (.naturalJoin none) trivial reachable_floors reachable_keys floorsKeys
  have leftJoined : (desks.joined floors).naturalJoin keys none =
      .ok ((desks.joined floors).joined keys) :=
    naturalJoin_eq_joined leftReachable.wellFormed reachable_keys.wellFormed
      (quotable_desks.joined quotable_floors) quotable_keys
      (product_eq_ok.mpr ⟨by decide, rfl⟩)
  have rightJoined : desks.naturalJoin (floors.joined keys) none =
      .ok (desks.joined (floors.joined keys)) :=
    naturalJoin_eq_joined reachable_desks.wellFormed rightReachable.wellFormed quotable_desks
      (quotable_floors.joined quotable_keys) (product_eq_ok.mpr ⟨by decide, rfl⟩)
  exact ⟨desksFloors, leftJoined, floorsKeys, rightJoined,
    naturalJoin_assoc reachable_desks reachable_floors reachable_keys quotable_desks
      quotable_floors quotable_keys desksFloors leftJoined floorsKeys rightJoined⟩

end Relation

end TypedRelations
