import TypedRelations.Proofs.Equality
import TypedRelations.Proofs.OuterJoin
import TypedRelations.Proofs.Product

/-!
# Operators respect equality

Equal relations may list their fields in different orders and hold equal values that are not
identical. No operator can tell. Each one is followed in one direction, from a success to a success
with a relation that is alike (`Matches`); being alike is symmetric, which gives the other one.
-/

namespace TypedRelations.Relation

variable {relation left right otherLeft otherRight : Relation} {predicate : String}
  {first second otherFirst otherSecond : Tuple}

/-- Whenever the first computation makes a relation, the second one makes one that is alike. -/
def Matches (first second : Except Error Relation) : Prop :=
  ∀ relation, first = .ok relation → ∃ other, second = .ok other ∧ relation.Alike other

/-- Two computations make equal relations, or both fail. -/
def SameOutcome (first second : Except Error Relation) : Prop :=
  (∃ relation other, first = .ok relation ∧ second = .ok other ∧ (relation == other) = true) ∨
    ∃ error otherError, first = .error error ∧ second = .error otherError

/-- What a computation makes has the shape that every relation has. -/
def MakesWellFormed (made : Except Error Relation) : Prop :=
  ∀ relation, made = .ok relation → relation.WellFormed

theorem sameOutcome_of_matches {first second : Except Error Relation}
    (forth : Matches first second) (back : Matches second first)
    (firstShape : MakesWellFormed first) (secondShape : MakesWellFormed second) :
    SameOutcome first second := by
  cases first with
  | ok relation =>
      obtain ⟨other, rfl, alike⟩ := forth relation rfl
      exact .inl ⟨relation, other, rfl, rfl,
        (beq_iff_alike (firstShape _ rfl) (secondShape _ rfl)).mpr alike⟩
  | error error =>
      cases second with
      | ok other =>
          obtain ⟨relation, failed, -⟩ := back other rfl
          nomatch failed
      | error otherError => exact .inr ⟨error, otherError, rfl, rfl⟩

/-- Rows are read by the fields alone. -/
theorem SameRow.congr {result otherResult : Relation}
    (same : left.SameRow otherLeft first otherFirst) (schema : result.schema = left.schema)
    (otherSchema : otherResult.schema = otherLeft.schema) :
    result.SameRow otherResult first otherFirst where
  leftWidth := schema ▸ same.leftWidth
  rightWidth := otherSchema ▸ same.rightWidth
  values name := by
    rw [get?_eq_bind, get?_eq_bind, schema, otherSchema]
    exact same.values name

/-- A name that the one row knows has an equal value in the other. -/
theorem SameRow.within (same : left.SameRow otherLeft first otherFirst) :
    (left.row first).scope.Within (otherLeft.row otherFirst).scope := by
  intro name value found
  have values := same.values name
  change (left.row first).get? name = some value at found
  cases otherFound : (otherLeft.row otherFirst).get? name with
  | none =>
      rw [found, otherFound] at values
      nomatch values
  | some other =>
      rw [found, otherFound, Option.some_beq_some] at values
      exact ⟨other, otherFound, values⟩

/-- Two tests that agree on related tuples keep related tuples. -/
theorem keepWhere_related {related : Tuple → Tuple → Prop}
    {test otherTest : Tuple → Except Error Bool} {tuples others kept : List Tuple}
    (pairs : List.Forall₂ related tuples others)
    (agree : ∀ first second passes, related first second → test first = .ok passes →
      otherTest second = .ok passes)
    (made : keepWhere test tuples = .ok kept) :
    ∃ otherKept, keepWhere otherTest others = .ok otherKept ∧
      List.Forall₂ related kept otherKept := by
  induction pairs generalizing kept with
  | nil =>
      rw [← Except.ok.inj made]
      exact ⟨[], rfl, .nil⟩
  | @cons first second rest otherRest same _ ih =>
      rw [keepWhere, bind_bind_eq_ok] at made
      obtain ⟨passes, later, tested, restKept, built⟩ := made
      obtain ⟨otherLater, otherRestKept, pairs⟩ := ih restKept
      refine ⟨if passes then second :: otherLater else otherLater,
        bind_bind_eq_ok.mpr ⟨passes, otherLater, agree _ _ _ same tested, otherRestKept, rfl⟩, ?_⟩
      rw [← Except.ok.inj built]
      cases passes with
      | true => exact .cons same pairs
      | false => exact pairs

theorem Alike.select (alike : left.Alike otherLeft) (predicate : String) :
    Matches (left.select predicate) (otherLeft.select predicate) := by
  intro result made
  obtain ⟨condition, tuples, parsed, kept, rfl⟩ := select_eq_ok.mp made
  obtain ⟨otherTuples, otherKept, rows⟩ := keepWhere_related alike.rows
    (fun _ _ _ same => Condition.evaluate_within same.within) kept
  refine ⟨_, select_eq_ok.mpr ⟨condition, otherTuples, parsed, otherKept, rfl⟩, ?_, alike.names, ?_⟩
  · change left.name ++ _ ++ _ = otherLeft.name ++ _ ++ _
    rw [alike.name]
  · exact rows.imp fun _ _ same => same.congr rfl rfl

theorem Alike.names_pick (alike : left.Alike otherLeft) (names : List String) :
    (left.pick (left.positionsOf names)).schema.names.Perm
      (otherLeft.pick (otherLeft.positionsOf names)).schema.names := by
  rw [names_pick_positionsOf, names_pick_positionsOf]
  exact alike.names.filter _

/-- Projected rows have equal values if the whole rows do. -/
theorem Alike.sameRow_pick (alike : left.Alike otherLeft) (leftShape : left.WellFormed)
    (otherShape : otherLeft.WellFormed) (names : List String)
    (same : left.SameRow otherLeft first otherFirst) :
    (left.pick (left.positionsOf names)).SameRow (otherLeft.pick (otherLeft.positionsOf names))
      (first.pick (left.positionsOf names)) (otherFirst.pick (otherLeft.positionsOf names)) := by
  refine ⟨length_pick same.leftWidth _, length_pick same.rightWidth _, fun name => ?_⟩
  have kept := (alike.names_pick names).mem_iff (a := name)
  by_cases member : name ∈ (left.pick (left.positionsOf names)).schema.names
  · rw [get?_pick_positionsOf leftShape.names_nodup names same.leftWidth member,
      get?_pick_positionsOf otherShape.names_nodup names same.rightWidth (kept.mp member)]
    exact same.values name
  · rw [get?_eq_none member, get?_eq_none fun otherMember => member (kept.mpr otherMember)]
    rfl

theorem Alike.project (alike : left.Alike otherLeft) (leftShape : left.WellFormed)
    (otherShape : otherLeft.WellFormed) (names : List String) :
    Matches (left.project names) (otherLeft.project names) := by
  intro result made
  obtain ⟨known, rfl⟩ := project_eq_ok_iff.mp made
  refine ⟨_, project_eq_ok_iff.mpr ⟨fun name member => ?_, rfl⟩, alike.name,
    alike.names_pick names, ?_⟩
  · exact (known name member).imp_right alike.names.mem_iff.mp
  · refine List.rel_map (fun first otherFirst same => ?_) alike.rows
    exact alike.sameRow_pick leftShape otherShape names same

section Combinations

variable (leftAlike : left.Alike otherLeft) (rightAlike : right.Alike otherRight)

include leftAlike rightAlike

theorem names_productSchema_perm :
    (left.productSchema right).names.Perm (otherLeft.productSchema otherRight).names := by
  rw [names_productSchema, names_productSchema, leftAlike.name, rightAlike.name]
  exact (leftAlike.names.map _).append (rightAlike.names.map _)

/-- Rows side by side have equal values under the qualified names if they do under the plain
ones. -/
theorem sameRow_append {result otherResult : Relation}
    (schema : result.schema = left.productSchema right)
    (otherSchema : otherResult.schema = otherLeft.productSchema otherRight)
    (distinct : (left.productSchema right).names.Nodup)
    (sameFirst : left.SameRow otherLeft first otherFirst)
    (sameSecond : right.SameRow otherRight second otherSecond) :
    result.SameRow otherResult (first ++ second) (otherFirst ++ otherSecond) := by
  have names := names_productSchema_perm leftAlike rightAlike
  refine ⟨?_, ?_, fun name => ?_⟩
  · rw [schema, List.length_append, sameFirst.leftWidth, sameSecond.leftWidth, productSchema,
      List.length_append, Schema.length_qualified, Schema.length_qualified]
  · rw [otherSchema, List.length_append, sameFirst.rightWidth, sameSecond.rightWidth, productSchema,
      List.length_append, Schema.length_qualified, Schema.length_qualified]
  · rw [← schema, ← otherSchema] at names
    by_cases member : name ∈ result.schema.names
    · rw [row, row, schema, otherSchema]
      rw [schema, names_productSchema, List.mem_append] at member
      rcases member with inLeft | inRight
      · obtain ⟨plain, isField, rfl⟩ := List.mem_map.mp inLeft
        rw [get?_productSchema_left second sameFirst.leftWidth isField, leftAlike.name,
          get?_productSchema_left otherSecond sameFirst.rightWidth
            (leftAlike.names.mem_iff.mp isField)]
        exact sameFirst.values plain
      · obtain ⟨plain, isField, rfl⟩ := List.mem_map.mp inRight
        have otherDistinct := (names_productSchema_perm leftAlike rightAlike).nodup_iff.mp distinct
        rw [get?_productSchema_right distinct second sameFirst.leftWidth isField, rightAlike.name,
          get?_productSchema_right otherDistinct otherSecond sameFirst.rightWidth
            (rightAlike.names.mem_iff.mp isField)]
        exact sameSecond.values plain
    · have otherAbsent : name ∉ otherResult.schema.names :=
        fun otherMember => member (names.mem_iff.mpr otherMember)
      rw [get?_eq_none member, get?_eq_none otherAbsent]
      rfl

theorem Alike.product : Matches (left.product right) (otherLeft.product otherRight) := by
  intro result made
  obtain ⟨distinct, rfl⟩ := product_eq_ok.mp made
  have names := names_productSchema_perm leftAlike rightAlike
  refine ⟨_, product_eq_ok.mpr ⟨names.nodup_iff.mp distinct, rfl⟩, ?_, names, ?_⟩
  · change left.name ++ _ ++ right.name = otherLeft.name ++ _ ++ otherRight.name
    rw [leftAlike.name, rightAlike.name]
  · refine List.rel_flatMap leftAlike.rows fun first otherFirst sameFirst => ?_
    refine List.rel_map (fun second otherSecond sameSecond => ?_) rightAlike.rows
    exact sameRow_append leftAlike rightAlike rfl rfl distinct sameFirst sameSecond

theorem Alike.thetaJoin (predicate : String) :
    Matches (left.thetaJoin right predicate) (otherLeft.thetaJoin otherRight predicate) := by
  intro result made
  obtain ⟨combined, product, selected⟩ := thetaJoin_eq_ok.mp made
  obtain ⟨otherCombined, otherProduct, alike⟩ := leftAlike.product rightAlike combined product
  obtain ⟨other, otherSelected, same⟩ := alike.select predicate result selected
  exact ⟨other, thetaJoin_eq_ok.mpr ⟨otherCombined, otherProduct, otherSelected⟩, same⟩

/-! ## Outer joins -/

/-- A predicate has the same truth value on rows with equal values. -/
theorem holdsOn_of_alike {holds : Bool} (distinct : (left.productSchema right).names.Nodup)
    (sameFirst : left.SameRow otherLeft first otherFirst)
    (sameSecond : right.SameRow otherRight second otherSecond)
    (onPair : left.holdsOn right predicate first second = .ok holds) :
    otherLeft.holdsOn otherRight predicate otherFirst otherSecond = .ok holds := by
  obtain ⟨condition, parsed, evaluated⟩ := bind_eq_ok.mp onPair
  have same : SameRow ⟨left.name ++ " x " ++ right.name, left.productSchema right, []⟩
      ⟨otherLeft.name ++ " x " ++ otherRight.name, otherLeft.productSchema otherRight, []⟩
      (first ++ second) (otherFirst ++ otherSecond) :=
    sameRow_append leftAlike rightAlike rfl rfl distinct sameFirst sameSecond
  exact bind_eq_ok.mpr ⟨condition, parsed, Condition.evaluate_within same.within evaluated⟩

theorem isFalseOn_of_alike (distinct : (left.productSchema right).names.Nodup)
    (sameFirst : left.SameRow otherLeft first otherFirst)
    (sameSecond : right.SameRow otherRight second otherSecond) :
    left.isFalseOn right predicate first second =
      otherLeft.isFalseOn otherRight predicate otherFirst otherSecond := by
  have forth : ∀ holds, left.holdsOn right predicate first second = .ok holds →
      otherLeft.holdsOn otherRight predicate otherFirst otherSecond = .ok holds :=
    fun _ => holdsOn_of_alike leftAlike rightAlike distinct sameFirst sameSecond
  have otherDistinct := (names_productSchema_perm leftAlike rightAlike).nodup_iff.mp distinct
  have back : ∀ holds, otherLeft.holdsOn otherRight predicate otherFirst otherSecond = .ok holds →
      left.holdsOn right predicate first second = .ok holds :=
    fun _ => holdsOn_of_alike leftAlike.symm rightAlike.symm otherDistinct sameFirst.symm
      sameSecond.symm
  cases onPair : left.holdsOn right predicate first second with
  | ok holds => rw [isFalseOn_eq_not onPair, isFalseOn_eq_not (forth holds onPair)]
  | error _ =>
      cases onOther : otherLeft.holdsOn otherRight predicate otherFirst otherSecond with
      | ok holds =>
          rw [back holds onOther] at onPair
          nomatch onPair
      | error _ => rw [isFalseOn, isFalseOn, onPair, onOther]

end Combinations

theorem all_eq_of_forall₂ {related : Tuple → Tuple → Prop} {tuples others : List Tuple}
    {test otherTest : Tuple → Bool} (pairs : List.Forall₂ related tuples others)
    (agree : ∀ first second, related first second → test first = otherTest second) :
    tuples.all test = others.all otherTest := by
  induction pairs with
  | nil => rfl
  | cons same _ ih => rw [List.all_cons, List.all_cons, agree _ _ same, ih]

theorem Alike.sameRow_nulls (alike : left.Alike otherLeft) :
    left.SameRow otherLeft (Tuple.nulls left.schema.length)
      (Tuple.nulls otherLeft.schema.length) := by
  refine ⟨Tuple.length_nulls _, Tuple.length_nulls _, fun name => ?_⟩
  by_cases member : name ∈ left.schema.names
  · rw [get?_nulls member, get?_nulls (alike.names.mem_iff.mp member)]
    rfl
  · rw [get?_eq_none member, get?_eq_none fun inOther => member (alike.names.mem_iff.mpr inOther)]
    rfl

/-- Which rows are kept does not depend on how the tests are put, as long as they agree. -/
theorem forall₂_padded {related paddedRelated : Tuple → Tuple → Prop} {tuples others : List Tuple}
    {keep otherKeep test otherTest : Tuple → Bool} {pad otherPad : Tuple → Tuple}
    (pairs : List.Forall₂ related tuples others)
    (keep_eq : ∀ tuple ∈ tuples, keep tuple = test tuple)
    (otherKeep_eq : ∀ tuple ∈ others, otherKeep tuple = otherTest tuple)
    (agree : ∀ first second, related first second → test first = otherTest second)
    (padded : ∀ first second, related first second → paddedRelated (pad first) (otherPad second)) :
    List.Forall₂ paddedRelated ((tuples.filter keep).map pad)
      ((others.filter otherKeep).map otherPad) := by
  rw [List.filter_congr keep_eq, List.filter_congr otherKeep_eq]
  refine List.rel_map (fun first second same => padded first second same) ?_
  refine List.rel_filter (fun first second same => ?_) pairs
  exact Bool.eq_iff_iff.mp (agree first second same)

theorem forall₂_if {related : Tuple → Tuple → Prop} {tuples others : List Tuple} (keeps : Bool)
    (pairs : List.Forall₂ related tuples others) :
    List.Forall₂ related (if keeps then tuples else []) (if keeps then others else []) := by
  cases keeps with
  | true => exact pairs
  | false => exact .nil

section OuterJoins

variable {joined otherJoined result otherResult : Relation}
  (leftAlike : left.Alike otherLeft) (rightAlike : right.Alike otherRight)
  (leftShape : left.WellFormed) (otherShape : otherLeft.WellFormed)
  (made : left.thetaJoin right predicate = .ok joined)
  (otherMade : otherLeft.thetaJoin otherRight predicate = .ok otherJoined)
  (schema : result.schema = left.productSchema right)
  (otherSchema : otherResult.schema = otherLeft.productSchema otherRight)

include leftAlike rightAlike leftShape otherShape made otherMade schema otherSchema

theorem unmatchedLeft_of_alike :
    List.Forall₂ (result.SameRow otherResult)
      (unmatchedLeft joined.tuples left.schema.length right.schema.length left.tuples)
      (unmatchedLeft otherJoined.tuples otherLeft.schema.length otherRight.schema.length
        otherLeft.tuples) := by
  obtain ⟨combined, product, -⟩ := thetaJoin_eq_ok.mp made
  have distinct := (product_eq_ok.mp product).1
  refine forall₂_padded leftAlike.rows (fun _ => begins_joined_eq leftShape made)
    (fun _ => begins_joined_eq otherShape otherMade) (fun first otherFirst sameFirst => ?_)
    fun first otherFirst sameFirst => ?_
  · exact all_eq_of_forall₂ rightAlike.rows fun second otherSecond sameSecond =>
      isFalseOn_of_alike leftAlike rightAlike distinct sameFirst sameSecond
  · exact sameRow_append leftAlike rightAlike schema otherSchema distinct sameFirst
      rightAlike.sameRow_nulls

theorem unmatchedRight_of_alike :
    List.Forall₂ (result.SameRow otherResult)
      (unmatchedRight joined.tuples left.schema.length right.tuples)
      (unmatchedRight otherJoined.tuples otherLeft.schema.length otherRight.tuples) := by
  obtain ⟨combined, product, -⟩ := thetaJoin_eq_ok.mp made
  have distinct := (product_eq_ok.mp product).1
  refine forall₂_padded rightAlike.rows (fun _ => ends_joined_eq leftShape made)
    (fun _ => ends_joined_eq otherShape otherMade) (fun second otherSecond sameSecond => ?_)
    fun second otherSecond sameSecond => ?_
  · exact all_eq_of_forall₂ leftAlike.rows fun first otherFirst sameFirst =>
      isFalseOn_of_alike leftAlike rightAlike distinct sameFirst sameSecond
  · exact sameRow_append leftAlike rightAlike schema otherSchema distinct leftAlike.sameRow_nulls
      sameSecond

end OuterJoins

theorem Alike.outerJoin (leftAlike : left.Alike otherLeft) (rightAlike : right.Alike otherRight)
    (leftShape : left.WellFormed) (otherShape : otherLeft.WellFormed) (predicate : String)
    (side : Side) :
    Matches (left.outerJoin right predicate side)
      (otherLeft.outerJoin otherRight predicate side) := by
  intro result made
  obtain ⟨joined, theta, rfl⟩ := outerJoin_eq_ok.mp made
  obtain ⟨otherJoined, otherTheta, alike⟩ := leftAlike.thetaJoin rightAlike predicate joined theta
  have schema := schema_of_thetaJoin theta
  have otherSchema := schema_of_thetaJoin otherTheta
  refine ⟨_, outerJoin_eq_ok.mpr ⟨otherJoined, otherTheta, rfl⟩, ?_, alike.names, ?_⟩
  · change left.name ++ _ ++ _ ++ _ ++ right.name = otherLeft.name ++ _ ++ _ ++ _ ++ otherRight.name
    rw [leftAlike.name, rightAlike.name]
  · refine List.rel_append (List.rel_append ?_ ?_) ?_
    · exact alike.rows.imp fun _ _ same => same.congr rfl rfl
    · exact forall₂_if _ (unmatchedLeft_of_alike leftAlike rightAlike leftShape otherShape theta
        otherTheta schema otherSchema)
    · exact forall₂_if _ (unmatchedRight_of_alike leftAlike rightAlike leftShape otherShape theta
        otherTheta schema otherSchema)

/-! ## All operators -/

theorem sameOutcome_apply (reachable : left.Reachable) (otherReachable : otherLeft.Reachable)
    (operation : Operation)
    (forth : Matches (operation.apply left) (operation.apply otherLeft))
    (back : Matches (operation.apply otherLeft) (operation.apply left)) :
    SameOutcome (operation.apply left) (operation.apply otherLeft) :=
  sameOutcome_of_matches forth back
    (fun _ made => Reachable.wellFormed (.apply operation trivial reachable made))
    fun _ made => Reachable.wellFormed (.apply operation trivial otherReachable made)

theorem sameOutcome_combine (leftReachable : left.Reachable) (rightReachable : right.Reachable)
    (otherLeftReachable : otherLeft.Reachable) (otherRightReachable : otherRight.Reachable)
    (combination : Combination)
    (forth : Matches (combination.apply left right) (combination.apply otherLeft otherRight))
    (back : Matches (combination.apply otherLeft otherRight) (combination.apply left right)) :
    SameOutcome (combination.apply left right) (combination.apply otherLeft otherRight) :=
  sameOutcome_of_matches forth back
    (fun _ made => Reachable.wellFormed
      (.combine combination trivial leftReachable rightReachable made))
    fun _ made => Reachable.wellFormed
      (.combine combination trivial otherLeftReachable otherRightReachable made)

theorem equivalence_beq :
    Equivalence fun left right : {relation : Relation // relation.Reachable} =>
      (left.1 == right.1) = true where
  refl relation := by
    have shape := relation.2.wellFormed
    exact (beq_iff_alike shape shape).mpr (.refl shape)
  symm {left right} same := by
    have leftShape := left.2.wellFormed
    have rightShape := right.2.wellFormed
    have alike := (beq_iff_alike leftShape rightShape).mp same
    exact (beq_iff_alike rightShape leftShape).mpr alike.symm
  trans {left middle right} before after := by
    have leftShape := left.2.wellFormed
    have middleShape := middle.2.wellFormed
    have rightShape := right.2.wellFormed
    exact (beq_iff_alike leftShape rightShape).mpr
      (((beq_iff_alike leftShape middleShape).mp before).trans
        ((beq_iff_alike middleShape rightShape).mp after))

/-- Equality is an equivalence on the relations within reach, and selections, projections, products
and joins of equal relations are equal or fail together. -/
theorem operators_respect_equality :
    (Equivalence fun left right : {relation : Relation // relation.Reachable} =>
      (left.1 == right.1) = true) ∧
    ∀ left otherLeft right otherRight : Relation, left.Reachable → otherLeft.Reachable →
      right.Reachable → otherRight.Reachable →
      (left == otherLeft) = true → (right == otherRight) = true →
      ∀ (predicate : String) (names : List String),
        SameOutcome (left.select predicate) (otherLeft.select predicate) ∧
        SameOutcome (left.project names) (otherLeft.project names) ∧
        SameOutcome (left.product right) (otherLeft.product otherRight) ∧
        SameOutcome (left.thetaJoin right predicate) (otherLeft.thetaJoin otherRight predicate) ∧
        SameOutcome (left.fullOuterJoin right predicate)
          (otherLeft.fullOuterJoin otherRight predicate) ∧
        SameOutcome (left.leftOuterJoin right predicate)
          (otherLeft.leftOuterJoin otherRight predicate) ∧
        SameOutcome (left.rightOuterJoin right predicate)
          (otherLeft.rightOuterJoin otherRight predicate) := by
  refine ⟨equivalence_beq, fun left otherLeft right otherRight leftReachable otherLeftReachable
    rightReachable otherRightReachable leftSame rightSame predicate names => ?_⟩
  have leftShape := leftReachable.wellFormed
  have otherShape := otherLeftReachable.wellFormed
  have leftAlike := (beq_iff_alike leftShape otherShape).mp leftSame
  have rightAlike :=
    (beq_iff_alike rightReachable.wellFormed otherRightReachable.wellFormed).mp rightSame
  have apply := sameOutcome_apply leftReachable otherLeftReachable
  have combine := sameOutcome_combine leftReachable rightReachable otherLeftReachable
    otherRightReachable
  have outer := fun side => leftAlike.outerJoin rightAlike leftShape otherShape predicate side
  have outerBack := fun side =>
    leftAlike.symm.outerJoin rightAlike.symm otherShape leftShape predicate side
  refine ⟨apply (.select predicate) ?_ ?_, apply (.project names) ?_ ?_,
    combine .product ?_ ?_, combine (.thetaJoin predicate) ?_ ?_,
    combine (.fullOuterJoin predicate) (outer .both) (outerBack .both),
    combine (.leftOuterJoin predicate) (outer .left) (outerBack .left),
    combine (.rightOuterJoin predicate) (outer .right) (outerBack .right)⟩
  · exact leftAlike.select predicate
  · exact leftAlike.symm.select predicate
  · exact leftAlike.project leftShape otherShape names
  · exact leftAlike.symm.project otherShape leftShape names
  · exact leftAlike.product rightAlike
  · exact leftAlike.symm.product rightAlike.symm
  · exact leftAlike.thetaJoin rightAlike predicate
  · exact leftAlike.symm.thetaJoin rightAlike.symm predicate

/-- A reading of zero beside one that is no number. -/
def readings : Relation :=
  ⟨"R", [.any "low", .any "high"], [[.float ⟨0⟩, .float ⟨0x7ff8000000000000⟩]]⟩

/-- The same readings, with the fields the other way round, the zero negative and another NaN. -/
def swappedReadings : Relation :=
  ⟨"R", [.any "high", .any "low"],
    [[.float ⟨0xfff8000000000001⟩, .float ⟨0x8000000000000000⟩]]⟩

theorem reachable_readings : readings.Reachable :=
  reachable_of_rows (by decide) (by decide) (by decide)

theorem reachable_swappedReadings : swappedReadings.Reachable :=
  reachable_of_rows (by decide) (by decide) (by decide)

/-- The readings are equal, and so are their combinations with earlier ones. -/
theorem sameOutcome_readings :
    (readings == swappedReadings) = true ∧ readings.schema.names ≠ swappedReadings.schema.names ∧
      (∃ result, readings.product (swappedReadings.renamed "Old") = .ok result) ∧
      SameOutcome (readings.product (swappedReadings.renamed "Old"))
        (swappedReadings.product (readings.renamed "Old")) ∧
      SameOutcome (readings.fullOuterJoin (swappedReadings.renamed "Old") "R.low < Old.high")
        (swappedReadings.fullOuterJoin (readings.renamed "Old") "R.low < Old.high") := by
  have same : (readings == swappedReadings) = true := by decide +kernel
  have sameOld : (swappedReadings.renamed "Old" == readings.renamed "Old") = true := by
    decide +kernel
  have made : readings.product (swappedReadings.renamed "Old") = .ok _ :=
    product_eq_ok.mpr ⟨by decide, rfl⟩
  have respects := operators_respect_equality.2 readings swappedReadings
    (swappedReadings.renamed "Old") (readings.renamed "Old") reachable_readings
    reachable_swappedReadings (.apply (.renamed "Old") trivial reachable_swappedReadings rfl)
    (.apply (.renamed "Old") trivial reachable_readings rfl) same sameOld
  obtain ⟨-, -, product, -, full, -⟩ := respects "R.low < Old.high" []
  exact ⟨same, by decide, ⟨_, made⟩, product, full⟩

end TypedRelations.Relation
