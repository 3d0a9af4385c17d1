/-!
# Sets that remember insertion order

A set is kept as the list of its elements in the order in which they first came in, told apart by
`==`. A union lists the left set before what the right one adds, and an intersection or a difference
is in the order of the left set. Comparing two sets ignores order.
-/

namespace TypedRelations

/-- A finite set whose elements are listed in the order of their insertion. -/
structure OrderedSet (α : Type) [BEq α] where
  items : List α
  distinct : items.Pairwise fun first second => (first == second) = false

namespace OrderedSet

variable {α : Type} [BEq α]

/-- The set without elements. -/
def empty : OrderedSet α := ⟨[], .nil⟩

instance : Inhabited (OrderedSet α) := ⟨empty⟩

/-- The set has an element equal to the given one. -/
def contains (set : OrderedSet α) (element : α) : Bool := set.items.any (· == element)

/-- Adds an element at the end, unless an equal one is there already. -/
def insert (set : OrderedSet α) (element : α) : OrderedSet α :=
  if present : set.contains element = true then set
  else
    { items := set.items ++ [element]
      distinct := by
        simp only [contains, List.any_eq_true, not_exists, not_and, Bool.not_eq_true] at present
        simpa [List.pairwise_append, set.distinct] using present }

/-- Adds every element of a list, the first one first. -/
def insertAll (set : OrderedSet α) (elements : List α) : OrderedSet α :=
  elements.foldl insert set

/-- The elements of a list, each at its first occurrence. -/
def ofList (elements : List α) : OrderedSet α := empty.insertAll elements

/-- Keeps the elements that satisfy a condition. -/
def filter (set : OrderedSet α) (keep : α → Bool) : OrderedSet α :=
  ⟨set.items.filter keep, set.distinct.filter keep⟩

/-- The elements of the left set, then those that only the right one has. -/
def union (left right : OrderedSet α) : OrderedSet α := left.insertAll right.items

/-- The elements of the left set that the right one has as well. -/
def inter (left right : OrderedSet α) : OrderedSet α := left.filter right.contains

/-- The elements of the left set that the right one lacks. -/
def diff (left right : OrderedSet α) : OrderedSet α :=
  left.filter fun element => !right.contains element

/-- The two sets are equally large and the right one has every element of the left one. -/
instance : BEq (OrderedSet α) :=
  ⟨fun left right =>
    left.items.length == right.items.length && left.items.all right.contains⟩

/-- An insertion leaves the list alone or extends it by one element. -/
theorem items_insert (set : OrderedSet α) (element : α) :
    (set.insert element).items =
      if set.contains element then set.items else set.items ++ [element] := by
  unfold insert
  split <;> simp_all

/-- After an insertion the set has what it had and the new element. -/
theorem contains_insert (set : OrderedSet α) (added element : α) [PartialEquivBEq α] :
    (set.insert added).contains element = (set.contains element || added == element) := by
  rw [contains, items_insert]
  cases present : set.contains added with
  | false => simp [contains]
  | true =>
    cases equal : added == element with
    | false => simp [contains]
    | true =>
      obtain ⟨item, member, same⟩ := List.any_eq_true.mp present
      have : set.contains element = true :=
        List.any_eq_true.mpr ⟨item, member, PartialEquivBEq.trans same equal⟩
      simpa [contains] using this

/-- After the insertion of a list the set has what it had and what the list has. -/
theorem contains_insertAll (set : OrderedSet α) (elements : List α) (element : α)
    [PartialEquivBEq α] :
    (set.insertAll elements).contains element =
      (set.contains element || elements.any (· == element)) := by
  induction elements generalizing set with
  | nil => simp [insertAll]
  | cons head rest ih =>
    have := ih (set.insert head)
    simp only [insertAll, List.foldl_cons] at this ⊢
    simp [this, contains_insert, Bool.or_assoc]

theorem mem_of_mem_insertAll {set : OrderedSet α} {elements : List α} {element : α}
    (member : element ∈ (set.insertAll elements).items) :
    element ∈ set.items ∨ element ∈ elements := by
  induction elements generalizing set with
  | nil => exact .inl member
  | cons head rest ih =>
      rcases ih member with inserted | later
      · rw [items_insert] at inserted
        split at inserted
        · exact .inl inserted
        · rcases List.mem_append.mp inserted with inSet | added
          · exact .inl inSet
          · exact .inr (List.mem_cons.mpr (.inl (List.mem_singleton.mp added)))
      · exact .inr (List.mem_cons_of_mem _ later)

/-- A set made of a list has no elements but those of the list. -/
theorem mem_of_mem_ofList {elements : List α} {element : α}
    (member : element ∈ (ofList elements).items) : element ∈ elements := by
  rcases mem_of_mem_insertAll member with absent | listed
  · nomatch absent
  · exact listed

/-- The insertion of a list adds what the set lacks, each element at its first occurrence. -/
theorem items_insertAll (set : OrderedSet α) (elements : List α) [PartialEquivBEq α] :
    (set.insertAll elements).items =
      set.items ++ (elements.filter fun element => !set.contains element).eraseDups := by
  induction elements generalizing set with
  | nil => simp [insertAll]
  | cons head rest ih =>
    have later := ih (set.insert head)
    simp only [insertAll, List.foldl_cons] at later ⊢
    rw [later, items_insert, List.filter_cons]
    cases present : set.contains head with
    | true =>
      have same : ∀ element, (set.insert head).contains element = set.contains element := by
        intro element
        rw [contains, items_insert, present]
        rfl
      simp [same]
    | false =>
      have both : ∀ element, (!(set.insert head).contains element) =
          (!element == head && !set.contains element) := by
        intro element
        rw [contains_insert, Bool.not_or, Bool.and_comm, BEq.comm]
      simp [both, List.eraseDups_cons, List.filter_filter]

/-- The set made of a list has its elements without later repetitions. -/
theorem items_ofList (elements : List α) [PartialEquivBEq α] :
    (ofList elements).items = elements.eraseDups := by
  have none : ∀ element, (!(empty : OrderedSet α).contains element) = true := fun _ => rfl
  rw [ofList, items_insertAll, List.filter_eq_self.mpr fun element _ => none element]
  rfl

/-- A union has what either set has. -/
theorem contains_union (left right : OrderedSet α) (element : α) [PartialEquivBEq α] :
    (left.union right).contains element = (left.contains element || right.contains element) :=
  contains_insertAll left right.items element

/-- A condition that does not tell equal elements apart filters membership. -/
theorem contains_filter (set : OrderedSet α) (keep : α → Bool) (element : α)
    (congruent : ∀ item, (item == element) = true → keep item = keep element) :
    (set.filter keep).contains element = (set.contains element && keep element) := by
  simp only [contains, filter, List.any_filter]
  cases kept : keep element with
  | false =>
    simp only [Bool.and_false, List.any_eq_false, Bool.and_eq_true, not_and]
    intro item _ keptItem same
    simp [congruent item same, kept] at keptItem
  | true =>
    simp only [Bool.and_true]
    refine congrArg (List.any set.items) (funext fun item => ?_)
    cases same : item == element with
    | false => simp
    | true => simp [congruent item same, kept]

theorem contains_congr [PartialEquivBEq α] (set : OrderedSet α) {first second : α}
    (same : (first == second) = true) : set.contains first = set.contains second := by
  have back : (second == first) = true := BEq.symm same
  apply Bool.eq_iff_iff.mpr
  simp only [contains, List.any_eq_true]
  exact ⟨fun ⟨item, member, equal⟩ => ⟨item, member, PartialEquivBEq.trans equal same⟩,
    fun ⟨item, member, equal⟩ => ⟨item, member, PartialEquivBEq.trans equal back⟩⟩

/-- An intersection has what both sets have. -/
theorem contains_inter (left right : OrderedSet α) (element : α) [PartialEquivBEq α] :
    (left.inter right).contains element = (left.contains element && right.contains element) :=
  contains_filter left _ element fun _ same => contains_congr right same

/-- A difference has what only the left set has. -/
theorem contains_diff (left right : OrderedSet α) (element : α) [PartialEquivBEq α] :
    (left.diff right).contains element = (left.contains element && !right.contains element) :=
  contains_filter left _ element fun _ same => congrArg not (contains_congr right same)

end OrderedSet

end TypedRelations
