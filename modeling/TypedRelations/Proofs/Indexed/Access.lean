import TypedRelations.Proofs.Outcome

/-!
# Access by position

The operations find fields and values by their positions in lists and take what is there: a position
behind the end yields nothing. An implementation on arrays stops there. This module has the monad of
computations that stop at such a position, or at an error as before, with the accesses that can do
so; `lift` embeds the computations that have no access to check.
-/

namespace TypedRelations.Indexed

variable {ε ε' α β : Type}

/-- Why a computation stops early. -/
inductive Stop (ε : Type) where
  /-- It refuses its arguments. -/
  | refused (error : ε)
  /-- It asks for a position that a list of the given length does not have. -/
  | outOfRange (position length : Nat)

/-- The stop with another error. -/
def Stop.map (image : ε → ε') : Stop ε → Stop ε'
  | .refused error => .refused (image error)
  | .outOfRange position length => .outOfRange position length

/-- A computation that checks its accesses. -/
abbrev Run (ε α : Type) := Except (Stop ε) α

/-- A computation without accesses. -/
def lift (outcome : Except ε α) : Run ε α := outcome.mapError .refused

/-- Stops with an error. -/
def refuse (error : ε) : Run ε α := lift (.error error)

/-- The computation with another error. -/
def mapRefusal (image : ε → ε') (run : Run ε α) : Run ε' α := run.mapError (Stop.map image)

/-- The item at a position. -/
def entry (items : List α) (position : Nat) : Run ε α :=
  match items[position]? with
  | some item => .ok item
  | none => .error (.outOfRange position items.length)

/-- The list with another item at a position. -/
def overwrite (items : List α) (position : Nat) (item : α) : Run ε (List α) :=
  if position < items.length then .ok (items.set position item)
  else .error (.outOfRange position items.length)

/-- The items before a position, which may be the end of the list. -/
def upTo (items : List α) (position : Nat) : Run ε (List α) :=
  if position ≤ items.length then .ok (items.take position)
  else .error (.outOfRange position items.length)

/-- The items from a position on, which may be the end of the list. -/
def onward (items : List α) (position : Nat) : Run ε (List α) :=
  if position ≤ items.length then .ok (items.drop position)
  else .error (.outOfRange position items.length)

/-- The items at the given positions, in the order of the positions. -/
def pick (positions : List Nat) (items : List α) : Run ε (List α) := positions.mapM (entry items)

/-- The items that pass a test. -/
def keepWhere (test : α → Run ε Bool) : List α → Run ε (List α)
  | [] => .ok []
  | item :: rest => do
    let passes ← test item
    let kept ← keepWhere test rest
    return if passes then item :: kept else kept

theorem lift_ok (value : α) : (lift (.ok value) : Run ε α) = .ok value := rfl

theorem ok_bind (value : α) (next : α → Run ε β) : (.ok value >>= next) = next value := rfl

theorem lift_ne_outOfRange (outcome : Except ε α) (position length : Nat) :
    lift outcome ≠ .error (.outOfRange position length) := by
  cases outcome with
  | error error => nofun
  | ok value => nofun

theorem lift_bind (first : Except ε α) (next : α → Except ε β) :
    lift (first >>= next) = lift first >>= fun value => lift (next value) := by
  cases first with
  | error error => rfl
  | ok value => rfl

/-- The second step needs to stay in range only for what the first one can yield. -/
theorem lift_bind_congr {first : Except ε α} {next : α → Except ε β} {checked : α → Run ε β}
    (same : ∀ value, first = .ok value → checked value = lift (next value)) :
    (lift first >>= checked) = lift (first >>= next) := by
  cases first with
  | error error => rfl
  | ok value => exact same value rfl

theorem mapRefusal_lift (image : ε → ε') (outcome : Except ε α) :
    mapRefusal image (lift outcome) = lift (outcome.mapError image) := by
  cases outcome with
  | error error => rfl
  | ok value => rfl

theorem mapM_eq_lift {step : α → Except ε β} {checked : α → Run ε β} {items : List α}
    (same : ∀ item ∈ items, checked item = lift (step item)) :
    items.mapM checked = lift (items.mapM step) := by
  induction items with
  | nil => rfl
  | cons item rest ih =>
      have later := ih fun other member => same other (List.mem_cons_of_mem _ member)
      rw [List.mapM_cons, List.mapM_cons, same item List.mem_cons_self, lift_bind, later]
      congr 1
      funext result
      rw [lift_bind]
      rfl

theorem keepWhere_eq_filter {test : α → Run ε Bool} {keep : α → Bool} {items : List α}
    (same : ∀ item ∈ items, test item = .ok (keep item)) :
    keepWhere test items = .ok (items.filter keep) := by
  induction items with
  | nil => rfl
  | cons item rest ih =>
      have later := ih fun other member => same other (List.mem_cons_of_mem _ member)
      rw [keepWhere, same item List.mem_cons_self, later, List.filter_cons]
      rfl

theorem anyM_eq_any {test : α → Run ε Bool} {holds : α → Bool} {items : List α}
    (same : ∀ item ∈ items, test item = .ok (holds item)) :
    items.anyM test = .ok (items.any holds) := by
  induction items with
  | nil => rfl
  | cons item rest ih =>
      have later := ih fun other member => same other (List.mem_cons_of_mem _ member)
      rw [List.anyM_cons, same item List.mem_cons_self, later, List.any_cons]
      cases holds item with
      | true => rfl
      | false => rfl

theorem allM_eq_all {test : α → Run ε Bool} {holds : α → Bool} {items : List α}
    (same : ∀ item ∈ items, test item = .ok (holds item)) :
    items.allM test = .ok (items.all holds) := by
  have negated : ∀ item ∈ items, (!·) <$> test item = .ok (!holds item) := by
    intro item member
    rw [same item member]
    rfl
  rw [List.allM_eq_not_anyM_not, anyM_eq_any negated, List.all_eq_not_any_not]
  rfl

theorem foldlM_eq_foldl {step : β → α → Run ε β} {next : β → α → β} {items : List α}
    (same : ∀ accumulated, ∀ item ∈ items, step accumulated item = .ok (next accumulated item))
    (start : β) : items.foldlM step start = .ok (items.foldl next start) := by
  induction items generalizing start with
  | nil => rfl
  | cons item rest ih =>
      rw [List.foldlM_cons, same start item List.mem_cons_self, List.foldl_cons]
      exact ih (fun accumulated other member =>
        same accumulated other (List.mem_cons_of_mem _ member)) _

theorem entry_eq_ok {items : List α} {position : Nat} {item : α}
    (listed : items[position]? = some item) : (entry items position : Run ε α) = .ok item := by
  rw [entry, listed]

theorem overwrite_eq_ok {items : List α} {position : Nat} (bound : position < items.length)
    (item : α) : (overwrite items position item : Run ε _) = .ok (items.set position item) :=
  if_pos bound

theorem upTo_eq_ok {items : List α} {position : Nat} (bound : position ≤ items.length) :
    (upTo items position : Run ε _) = .ok (items.take position) :=
  if_pos bound

theorem onward_eq_ok {items : List α} {position : Nat} (bound : position ≤ items.length) :
    (onward items position : Run ε _) = .ok (items.drop position) :=
  if_pos bound

theorem pick_eq_ok {positions : List Nat} {items : List α}
    (bounds : ∀ position ∈ positions, position < items.length) :
    (pick positions items : Run ε _) =
      .ok (positions.filterMap fun position => items[position]?) := by
  refine mapM_eq_ok.mpr ?_
  induction positions with
  | nil => exact .nil
  | cons position rest ih =>
      have listed := List.getElem?_eq_getElem (bounds position List.mem_cons_self)
      rw [List.filterMap_cons, listed]
      exact .cons (entry_eq_ok listed)
        (ih fun other member => bounds other (List.mem_cons_of_mem _ member))

end TypedRelations.Indexed
