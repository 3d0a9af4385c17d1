import Mathlib.Data.List.Forall2

/-!
# Lists

Facts about lists that the proofs about relations share. Schemas, tuples and resolved mappings are
lists that are related to each other item by item, and a join keeps some of the columns of a
product by their positions.
-/

namespace TypedRelations

variable {α β γ : Type}

theorem forall₂_getElem? {related : α → β → Prop} {lefts : List α} {rights : List β}
    (pairs : List.Forall₂ related lefts rights) (position : Nat) :
    Option.Rel related lefts[position]? rights[position]? := by
  induction pairs generalizing position with
  | nil => exact .none
  | cons head _ ih =>
      cases position with
      | zero => simpa using Option.Rel.some head
      | succ position => simpa using ih position

theorem exists_left_at {related : α → β → Prop} {lefts : List α} {rights : List β}
    (pairs : List.Forall₂ related lefts rights) {position : Nat} {right : β}
    (listed : rights[position]? = some right) :
    ∃ left, lefts[position]? = some left ∧ related left right := by
  have entries := forall₂_getElem? pairs position
  rw [listed] at entries
  cases leftEntry : lefts[position]? with
  | none =>
      rw [leftEntry] at entries
      nomatch entries
  | some left =>
      rw [leftEntry] at entries
      exact ⟨left, rfl, Option.rel_some_some.mp entries⟩

/-- Two lists that are related entry by entry stay so when entries are taken at the same
positions. -/
theorem forall₂_pick {related : α → β → Prop} {lefts : List α} {rights : List β}
    (pairs : List.Forall₂ related lefts rights) (positions : List Nat) :
    List.Forall₂ related (positions.filterMap fun position => lefts[position]?)
      (positions.filterMap fun position => rights[position]?) := by
  induction positions with
  | nil => exact .nil
  | cons position rest ih =>
      rw [List.filterMap_cons, List.filterMap_cons]
      have head := forall₂_getElem? pairs position
      cases leftEntry : lefts[position]? with
      | none =>
          cases rightEntry : rights[position]? with
          | none => exact ih
          | some right =>
              rw [leftEntry, rightEntry] at head
              nomatch head
      | some left =>
          cases rightEntry : rights[position]? with
          | none =>
              rw [leftEntry, rightEntry] at head
              nomatch head
          | some right =>
              rw [leftEntry, rightEntry] at head
              exact .cons (Option.rel_some_some.mp head) ih

theorem forall₂_and {first second : α → β → Prop} {lefts : List α} {rights : List β}
    (firstPairs : List.Forall₂ first lefts rights)
    (secondPairs : List.Forall₂ second lefts rights) :
    List.Forall₂ (fun left right => first left right ∧ second left right) lefts rights := by
  induction firstPairs with
  | nil => exact .nil
  | cons firstHead _ ih =>
      cases secondPairs with
      | cons secondHead secondTail => exact .cons ⟨firstHead, secondHead⟩ (ih secondTail)

theorem forall₂_of_beq [BEq α] {lefts rights : List α} (same : (lefts == rights) = true) :
    List.Forall₂ (fun left right => (left == right) = true) lefts rights := by
  induction lefts generalizing rights with
  | nil =>
      cases rights with
      | nil => exact .nil
      | cons right rest => nomatch same
  | cons left rest ih =>
      cases rights with
      | nil => nomatch same
      | cons right others =>
          rw [List.cons_beq_cons, Bool.and_eq_true] at same
          exact .cons same.1 (ih same.2)

theorem exists_left_of_forall₂ {related : α → β → Prop} {lefts : List α} {rights : List β}
    (pairs : List.Forall₂ related lefts rights) {right : β} (member : right ∈ rights) :
    ∃ left ∈ lefts, related left right := by
  induction pairs with
  | nil => nomatch member
  | @cons left other _ _ head _ ih =>
      rcases List.mem_cons.mp member with rfl | later
      · exact ⟨left, List.mem_cons_self, head⟩
      · rcases ih later with ⟨found, inLefts, isRelated⟩
        exact ⟨found, List.mem_cons_of_mem _ inLefts, isRelated⟩

/-- Two lists that are both related to a third one are related to each other. -/
theorem forall₂_join {leftRelated : α → β → Prop} {rightRelated : α → γ → Prop}
    {related : β → γ → Prop} {items : List α} {lefts : List β} {rights : List γ}
    (leftPairs : List.Forall₂ leftRelated items lefts)
    (rightPairs : List.Forall₂ rightRelated items rights)
    (combine : ∀ item left right, leftRelated item left → rightRelated item right →
      related left right) : List.Forall₂ related lefts rights := by
  induction leftPairs generalizing rights with
  | nil =>
      cases rightPairs
      exact .nil
  | cons leftHead _ ih =>
      cases rightPairs with
      | cons rightHead rightTail => exact .cons (combine _ _ _ leftHead rightHead) (ih rightTail)

/-- A traversal finds something under every item, item by item. -/
theorem mapM_eq_some {find : α → Option β} {items : List α} {found : List β} :
    items.mapM find = some found ↔
      List.Forall₂ (fun item result => find item = some result) items found := by
  induction items generalizing found with
  | nil =>
      rw [List.mapM_nil, List.forall₂_nil_left_iff]
      exact ⟨fun same => (Option.some.inj same).symm, fun same => congrArg some same.symm⟩
  | cons item rest ih =>
      rw [List.mapM_cons, List.forall₂_cons_left_iff, Option.bind_eq_bind, Option.bind_eq_some_iff]
      constructor
      · intro ⟨result, here, later⟩
        obtain ⟨others, restFound, same⟩ := Option.bind_eq_some_iff.mp later
        exact ⟨result, others, here, ih.mp restFound, (Option.some.inj same).symm⟩
      · rintro ⟨result, others, here, restFound, rfl⟩
        exact ⟨result, here, Option.bind_eq_some_iff.mpr ⟨others, ih.mpr restFound, rfl⟩⟩

theorem beq_of_forall₂ [BEq α] {lefts rights : List α}
    (same : List.Forall₂ (fun left right => (left == right) = true) lefts rights) :
    (lefts == rights) = true := by
  induction same with
  | nil => rfl
  | cons head _ ih => rw [List.cons_beq_cons, head, ih, Bool.and_self]

/-- Lists are compared item by item, so that their equality is an equivalence if that of the items
is. -/
instance equivBEqList [BEq α] [EquivBEq α] : EquivBEq (List α) where
  symm {lefts rights} same := by
    have items := (forall₂_of_beq same).flip
    exact beq_of_forall₂ (items.imp fun _ _ equal => BEq.symm equal)
  trans {lefts middles rights} first second := by
    have before := (forall₂_of_beq first).flip
    refine beq_of_forall₂ (forall₂_join before (forall₂_of_beq second) ?_)
    exact fun _ _ _ left right => PartialEquivBEq.trans left right

theorem option_beq_iff [BEq α] {left right : Option α} :
    (left == right) = true ↔
      Option.Rel (fun value other => (value == other) = true) left right := by
  cases left with
  | none =>
      cases right with
      | none => exact ⟨fun _ => .none, fun _ => rfl⟩
      | some right => exact ⟨fun same => (nomatch same), fun same => (nomatch same)⟩
  | some left =>
      cases right with
      | none => exact ⟨fun same => (nomatch same), fun same => (nomatch same)⟩
      | some right => rw [Option.some_beq_some, Option.rel_some_some]

instance equivBEqOption [BEq α] [EquivBEq α] : EquivBEq (Option α) where
  symm {left right} same := by
    cases option_beq_iff.mp same with
    | some equal => exact option_beq_iff.mpr (.some (BEq.symm equal))
    | none => rfl
  trans {left middle right} first second := by
    cases option_beq_iff.mp first with
    | none => exact second
    | some before =>
        cases option_beq_iff.mp second with
        | some after => exact option_beq_iff.mpr (.some (PartialEquivBEq.trans before after))

/-- Two appended lists whose first parts are equally long are compared part by part. -/
theorem append_beq_append [BEq α] {first second otherFirst otherSecond : List α}
    (widths : first.length = otherFirst.length) :
    (first ++ second == otherFirst ++ otherSecond) =
      (first == otherFirst && second == otherSecond) := by
  induction first generalizing otherFirst with
  | nil =>
      cases otherFirst with
      | nil => rfl
      | cons _ _ => nomatch widths
  | cons head rest ih =>
      cases otherFirst with
      | nil => nomatch widths
      | cons other others =>
          rw [List.cons_append, List.cons_append, List.cons_beq_cons, List.cons_beq_cons,
            ih (Nat.succ.inj widths), Bool.and_assoc]

/-- What stands before the first occurrence of an item. -/
theorem takeWhile_bne_append [BEq α] [LawfulBEq α] {stop : α} {items : List α}
    (absent : stop ∉ items) (rest : List α) :
    (items ++ stop :: rest).takeWhile (· != stop) = items := by
  rw [List.takeWhile_append_of_pos, List.takeWhile_cons_of_neg (by simp), List.append_nil]
  exact fun item member => bne_iff_ne.mpr fun same => absent (same ▸ member)

/-! ## Positions and kept items -/

theorem lt_of_mem_zipIdx {items : List α} {entry : α × Nat}
    (member : entry ∈ items.zipIdx) : entry.2 < items.length :=
  (List.getElem?_eq_some_iff.mp (List.mem_zipIdx_iff_getElem?.mp member)).1

/-- Entries that are listed with their own positions are found again at these positions. -/
theorem pick_positions {items : List α} {entries : List (α × Nat)}
    (located : ∀ entry ∈ entries, items[entry.2]? = some entry.1) :
    ((entries.map Prod.snd).filterMap fun position => items[position]?) =
      entries.map Prod.fst := by
  rw [List.filterMap_map, ← List.filterMap_eq_map]
  exact List.filterMap_congr fun entry member => located entry member

/-- The values at the positions of the labels that are kept. The values before the first label
have to be as many as the number its position starts from. -/
theorem pick_kept (labels : List α) (keep : α × Nat → Bool) (before : List β) :
    ∀ values : List β, labels.length = values.length →
      ((((labels.zipIdx before.length).filter keep).map Prod.snd).filterMap fun position =>
        (before ++ values)[position]?) =
      (((labels.zipIdx before.length).zip values).filter fun column => keep column.1).map
        Prod.snd := by
  induction labels generalizing before with
  | nil => simp
  | cons label rest ih =>
      intro values widths
      cases values with
      | nil => simp at widths
      | cons value values =>
          have later := ih (before ++ [value]) values (by simpa using widths)
          simp only [List.length_append, List.length_cons, List.length_nil, Nat.zero_add,
            List.append_assoc, List.cons_append, List.nil_append] at later
          simp only [List.zipIdx_cons, List.filter_cons, List.zip_cons_cons]
          split
          · rw [List.map_cons, List.filterMap_cons, later]
            simp
          · exact later

/-- Two lists of values under the same labels are related item by item if the values under kept
labels are, and those at the positions of the other labels. -/
theorem forall₂_of_kept {related : β → γ → Prop} {labels : List α} {keep : α → Bool}
    {lefts : List β} {rights : List γ} (leftWidth : lefts.length = labels.length)
    (rightWidth : rights.length = labels.length)
    (kept : List.Forall₂ related
      (((labels.zip lefts).filter fun column => keep column.1).map Prod.snd)
      (((labels.zip rights).filter fun column => keep column.1).map Prod.snd))
    (others : ∀ (position : Nat) (label : α), labels[position]? = some label → keep label = false →
      Option.Rel related lefts[position]? rights[position]?) :
    List.Forall₂ related lefts rights := by
  induction labels generalizing lefts rights with
  | nil =>
      rw [List.eq_nil_of_length_eq_zero leftWidth, List.eq_nil_of_length_eq_zero rightWidth]
      exact .nil
  | cons label rest ih =>
      cases lefts with
      | nil => nomatch leftWidth
      | cons left lefts =>
          cases rights with
          | nil => nomatch rightWidth
          | cons right rights =>
              have later := fun kept => ih (Nat.succ.inj leftWidth) (Nat.succ.inj rightWidth) kept
                fun position other listed => others (position + 1) other listed
              rw [List.zip_cons_cons, List.zip_cons_cons, List.filter_cons,
                List.filter_cons] at kept
              cases keeps : keep label with
              | true =>
                  simp only [keeps, if_true, List.map_cons] at kept
                  cases kept with
                  | cons head tail => exact .cons head (later tail)
              | false =>
                  simp only [keeps, Bool.false_eq_true, if_false] at kept
                  have head := others 0 label rfl keeps
                  exact .cons (Option.rel_some_some.mp head) (later kept)

theorem flatMap_filter (items : List α) (keep : α → Bool) (image : α → List β) :
    (items.filter keep).flatMap image =
      items.flatMap fun item => if keep item then image item else [] := by
  induction items with
  | nil => rfl
  | cons item rest ih =>
      rw [List.filter_cons, List.flatMap_cons, ← ih]
      cases keep item with
      | true => rfl
      | false => rfl

theorem ite_filter_map (holds : Bool) (items : List α) (keep : α → Bool)
    (image : α → β) :
    (if holds then (items.filter keep).map image else []) =
      (items.filter fun item => holds && keep item).map image := by
  cases holds with
  | true => rfl
  | false => simp

/-! ## Looking up names -/

section Lookup

variable [BEq α] [LawfulBEq α] {entries : List (α × β)}

theorem lookup_eq_none_of_not_mem {name : α} (absent : name ∉ entries.map Prod.fst) :
    entries.lookup name = none := by
  rw [List.lookup_eq_none_iff]
  intro entry member
  rw [bne_iff_ne]
  exact fun same => absent (same ▸ List.mem_map_of_mem member)

/-- A pair is found by its name if no other pair has this name. -/
theorem lookup_eq_some_of_mem (distinct : (entries.map Prod.fst).Nodup) {entry : α × β}
    (member : entry ∈ entries) : entries.lookup entry.1 = some entry.2 := by
  obtain ⟨before, after, rfl⟩ := List.append_of_mem member
  refine List.lookup_eq_some_iff.mpr ⟨before, after, rfl, fun other earlier => ?_⟩
  rw [List.map_append, List.map_cons] at distinct
  have apart := (List.nodup_append.mp distinct).2.2
  rw [bne_iff_ne]
  exact (apart _ (List.mem_map_of_mem earlier) _ List.mem_cons_self).symm

end Lookup

end TypedRelations
