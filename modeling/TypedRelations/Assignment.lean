import TypedRelations.Condition.Expr

/-!
# Assignments of values to names

An assignment gives each of its names one value and remembers in which order the names first came
in. Giving a name a new value leaves it where it is.
-/

namespace TypedRelations

/-- Named values in the order in which the names were introduced. -/
structure Assignment where
  entries : List (String × Value)
  deriving Repr, Inhabited

namespace Assignment

/-- Replaces the value of a name in a list of entries, or adds the name at the end. -/
def assign (name : String) (value : Value) : List (String × Value) → List (String × Value)
  | [] => [(name, value)]
  | (other, old) :: rest =>
    if other = name then (other, value) :: rest else (other, old) :: assign name value rest

/-- Gives a name a value. -/
def insert (assignment : Assignment) (name : String) (value : Value) : Assignment :=
  ⟨assign name value assignment.entries⟩

/-- The assignment that a list of entries builds up; of several values of one name the last one
counts. -/
def ofList (entries : List (String × Value)) : Assignment :=
  entries.foldl (fun assignment (name, value) => assignment.insert name value) ⟨[]⟩

/-- The value of a name, if it has one. -/
def get? (assignment : Assignment) (name : String) : Option Value :=
  assignment.entries.lookup name

/-- The assignment as the place where a condition looks up its fields. -/
def scope (assignment : Assignment) : Scope := ⟨"map", assignment.get?⟩

/-- An insertion changes the value of its own name and of no other. -/
theorem get?_insert (assignment : Assignment) (name : String) (value : Value) (query : String) :
    (assignment.insert name value).get? query =
      if query = name then some value else assignment.get? query := by
  obtain ⟨entries⟩ := assignment
  simp only [insert, get?]
  induction entries with
  | nil => by_cases equal : query = name <;> simp [assign, List.lookup_cons, equal, beq_false_of_ne]
  | cons entry rest ih =>
    obtain ⟨other, old⟩ := entry
    by_cases same : other = name
    · subst same
      by_cases equal : query = other <;>
        simp [assign, List.lookup_cons, equal, beq_false_of_ne]
    · by_cases equal : query = other
      · subst equal
        simp [assign, same]
      · simp [assign, List.lookup_cons, same, equal, beq_false_of_ne, ih]

end Assignment

end TypedRelations
