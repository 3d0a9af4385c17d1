import TypedRelations.Demonstration.Relations

/-!
# A tour of domains

Two domains and what becomes of them when they are combined, a field that is asked about some
values, and two constraints that cannot be combined. `Demonstration.domains` is the text of it.
-/

namespace TypedRelations.Demonstration

/-- A line of text. -/
def textLine (text : String) : String := text ++ "\n"

/-- What a field says about a value. -/
def verdict (field : Field) (value : Value) : String :=
  match field.rejection? value with
  | none => s!"{value} is a valid age"
  | some rejection => s!"{value} is not a valid age: " ++ rejection.message

/-- What comes of combining two constraints that do not fit together. -/
def outcome (operation : String) (result : Except Constraint.Clash Constraint) : String :=
  match result with
  | .error clash => clash.message
  | .ok constraint => s!"unexpected {operation}: {constraint}"

/-- The text of the tour. -/
def domains : Except Failure String := do
  let first := Domain.empty
    |>.withValues [.int 1, .int 2, .int 3]
    |>.withTypes [.int]
    |>.withConstraints [.range 1 5, .positive none]
  let second := Domain.empty
    |>.withValues [.int 2, .int 3, .int 4]
    |>.withTypes [.int]
    |>.withConstraints [.range 3 6]
  let union ← expect ((first.union second).mapError .clash)
  let inter ← expect ((first.inter second).mapError .clash)
  let diff ← expect ((first.diff second).mapError .clash)
  let age : Field := ⟨"age", first⟩
  let verdicts := [.int 4, .int 7, .int (-1), .str "4"].map (verdict age)
  return String.join <| List.map textLine <|
    [s!"domain1:      {first}", s!"domain2:      {second}", s!"union:        {union}",
      s!"intersection: {inter}", s!"difference:   {diff}"] ++ verdicts ++
    [outcome "intersection" (Constraint.inter (.range 1 2) (.range 3 4)),
      outcome "union" (Constraint.union (.range 1 2) (.stringLength 3 4))]

end TypedRelations.Demonstration
