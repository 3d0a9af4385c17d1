import TypedRelations.Demonstration.Domains

/-!
# The command line

Prints the tour of the algebra, or with the argument `domains` the tour of domains.
-/

namespace TypedRelations.Demonstration

/-- Prints a tour, or the reason why it cannot be given. -/
def print (tour : Except Failure String) : IO UInt32 := do
  match tour with
  | .ok text =>
    IO.print text
    return 0
  | .error failure =>
    IO.eprintln ("Error: " ++ failure.message)
    return 1

end TypedRelations.Demonstration

open TypedRelations in
def main (arguments : List String) : IO UInt32 :=
  Demonstration.print
    (if arguments = ["domains"] then Demonstration.domains else Demonstration.relations)
