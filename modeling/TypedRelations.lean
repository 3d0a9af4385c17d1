import TypedRelations.Condition.Lexeme.Prefix
import TypedRelations.Main
import TypedRelations.Relation.Renaming
import TypedRelations.Proofs.StoredValues
import TypedRelations.Proofs.NaturalJoin.Associativity
import TypedRelations.Proofs.Condition.Grammar.Completeness
import TypedRelations.Proofs.Condition.Evaluation
import TypedRelations.Proofs.OuterJoin
import TypedRelations.Proofs.Indexed.Access
import TypedRelations.Proofs.Indexed.Calls
import TypedRelations.Proofs.Rejoining
import TypedRelations.Proofs.SetOperation
import TypedRelations.Proofs.DuplicateFree
import TypedRelations.Proofs.Equality
import TypedRelations.Proofs.Equality.Congruence
import TypedRelations.Proofs.Condition.Kind
import TypedRelations.Proofs.Condition.LongestMatch
import TypedRelations.Proofs.Condition.Partition
import TypedRelations.Proofs.Condition.FieldNames
import TypedRelations.Proofs.Condition.Delimiter
import TypedRelations.Proofs.Condition.Conjunction
import TypedRelations.Proofs.Selection
import TypedRelations.Proofs.OuterJoin.Mirror
import TypedRelations.Proofs.NaturalJoin.Commutativity
import TypedRelations.Proofs.EquiJoin
import TypedRelations.Proofs.Insertion.Nulls
import TypedRelations.Proofs.Constraint.Intersection
import TypedRelations.Proofs.Domain.Intersection
import TypedRelations.Proofs.Failure
import TypedRelations.Proofs.SetOperation.Clash
import TypedRelations.Proofs.Constraint.Union
import TypedRelations.Proofs.Constraint.Difference
import TypedRelations.Proofs.NaturalJoin.NameClash
import TypedRelations.Proofs.Condition.Comparison
import TypedRelations.Proofs.Rows.Assignment
import TypedRelations.Proofs.Projection
import TypedRelations.Proofs.Product.Pairing
import TypedRelations.Proofs.Condition.Spacing
import TypedRelations.Proofs.Selection.Literal
import TypedRelations.Proofs.Renaming
import TypedRelations.Proofs.Table
import TypedRelations.Proofs.Condition.Name
