import SqlCompose.Define.ColumnChange
import SqlCompose.Dialect.Builtin
import SqlCompose.Proofs.Configuration
import SqlCompose.Proofs.Correlation
import SqlCompose.Proofs.Delta.Persisting
import SqlCompose.Proofs.Isolation
import SqlCompose.Proofs.JoinPlan
import SqlCompose.Proofs.Lexical.Columns
import SqlCompose.Proofs.Lexical.NoRaw
import SqlCompose.Proofs.Lexical.Scan
import SqlCompose.Proofs.Lexical.Select
import SqlCompose.Proofs.Lexical.Text
import SqlCompose.Proofs.Lexical.Token
import SqlCompose.Proofs.Lexical.Write
import SqlCompose.Proofs.Migration.ColumnState
import SqlCompose.Proofs.Migration.IndexHistory
import SqlCompose.Proofs.Migration.Steps
import SqlCompose.Proofs.Placement
import SqlCompose.Proofs.Repeats
import SqlCompose.Proofs.Restriction
import SqlCompose.Proofs.Truth
import SqlCompose.Query.Equality
import SqlCompose.Write.Delete
import SqlCompose.Write.Insert
import SqlCompose.Proofs.BulkInsert
import SqlCompose.Proofs.Permission.Refusal
import SqlCompose.Proofs.Permission.Select
import SqlCompose.Proofs.Permission.Request
import SqlCompose.Proofs.Interleaving
import SqlCompose.Proofs.SameRows
import SqlCompose.Proofs.Reading.Filter
import SqlCompose.Proofs.JoinOrder
import SqlCompose.Proofs.Aliases
import SqlCompose.Proofs.ProjectedNames
import SqlCompose.Proofs.ResultNames
import SqlCompose.Proofs.Clauses.Filled
import SqlCompose.Proofs.Clauses.Select
import SqlCompose.Proofs.Clauses.Write
import SqlCompose.Proofs.Meaning.Comparison
import SqlCompose.Proofs.ComposedComparison
import SqlCompose.Proofs.Meaning.JoinComparison
import SqlCompose.Proofs.Meaning.Negation
import SqlCompose.Proofs.Lexical.Words
import SqlCompose.Proofs.Reading.Clause
import SqlCompose.Proofs.Normalization
import SqlCompose.Proofs.Meaning.Text
import SqlCompose.Proofs.Meaning.Membership
import SqlCompose.Proofs.Meaning.Nulls
import SqlCompose.Proofs.Meaning.Keywords
import SqlCompose.Proofs.Reversal
import SqlCompose.Proofs.ProjectedOrder
import SqlCompose.Proofs.Lexical.ReadBack
import SqlCompose.Proofs.NumericCoercion
import SqlCompose.Proofs.DeclaredIndexes
import SqlCompose.Proofs.DeclaredColumns
import SqlCompose.Proofs.LeftToRight
import SqlCompose.Proofs.HavingClause
import SqlCompose.Proofs.EmptyDefaults
import SqlCompose.Proofs.OrderSpecification
