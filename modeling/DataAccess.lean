import DataAccess.Backend
import DataAccess.Backend.Restricted
import DataAccess.Calendar.Date
import DataAccess.Calendar.Field
import DataAccess.Calendar.Time
import DataAccess.Calendar.Timestamp
import DataAccess.Conformance
import DataAccess.Conformance.Changing
import DataAccess.Conformance.Counting
import DataAccess.Conformance.Filtering
import DataAccess.Conformance.Items
import DataAccess.Conformance.Joining
import DataAccess.Conformance.Recording
import DataAccess.Criteria
import DataAccess.Criteria.Connective
import DataAccess.Criteria.Sorting
import DataAccess.Criteria.Window
import DataAccess.Descriptor
import DataAccess.Effect
import DataAccess.Entity
import DataAccess.Evaluation.Clause
import DataAccess.Evaluation.Filter
import DataAccess.Evaluation.Like
import DataAccess.Evaluation.Select
import DataAccess.Evaluation.StableSort
import DataAccess.Failure
import DataAccess.Join.Criteria
import DataAccess.Join.Execution
import DataAccess.Join.Expression
import DataAccess.Join.Kind
import DataAccess.Join.Plan
import DataAccess.Keyed
import DataAccess.Mapping
import DataAccess.Memory
import DataAccess.Memory.Store
import DataAccess.Numeric.Binary64
import DataAccess.Numeric.Binary64.Rounding
import DataAccess.Numeric.Binary64.Shortest
import DataAccess.Numeric.Binary64.Significant
import DataAccess.Numeric.Binary64.Text
import DataAccess.Numeric.Decimal
import DataAccess.Numeric.Decimal.Binary
import DataAccess.Numeric.Decimal.Text
import DataAccess.Numeric.Integer
import DataAccess.Pool
import DataAccess.Pool.Desk
import DataAccess.Proofs.Alike
import DataAccess.Proofs.Calendar.Bytewise
import DataAccess.Proofs.Calendar.Written
import DataAccess.Proofs.Columns
import DataAccess.Proofs.Conformance.Items
import DataAccess.Proofs.Criteria.Fitted
import DataAccess.Proofs.Criteria.Groups
import DataAccess.Proofs.Criteria.Inverse
import DataAccess.Proofs.Criteria.Like
import DataAccess.Proofs.Criteria.Portable
import DataAccess.Proofs.Criteria.Select
import DataAccess.Proofs.Criteria.Sorted
import DataAccess.Proofs.Criteria.Truth
import DataAccess.Proofs.Criteria.Within
import DataAccess.Proofs.Effect
import DataAccess.Proofs.Entity
import DataAccess.Proofs.Identity
import DataAccess.Proofs.Join.Answer
import DataAccess.Proofs.Join.Counted
import DataAccess.Proofs.Join.Decoded
import DataAccess.Proofs.Join.Filtered
import DataAccess.Proofs.Join.Flip
import DataAccess.Proofs.Join.Here
import DataAccess.Proofs.Join.Index
import DataAccess.Proofs.Join.Mirrored
import DataAccess.Proofs.Join.Mistakes
import DataAccess.Proofs.Join.Places
import DataAccess.Proofs.Join.Predicates
import DataAccess.Proofs.Join.Presorted
import DataAccess.Proofs.Join.Relational
import DataAccess.Proofs.Join.Written
import DataAccess.Proofs.Keyed
import DataAccess.Proofs.Memory.Actions
import DataAccess.Proofs.Memory.Answers
import DataAccess.Proofs.Memory.Delivered
import DataAccess.Proofs.Memory.Evaluated
import DataAccess.Proofs.Memory.Failing
import DataAccess.Proofs.Memory.Fetch
import DataAccess.Proofs.Memory.Isolated
import DataAccess.Proofs.Memory.Keys
import DataAccess.Proofs.Memory.Mistakes
import DataAccess.Proofs.Memory.Performed
import DataAccess.Proofs.Memory.Reachable
import DataAccess.Proofs.Memory.Refused
import DataAccess.Proofs.Memory.Rows
import DataAccess.Proofs.Memory.Stored
import DataAccess.Proofs.Memory.Touched
import DataAccess.Proofs.Numeric.Close
import DataAccess.Proofs.Numeric.DecimalError
import DataAccess.Proofs.Numeric.DecimalText
import DataAccess.Proofs.Numeric.DoubleError
import DataAccess.Proofs.Numeric.FromDouble
import DataAccess.Proofs.Numeric.Nearest
import DataAccess.Proofs.Numeric.Sides
import DataAccess.Proofs.Numeric.ThroughDouble
import DataAccess.Proofs.Numeric.ToDouble
import DataAccess.Proofs.Outcome
import DataAccess.Proofs.Pool
import DataAccess.Proofs.Pool.Fresh
import DataAccess.Proofs.Pool.Idle
import DataAccess.Proofs.Pool.Ledger
import DataAccess.Proofs.Projection
import DataAccess.Proofs.Regardless
import DataAccess.Proofs.Sorting
import DataAccess.Proofs.Sql.Contained
import DataAccess.Proofs.Sql.Filters
import DataAccess.Proofs.Sql.JoinBody
import DataAccess.Proofs.Sql.JoinParts
import DataAccess.Proofs.Sql.Laid
import DataAccess.Proofs.Sql.Meaning
import DataAccess.Proofs.Sql.Qualified
import DataAccess.Proofs.Sql.Reading
import DataAccess.Proofs.Sql.Separated
import DataAccess.Proofs.Sql.Spelling
import DataAccess.Proofs.Sql.Statements
import DataAccess.Proofs.Sql.Tokens
import DataAccess.Proofs.Sql.Unambiguous
import DataAccess.Proofs.Sql.Verdict
import DataAccess.Proofs.Sql.Written
import DataAccess.Proofs.Sqlite.Activity
import DataAccess.Proofs.Sqlite.Edits
import DataAccess.Proofs.Sqlite.Fleet
import DataAccess.Proofs.Sqlite.Grouped
import DataAccess.Proofs.Sqlite.Kept
import DataAccess.Proofs.Sqlite.Links
import DataAccess.Proofs.Sqlite.Reports
import DataAccess.Proofs.Sqlite.Requests
import DataAccess.Proofs.Sqlite.Sessions
import DataAccess.Proofs.Sqlite.Transactions
import DataAccess.Proofs.Sqlite.Windows
import DataAccess.Proofs.Streams
import DataAccess.Proofs.Text.Abridged
import DataAccess.Proofs.Text.Digits
import DataAccess.Proofs.Text.Form
import DataAccess.Proofs.Text.Order
import DataAccess.Proofs.Text.Utf8
import DataAccess.Proofs.Text.UuidText
import DataAccess.Proofs.Undecodable
import DataAccess.Proofs.Value.Coerced
import DataAccess.Proofs.Value.Compare
import DataAccess.Proofs.Value.Converted
import DataAccess.Proofs.Value.Exact
import DataAccess.Proofs.Value.Fitted
import DataAccess.Proofs.Value.Fractions
import DataAccess.Proofs.Value.Integers
import DataAccess.Proofs.Value.JoinKey
import DataAccess.Proofs.Value.Met
import DataAccess.Proofs.Value.Numbers
import DataAccess.Proofs.Value.Preorder
import DataAccess.Proofs.Value.Ranks
import DataAccess.Proofs.Value.Spelled
import DataAccess.Query
import DataAccess.Query.Compiled
import DataAccess.Result.Affected
import DataAccess.Result.Labeled
import DataAccess.Scripted
import DataAccess.Sql.Dialect
import DataAccess.Sql.Filter
import DataAccess.Sql.Join
import DataAccess.Sql.Piece
import DataAccess.Sql.Statement
import DataAccess.Sqlite
import DataAccess.Sqlite.Affinity
import DataAccess.Sqlite.Catalog
import DataAccess.Sqlite.Cell
import DataAccess.Sqlite.Condition
import DataAccess.Sqlite.Connection
import DataAccess.Sqlite.Cost
import DataAccess.Sqlite.Database
import DataAccess.Sqlite.Engine
import DataAccess.Sqlite.Fleet
import DataAccess.Sqlite.Joined
import DataAccess.Sqlite.Lock
import DataAccess.Sqlite.Naming
import DataAccess.Sqlite.Plan
import DataAccess.Sqlite.Refusal
import DataAccess.Sqlite.Scan
import DataAccess.Sqlite.Search
import DataAccess.Sqlite.Site
import DataAccess.Sqlite.Table
import DataAccess.Storages
import DataAccess.Text.Abridged
import DataAccess.Text.Form
import DataAccess.Text.Hex
import DataAccess.Text.Quoted
import DataAccess.Text.Utf8
import DataAccess.Text.Visible
import DataAccess.Uuid
import DataAccess.Value
import DataAccess.Value.Coercion
import DataAccess.Value.Native
import DataAccess.Value.Order
import DataAccess.Value.Text
