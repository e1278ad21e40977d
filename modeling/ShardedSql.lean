import ShardedSql.Document.Writer
import ShardedSql.Exchange.Edit
import ShardedSql.Heap.Order
import ShardedSql.Kernel
import ShardedSql.Rule.Build
import ShardedSql.Value.Document
import ShardedSql.Proofs.Grouping.Agreement
import ShardedSql.Proofs.Grouping.Aggregation
import ShardedSql.Proofs.Grouping.Pushdown
import ShardedSql.Proofs.Edit.Splice
import ShardedSql.Proofs.Editor.Leading
import ShardedSql.Proofs.Encryption.Sealed
import ShardedSql.Proofs.Encryption.Lookup
import ShardedSql.Proofs.Encryptor
import ShardedSql.Proofs.Parameters.SetClause
import ShardedSql.Proofs.Routing.Bound
import ShardedSql.Proofs.Routing.Where
import ShardedSql.Proofs.Routing.SelfJoin
import ShardedSql.Proofs.Routing.Naming
import ShardedSql.Proofs.Merging.Exhaustion
import ShardedSql.Proofs.Execution.Limit
import ShardedSql.Proofs.Execution.Progress
import ShardedSql.Proofs.Counter
import ShardedSql.Proofs.Snowflake
import ShardedSql.Proofs.SortKey.Laws
import ShardedSql.Proofs.Routing.Unmoved
import ShardedSql.Proofs.Routing.Permuted
import ShardedSql.Proofs.Merging.Labels
import ShardedSql.Proofs.Accumulator.Distinct
import ShardedSql.Proofs.Grouping.Tallies
import ShardedSql.Proofs.Merging.AggregatePlaces
import ShardedSql.Proofs.Merging.Qualifiers
import ShardedSql.Proofs.Merging.SingleRow
import ShardedSql.Proofs.Merging.Decryption
import ShardedSql.Proofs.Value.Literal
import ShardedSql.Proofs.Value.Order
import ShardedSql.Proofs.Algorithm.Volumes
import ShardedSql.Proofs.Algorithm.Narrowing
import ShardedSql.Proofs.Window.Dialects
import ShardedSql.Proofs.Range.Intersection
import ShardedSql.Proofs.Range.Emptiness
import ShardedSql.Proofs.Routing.Joined
import ShardedSql.Proofs.Routing.Groups
import ShardedSql.Proofs.Inline
import ShardedSql.Proofs.Execution.Connections
import ShardedSql.Proofs.Parameters.Rows
import ShardedSql.Proofs.Editing.Tables
import ShardedSql.Proofs.Condition.Gathered
import ShardedSql.Proofs.Algorithm.Kept
