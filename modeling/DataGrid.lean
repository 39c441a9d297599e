import DataGrid.Accessor.Basic
import DataGrid.Accessor.Resolve
import DataGrid.Accessor.Resolver
import DataGrid.Backend
import DataGrid.Binary64.Basic
import DataGrid.Binary64.Decimal
import DataGrid.Binary64.Round
import DataGrid.Bucket
import DataGrid.Comparison
import DataGrid.Conversion
import DataGrid.Criteria
import DataGrid.DateTime.Basic
import DataGrid.DateTime.Parser
import DataGrid.DateTime.Text
import DataGrid.Error
import DataGrid.Filter.Clause
import DataGrid.Filter.Compile
import DataGrid.Filter.Custom
import DataGrid.Group
import DataGrid.Grouping
import DataGrid.Integer
import DataGrid.Json.Basic
import DataGrid.Json.Parser
import DataGrid.Json.Printer
import DataGrid.Loader
import DataGrid.Loader.Answer
import DataGrid.Loader.Request
import DataGrid.Loader.Work
import DataGrid.Members
import DataGrid.Predicate
import DataGrid.Projection.Basic
import DataGrid.Projection.Regroup
import DataGrid.Proofs.Accessor.Ends
import DataGrid.Proofs.Accessor.Fusing
import DataGrid.Proofs.Accessor.Guarding
import DataGrid.Proofs.Accessor.Reading
import DataGrid.Proofs.Accessor.Values
import DataGrid.Proofs.Binary64.Integral
import DataGrid.Proofs.Binary64.Nearest
import DataGrid.Proofs.Binary64.Rounding
import DataGrid.Proofs.Bucket
import DataGrid.Proofs.Bucket.Classes
import DataGrid.Proofs.Computes
import DataGrid.Proofs.Conforming
import DataGrid.Proofs.Conversion
import DataGrid.Proofs.Conversion.Rounded
import DataGrid.Proofs.Criteria
import DataGrid.Proofs.Criteria.Grammar
import DataGrid.Proofs.DateTime
import DataGrid.Proofs.Filter.Alike
import DataGrid.Proofs.Filter.Folding
import DataGrid.Proofs.Filter.Guarding
import DataGrid.Proofs.Filter.Integers
import DataGrid.Proofs.Filter.Literal
import DataGrid.Proofs.Filter.Meaning
import DataGrid.Proofs.Filter.Narrowing
import DataGrid.Proofs.Filter.Operators
import DataGrid.Proofs.Filter.Recompiling
import DataGrid.Proofs.Filter.Snapshot
import DataGrid.Proofs.Group.Levels
import DataGrid.Proofs.Group.Summaries
import DataGrid.Proofs.Grouping.Leaves
import DataGrid.Proofs.Grouping.Levels
import DataGrid.Proofs.Grouping.Outline
import DataGrid.Proofs.Grouping.Partition
import DataGrid.Proofs.Grouping.Places
import DataGrid.Proofs.Grouping.Reordering
import DataGrid.Proofs.Grouping.Siblings
import DataGrid.Proofs.Integer
import DataGrid.Proofs.Integer.Alphabetical
import DataGrid.Proofs.Leads
import DataGrid.Proofs.Loader.Agreement
import DataGrid.Proofs.Loader.DrillDown
import DataGrid.Proofs.Loader.Form
import DataGrid.Proofs.Loader.GroupsHere
import DataGrid.Proofs.Loader.GroupsOfBackend
import DataGrid.Proofs.Loader.LeafCounts
import DataGrid.Proofs.Loader.Leaves
import DataGrid.Proofs.Loader.Outcomes
import DataGrid.Proofs.Loader.Paging
import DataGrid.Proofs.Loader.Protocol
import DataGrid.Proofs.Loader.RemoteKinds
import DataGrid.Proofs.Loader.SortedGroups
import DataGrid.Proofs.Merging
import DataGrid.Proofs.Operations
import DataGrid.Proofs.Outcome
import DataGrid.Proofs.Planning
import DataGrid.Proofs.Planning.Layout
import DataGrid.Proofs.Planning.Plain
import DataGrid.Proofs.Regrouping.Entries
import DataGrid.Proofs.Regrouping.Reading
import DataGrid.Proofs.Regrouping.RollingUp
import DataGrid.Proofs.Resolving
import DataGrid.Proofs.Respects
import DataGrid.Proofs.Rollup
import DataGrid.Proofs.Rollup.Failing
import DataGrid.Proofs.Rollup.Folding
import DataGrid.Proofs.Rollup.Kinds
import DataGrid.Proofs.Rollup.Reordering
import DataGrid.Proofs.Sorting
import DataGrid.Proofs.Sorting.Failing
import DataGrid.Proofs.Sorting.Levels
import DataGrid.Proofs.Sorting.Stable
import DataGrid.Proofs.Span
import DataGrid.Proofs.Span.Grammar
import DataGrid.Proofs.Span.Scale
import DataGrid.Proofs.Span.Sharing
import DataGrid.Proofs.Store
import DataGrid.Proofs.Store.Aggregates
import DataGrid.Proofs.Store.Cells
import DataGrid.Proofs.Store.Extremes
import DataGrid.Proofs.Store.Flat
import DataGrid.Proofs.Store.Keys
import DataGrid.Proofs.Store.Nesting
import DataGrid.Proofs.Store.Projecting
import DataGrid.Proofs.Store.RowCounts
import DataGrid.Proofs.Store.Standing
import DataGrid.Proofs.Store.Tables
import DataGrid.Proofs.SumZeros
import DataGrid.Proofs.SumZeros.Alike
import DataGrid.Proofs.SumZeros.Filling
import DataGrid.Proofs.Summary
import DataGrid.Proofs.Tally
import DataGrid.Proofs.Text.LowerCase
import DataGrid.Proofs.TypedSum
import DataGrid.Proofs.Uuid
import DataGrid.Proofs.Value.Blurring
import DataGrid.Proofs.Value.Encoding
import DataGrid.Proofs.Value.GroupKeys
import DataGrid.Proofs.Value.Json
import DataGrid.Proofs.Value.Ordering
import DataGrid.Proofs.Value.Sameness
import DataGrid.Requesting
import DataGrid.Rollup
import DataGrid.RunningSum
import DataGrid.Settings
import DataGrid.Shape
import DataGrid.Sorting
import DataGrid.Span.Basic
import DataGrid.Span.Text
import DataGrid.Store
import DataGrid.SumZeros
import DataGrid.Summary
import DataGrid.Text.Blank
import DataGrid.Text.LowerCase
import DataGrid.Text.LowerCase.Table
import DataGrid.Text.Split
import DataGrid.Uuid
import DataGrid.Value.Basic
import DataGrid.Value.Json
import DataGrid.Value.Order
import DataGrid.Value.Text
import DataGrid.Wire
