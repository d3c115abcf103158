import PointPattern.Backend
import PointPattern.Box
import PointPattern.Catalogue
import PointPattern.Channel
import PointPattern.Channel.Script
import PointPattern.Datum
import PointPattern.Design
import PointPattern.Error
import PointPattern.Error.Family
import PointPattern.Grid
import PointPattern.Hierarchy
import PointPattern.Hierarchy.Script
import PointPattern.Hierarchy.Session
import PointPattern.Hierarchy.Walk
import PointPattern.Ledger
import PointPattern.Metric
import PointPattern.Moments
import PointPattern.Moments.Registers
import PointPattern.Nearest
import PointPattern.Number.Beta
import PointPattern.Number.Binary
import PointPattern.Number.Decimal
import PointPattern.Number.Power
import PointPattern.Number.Reading
import PointPattern.Number.Sum
import PointPattern.Oracle
import PointPattern.Oracle.Corpus
import PointPattern.Oracle.Device
import PointPattern.Oracle.Double
import PointPattern.Oracle.Recipe
import PointPattern.PointSet
import PointPattern.Proofs.Accepted
import PointPattern.Proofs.Attribution
import PointPattern.Proofs.Blocks
import PointPattern.Proofs.Blockwise
import PointPattern.Proofs.Chunks
import PointPattern.Proofs.Conduct
import PointPattern.Proofs.Continuation
import PointPattern.Proofs.Correspondence
import PointPattern.Proofs.DefaultOracle
import PointPattern.Proofs.Deviations
import PointPattern.Proofs.Double.Arithmetic
import PointPattern.Proofs.Double.Fractions
import PointPattern.Proofs.Double.Interchange
import PointPattern.Proofs.Double.Means
import PointPattern.Proofs.Double.Operations
import PointPattern.Proofs.Double.Order
import PointPattern.Proofs.Double.Outcome
import PointPattern.Proofs.Double.Packing
import PointPattern.Proofs.Double.Ranking
import PointPattern.Proofs.Double.Rounding
import PointPattern.Proofs.Double.Shares
import PointPattern.Proofs.Double.Sums
import PointPattern.Proofs.Double.Trials
import PointPattern.Proofs.Double.Unpacked
import PointPattern.Proofs.Duplicates
import PointPattern.Proofs.ElementTypes
import PointPattern.Proofs.Emission
import PointPattern.Proofs.Exact
import PointPattern.Proofs.Gathering
import PointPattern.Proofs.Hierarchy.Delivery
import PointPattern.Proofs.Hierarchy.Endings
import PointPattern.Proofs.Hierarchy.Handles
import PointPattern.Proofs.Hierarchy.Moves
import PointPattern.Proofs.Hierarchy.Next
import PointPattern.Proofs.Hierarchy.Observation
import PointPattern.Proofs.Hierarchy.Owed
import PointPattern.Proofs.Hierarchy.Pipelines
import PointPattern.Proofs.Hierarchy.Registry
import PointPattern.Proofs.Hierarchy.Roster
import PointPattern.Proofs.Hierarchy.Runs
import PointPattern.Proofs.Hierarchy.Tours
import PointPattern.Proofs.Hierarchy.Track
import PointPattern.Proofs.Hierarchy.Traversal
import PointPattern.Proofs.Hierarchy.Tree
import PointPattern.Proofs.Hull
import PointPattern.Proofs.Interchange
import PointPattern.Proofs.Interrogation
import PointPattern.Proofs.Layout
import PointPattern.Proofs.LeaveOneOut
import PointPattern.Proofs.Moments
import PointPattern.Proofs.NormalForm
import PointPattern.Proofs.NumberRectangles
import PointPattern.Proofs.Overrides
import PointPattern.Proofs.Predrawn
import PointPattern.Proofs.Prolongation
import PointPattern.Proofs.Publication
import PointPattern.Proofs.Queries
import PointPattern.Proofs.Random.Distinct
import PointPattern.Proofs.Random.Range
import PointPattern.Proofs.RankGrowth
import PointPattern.Proofs.Ranking
import PointPattern.Proofs.Records
import PointPattern.Proofs.Rectangular
import PointPattern.Proofs.Refusals
import PointPattern.Proofs.Repetition
import PointPattern.Proofs.Replay
import PointPattern.Proofs.Results
import PointPattern.Proofs.RowOrder
import PointPattern.Proofs.RowSums
import PointPattern.Proofs.Rows
import PointPattern.Proofs.Samples
import PointPattern.Proofs.Scheduling
import PointPattern.Proofs.Searched
import PointPattern.Proofs.Selection
import PointPattern.Proofs.Stages
import PointPattern.Proofs.Tails
import PointPattern.Proofs.Tallies
import PointPattern.Proofs.Textbook
import PointPattern.Proofs.Timing
import PointPattern.Proofs.Timing.Trace
import PointPattern.Proofs.TreeSearch
import PointPattern.Proofs.TreeStudy
import PointPattern.Proofs.Units
import PointPattern.Proofs.Workers
import PointPattern.Random.Choice
import PointPattern.Random.Seed
import PointPattern.Random.Stream
import PointPattern.Report
import PointPattern.Scalar
import PointPattern.Significance
import PointPattern.Study
import PointPattern.Study.Request
import PointPattern.Timer
import PointPattern.Trial
import PointPattern.Trials
import PointPattern.Validation
import PointPattern.Value
import PointPattern.Value.Layout
import PointPattern.Value.Quantity
import PointPattern.Value.Reading
import PointPattern.Value.Visible
import PointPattern.Value.Written
