/-
# Published names

What the library tells about itself: its version, the names that its core offers,
and the names under which capabilities, metrics, records and the statistics channel
are known.
-/

import PointPattern.Channel
import PointPattern.Error.Family
import PointPattern.Oracle.Corpus
import PointPattern.Report

namespace PointPattern.Catalogue

/-- The version of the library. -/
def version : String := "0.1.0"

/-- The names of the capabilities in order. -/
def capabilities : List String := Capability.all.map Capability.name

/-- The metrics that are answered by a tree, with their Minkowski order. -/
def treeMetrics : List (String × Float) := Oracle.treeMetrics

/-- The names that the core offers, in order. -/
def coreNames : List String :=
  (["NeighborOracle", "Backend", "Result", "ResultHierarchy", "EvaluationPipeline"] ++
    Family.all.map Family.name).mergeSort

end PointPattern.Catalogue
