/-
# Families of failures

Callers catch failures by family. The families of the library form a tree below the
family of all its failures, and four of them tell more about a failure by named
attributes. Failures of the numeric foundations belong to none of them.
-/

import PointPattern.Error

namespace PointPattern

/-- A family of failures. -/
inductive Family where
  /-- All failures of the library. -/
  | library
  | validation
  | dimension
  /-- A bound with the wrong number of entries. -/
  | dimensionality
  /-- One bound without the other. -/
  | incompleteOverride
  | sampleSize
  | oracleFailure
  deriving DecidableEq, Repr

namespace Family

/-- All families. -/
def all : List Family :=
  [library, validation, dimension, dimensionality, incompleteOverride, sampleSize, oracleFailure]

/-- The name under which a family is caught. -/
def name : Family → String
  | library => "PyTendencyError"
  | validation => "ValidationError"
  | dimension => "DimensionError"
  | dimensionality => "InvalidDimensionalityError"
  | incompleteOverride => "IncompleteOverrideError"
  | sampleSize => "SampleSizeExceedsDataError"
  | oracleFailure => "OracleFailureError"

/-- The family of a name. -/
def ofName? (name : String) : Option Family := all.find? fun family => family.name = name

/-- A family and those that contain it, from the inside outwards. -/
def lineage : Family → List Family
  | library => [library]
  | validation => [validation, library]
  | dimension => [dimension, validation, library]
  | dimensionality => [dimensionality, dimension, validation, library]
  | incompleteOverride => [incompleteOverride, validation, library]
  | sampleSize => [sampleSize, validation, library]
  | oracleFailure => [oracleFailure, library]

/-- The names of a family and of all that contain it. -/
def lineageNames (family : Family) : List String :=
  family.lineage.map name ++ ["Exception"]

/-- The attributes by which failures of a family explain themselves. -/
def attributes : Family → List String
  | dimensionality => ["parameter", "expected", "actual"]
  | incompleteOverride => ["provided", "missing"]
  | sampleSize => ["sample_size", "n_observations"]
  | oracleFailure => ["rank", "query_index"]
  | _ => []

end Family

/-- The family of a failure, unless it comes from the numeric foundations. -/
def Error.family? : Error → Option Family
  | .invalid _ => some .validation
  | .dimension _ => some .dimension
  | .boundLength _ _ _ => some .dimensionality
  | .incompleteBounds _ _ => some .incompleteOverride
  | .sampleExceedsData _ _ => some .sampleSize
  | .oracle _ _ _ => some .oracleFailure
  | .raised kind _ => Family.ofName? kind
  | _ => none

/-- The attributes of a failure. -/
def Error.attributes (e : Error) : List (String × Value) :=
  let optional (i : Option Int) : Value := (i.map Value.int).getD .null
  let values : List Value := match e with
    | .boundLength parameter expected actual => [.text parameter, .int expected, .int actual]
    | .incompleteBounds provided missing => [.text provided, .text missing]
    | .sampleExceedsData size observations => [.int size, .int observations]
    | .oracle _ rank position => [optional rank, optional position]
    | _ => []
  let names := (e.family?.map Family.attributes).getD []
  names.zipIdx.map fun (name, i) => (name, values.getD i .null)

/-- A failure that a caller makes: its text and its attributes. -/
structure Failure where
  family : Family
  text : String
  attributes : List (String × Value)

/-- The failure of a family with positional and named arguments. The first argument
is the text, the others are attributes in their order; missing ones are absent
values. -/
def Failure.ofArguments (family : Family) (arguments : List Value)
    (named : List (String × Value)) : Failure where
  family
  text :=
    if family.attributes.isEmpty then
      match arguments with
      | [] => ""
      | [argument] => argument.plain
      | arguments => (Value.tuple arguments).written
    else (arguments.head?.map Value.plain).getD ""
  attributes := family.attributes.zipIdx.map fun (name, i) =>
    (name, ((Value.field? name named).or arguments[i + 1]?).getD .null)

end PointPattern
