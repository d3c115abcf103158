/-
# Causes of failure

Every failure is a cause with the data that explains it; its wording is a
function of the cause. Causes are grouped by what was being done: reading a
number, laying out elements in a grid, drawing at random, checking the settings
of a run, measuring distances, choosing a device, timing. A failure of a neighbor
oracle keeps the rank and the position of the query, and the failure it arose
from, if any.
-/

import PointPattern.Value.Written
import PointPattern.Number.Sum

namespace PointPattern

open Number

/-- Failures in reading or computing single numbers. -/
inductive NumberError where
  /-- A value of this kind is not a real number. -/
  | notReal (typeName : String)
  /-- A text does not denote a real number. -/
  | notNumeral (text : String)
  /-- An integer lies beyond the range of doubles. -/
  | tooLarge
  /-- A value of this kind is not an integer. -/
  | notInteger (typeName : String)
  /-- A text does not denote an integer. -/
  | notIntegerText (text : String)
  | integerOfNaN
  | integerOfInfinity
  /-- The same of numbers in extended precision. -/
  | integerOfWideNaN
  | integerOfWideInfinity
  /-- A value of this kind cannot be compared with a real number. -/
  | notComparable (typeName : String)
  /-- The square root of a negative number. -/
  | negativeRoot
  | sum (failure : SumFailure)

def NumberError.message : NumberError → String
  | notReal typeName =>
    "float() argument must be a string or a real number, not '" ++ typeName ++ "'"
  | notNumeral text => "could not convert string to float: " ++ quoted text
  | tooLarge => "int too large to convert to float"
  | notInteger typeName =>
    "int() argument must be a string, a bytes-like object or a real number, not '" ++
      typeName ++ "'"
  | notIntegerText text => "invalid literal for int() with base 10: " ++ quoted text
  | integerOfNaN => "cannot convert float NaN to integer"
  | integerOfInfinity => "cannot convert float infinity to integer"
  | integerOfWideNaN => "cannot convert longdouble NaN to integer"
  | integerOfWideInfinity => "cannot convert longdouble infinity to integer"
  | notComparable typeName =>
    "'>' not supported between instances of '" ++ typeName ++ "' and 'float'"
  | negativeRoot => "math domain error"
  | sum .overflow => "intermediate overflow in fsum"
  | sum .oppositeInfinities => "-inf + inf in fsum"

/-- Failures in laying out elements in a grid or in combining grids. -/
inductive GridError where
  /-- Sequences of unequal lengths; the shape is the part on which all agree. -/
  | ragged (shape : List Nat)
  /-- Sequences are nested too deeply. -/
  | tooDeep (limit : Nat)
  /-- Grids whose shapes do not fit each other. -/
  | mismatch (left right : List Nat)
  /-- The least element of no rows at all. -/
  | noRows
  /-- A row number beyond the number of rows. -/
  | rowOutOfRange (index : Int) (size : Nat)
  /-- A negative extent. -/
  | negativeExtent
  /-- A shape without the axis that is asked for. -/
  | noSuchAxis
  /-- A number of elements that does not fill the shape. -/
  | wrongSize (size : Nat) (shape : List Nat)

def GridError.message : GridError → String
  | ragged shape =>
    "setting an array element with a sequence. The requested array has an inhomogeneous " ++
      "shape after " ++ toString shape.length ++ " dimensions. The detected shape was " ++
      writeShape shape ++ " + inhomogeneous part."
  | tooDeep limit =>
    "setting an array element with a sequence. The requested array would exceed the maximum " ++
      "number of dimension of " ++ toString limit ++ "."
  | mismatch left right =>
    "operands could not be broadcast together with shapes " ++ tight left ++ " " ++
      tight right ++ " "
  | noRows => "zero-size array to reduction operation minimum which has no identity"
  | rowOutOfRange index size =>
    "index " ++ toString index ++ " is out of bounds for axis 0 with size " ++ toString size
  | negativeExtent => "negative dimensions are not allowed"
  | noSuchAxis => "tuple index out of range"
  | wrongSize size shape =>
    "cannot reshape array of size " ++ toString size ++ " into shape " ++ tight shape
where
  /-- A shape without blanks between its extents. -/
  tight : List Nat → String
    | [n] => "(" ++ toString n ++ ",)"
    | shape => "(" ++ ",".intercalate (shape.map toString) ++ ")"

/-- Failures in drawing at random. -/
inductive RandomError where
  /-- More distinct rows than there are. -/
  | sampleTooLarge
  | negativeEntropy
  /-- A value that cannot seed a random stream. -/
  | notEntropy (given : Value)
  /-- A sequence that cannot seed a random stream because of a real number in it. -/
  | entropyNotIntegral

def RandomError.message : RandomError → String
  | sampleTooLarge => "Cannot take a larger sample than population when replace is False"
  | negativeEntropy => "expected non-negative integer"
  | notEntropy given =>
    "SeedSequence expects int or sequence of ints for entropy not " ++ given.plain
  | entropyNotIntegral => "seed must be integer"

/-- Why settings are refused. The parameter is the name under which the value
was given. -/
inductive InvalidInput where
  | notRectangular (parameter : String) (reason : GridError)
  /-- The elements have no common numeric type. -/
  | mixedTypes (parameter : String)
  | notNumeric (parameter : String) (type : ElementType)
  | complexNumbers (parameter : String) (type : ElementType)
  | notFinite (parameter : String) (nans infinities : Nat)
  | tooFewSamples (parameter : String) (required : Int) (actual : Nat)
  | notAnInteger (parameter : String) (given : Value)
  | belowMinimum (parameter : String) (minimum given : Int)
  | jobsNotAnInteger (given : Value)
  | jobsOutOfRange (given : Int)
  | seedNotAnInteger (given : Value)
  | negativeSeed (given : Int)
  /-- A point of evaluation that is not a number. -/
  | evaluationPointNaN
  | shapeParameter (parameter written : String)
  /-- Settings given beside a design that already fixes them. -/
  | fixedByDesign (parameters : List String)
  | unknownBackend (given : Value)
  | metricNotOnDevice (given : Value)
  /-- The node under which a solution is to be published is unknown. -/
  | parentNotInHierarchy
  | childPresent
  /-- A node that is not part of the hierarchy, under the name of its role. -/
  | nodeAbsent (role : String)
  | unknownSubscription (given : Value)

/-- The wording of a refusal. Values are written out, however many digits an integer
has and however deeply lists are nested: the limits that a machine may set to that
are left out. -/
def InvalidInput.message : InvalidInput → String
  | notRectangular parameter reason =>
    parameter ++ ": cannot convert to array: " ++ reason.message
  | mixedTypes parameter =>
    parameter ++ ": converted to object dtype, indicating mixed types or non-numeric data"
  | notNumeric parameter type =>
    parameter ++ ": non-numeric dtype " ++ type.name ++ ", expected numeric data"
  | complexNumbers parameter type =>
    parameter ++ ": complex dtype " ++ type.name ++ " is not supported"
  | notFinite parameter nans infinities =>
    parameter ++ ": contains non-finite values (" ++ toString nans ++ " NaN, " ++
      toString infinities ++ " Inf)"
  | tooFewSamples parameter required actual =>
    parameter ++ ": requires at least " ++ toString required ++ " samples, got " ++
      toString actual
  | notAnInteger parameter given =>
    parameter ++ ": expected an integer, got " ++ given.typeName ++ " " ++ given.written
  | belowMinimum parameter minimum given =>
    parameter ++ ": must be >= " ++ toString minimum ++ ", got " ++ toString given
  | jobsNotAnInteger given => "n_jobs: expected an integer, got " ++ given.written
  | jobsOutOfRange given => "n_jobs: must be >= 1 or -1, got " ++ toString given
  | seedNotAnInteger given => "seed: expected an integer or None, got " ++ given.written
  | negativeSeed given => "seed: must be non-negative, got " ++ toString given
  | evaluationPointNaN => "x: must not be NaN"
  | shapeParameter parameter written =>
    parameter ++ ": must be positive and finite, got " ++ written
  | fixedByDesign parameters =>
    commaSeparated parameters ++
      ": already fixed by the HopkinsDesign; build a new design with " ++
      "HopkinsDesign.for_hopkins instead"
  | unknownBackend given =>
    "Unknown backend: " ++ given.written ++ ". Use 'cpu', 'gpu' or 'auto'."
  | metricNotOnDevice given =>
    "backend='gpu' supports only the euclidean metric, got " ++ given.written
  | parentNotInHierarchy => "parent: node is not part of the given hierarchy"
  | childPresent => "child: node is already part of this hierarchy"
  | nodeAbsent role => role ++ ": node is not part of this hierarchy"
  | unknownSubscription given => "handle: unknown subscription " ++ given.written

/-- Data whose number of axes or coordinates is wrong. -/
inductive WrongDimension where
  | axes (parameter : String) (expected : Int) (shape : List Nat)
  | noCoordinates (parameter : String) (shape : List Nat)

def WrongDimension.message : WrongDimension → String
  | axes parameter expected shape =>
    parameter ++ ": expected " ++ toString expected ++ "D array, got " ++
      toString shape.length ++ "D with shape " ++ writeShape shape
  | noCoordinates parameter shape =>
    parameter ++ ": points have zero dimensions, shape " ++ writeShape shape

/-- Failures of the distance computation inside an oracle. -/
inductive MetricError where
  | unknownName (name : String)
  | negativeWeights
  /-- A Minkowski order below one, which is not a norm. -/
  | orderBelowOne
  | orderNotPositive
  | coordinateNotFinite
  /-- A tree has no place for a point that is not finite. -/
  | corpusNotFinite
  | leafSize
  /-- Blocks of no queries at all. -/
  | emptyBlocks
  /-- A metric that is neither a name nor a function. -/
  | notAMetric
  /-- As many weights or variances as there are coordinates are needed. -/
  | wrongLength (parameter : String)
  /-- A setting that the metric does not have. -/
  | unknownSetting (parameter : String)
  /-- Settings that have no names. -/
  | settingsNotNamed (given : Value)

def MetricError.message : MetricError → String
  | unknownName name => "Unknown Distance Metric: " ++ name
  | negativeWeights => "Input weights should be all non-negative"
  | orderBelowOne => "Only p-norms with 1<=p<=infinity permitted"
  | orderNotPositive => "p must be greater than 0"
  | coordinateNotFinite => "'x' must be finite, check for nan or inf values"
  | corpusNotFinite => "data must be finite, check for nan or inf values"
  | leafSize => "leafsize must be at least 1"
  | emptyBlocks => "range() arg 3 must not be zero"
  | notAMetric => "2nd argument metric must be a string identifier or a function."
  | wrongLength parameter => parameter ++ ": expected one entry per coordinate"
  | unknownSetting parameter => "cdist() got an unexpected keyword argument " ++ quoted parameter
  | settingsNotNamed given => "argument after ** must be a mapping, not " ++ given.typeName

/-- Failures in choosing the device on which distances are computed. -/
inductive DeviceError where
  | unknown (given : String)
  | noAccelerator
  | onlyMetal
  | noMetal
  /-- The tensor library is not installed. -/
  | noTensors

def DeviceError.message : DeviceError → String
  | unknown given =>
    "Unknown device: " ++ quoted given ++ ". Use 'auto', 'cpu', 'cuda' or 'mps'."
  | noAccelerator =>
    "GPU requested but no GPU available. Ensure PyTorch is installed with CUDA/MPS support."
  | onlyMetal => "CUDA requested but only MPS is available"
  | noMetal => "MPS requested but it is not available"
  | noTensors => "No module named 'torch'"

/-- Uses of a timer in the wrong order. -/
inductive TimerError where
  | stopBeforeStart
  | resultBeforeStop

def TimerError.message : TimerError → String
  | stopBeforeStart => "Timer.stop() called before start()"
  | resultBeforeStop => "Timer.result() called before stop()"

mutual

/-- Why a neighbor query failed. -/
inductive OracleReason where
  /-- There are too few points for the rank that the real sample needs. -/
  | tooFewPoints (k n : Nat)
  | rankBelowOne (rank : Int)
  | rankBeyondCorpus (rank : Int) (size : Nat)
  | queryShape (shape : List Nat) (dim : Nat)
  /-- The oracle failed on a block of queries. -/
  | batch (size : Nat) (rank : Int) (origin : Error)
  /-- The oracle failed on the query at this position. -/
  | query (position : Nat) (rank : Int) (origin : Error)
  | answerShape (shape : List Nat) (size : Nat)
  /-- A distance, in its written form, that is negative or not finite. -/
  | invalidDistance (written : String) (position : Nat) (rank : Int)
  /-- A failure that an oracle reports in its own words. -/
  | reported (text : String)

/-- A failure of any operation of the library. -/
inductive Error where
  | number (cause : NumberError)
  | grid (cause : GridError)
  | random (cause : RandomError)
  | invalid (cause : InvalidInput)
  | dimension (cause : WrongDimension)
  /-- A bound whose number of entries is neither one nor that of the axes. -/
  | boundLength (parameter : String) (expected actual : Nat)
  | incompleteBounds (provided missing : String)
  | sampleExceedsData (sampleSize : Int) (observations : Nat)
  | oracle (reason : OracleReason) (rank : Option Int) (position : Option Int)
  | metric (cause : MetricError)
  | device (cause : DeviceError)
  | timer (cause : TimerError)
  /-- An operation that an object of this class does not have. -/
  | noSuchOperation (owner operation : String)
  /-- A field of a finished result cannot be changed. -/
  | frozenField (name : String)
  /-- A failure of this kind, raised by code of the caller with this text. It stands
  for failures that a handler of any failure catches and that have a text; those that
  end the program and those whose text cannot be formed are left out. -/
  | raised (kind text : String)

end

mutual

/-- The wording of an oracle failure. Ranks are written out, however many digits they
have. -/
def OracleReason.message : OracleReason → String
  | .tooFewPoints k n =>
    "k=" ++ toString k ++ " needs at least " ++ toString (k + 1) ++ " data points, got " ++
      toString n
  | .rankBelowOne rank => "rank must be >= 1, got " ++ toString rank
  | .rankBeyondCorpus rank size =>
    "rank " ++ toString rank ++ " exceeds corpus size " ++ toString size
  | .queryShape shape dim =>
    "query has shape " ++ writeShape shape ++ ", expected (m, " ++ toString dim ++ ")"
  | .batch size rank origin =>
    "Neighbor oracle failed on a batch of " ++ toString size ++ " queries at rank " ++
      toString rank ++ ": " ++ origin.message
  | .query position rank origin =>
    "Neighbor oracle failed on query " ++ toString position ++ " at rank " ++ toString rank ++
      ": " ++ origin.message
  | .answerShape shape size =>
    "Neighbor oracle returned shape " ++ writeShape shape ++ " for " ++ toString size ++
      " queries"
  | .invalidDistance written position rank =>
    "Neighbor oracle returned invalid distance " ++ written ++ " for query " ++
      toString position ++ " at rank " ++ toString rank
  | .reported text => text

/-- The wording of a failure. -/
def Error.message : Error → String
  | .number cause => cause.message
  | .grid cause => cause.message
  | .random cause => cause.message
  | .invalid cause => cause.message
  | .dimension cause => cause.message
  | .boundLength parameter expected actual =>
    "Invalid " ++ parameter ++ " specified: expected " ++ toString expected ++ " got " ++
      parameter ++ " dimensionality: " ++ toString actual
  | .incompleteBounds provided missing =>
    provided ++ " given without " ++ missing ++
      ": both sampling bounds must be supplied together"
  | .sampleExceedsData sampleSize observations =>
    "sample_size (" ++ toString sampleSize ++ ") exceeds the number of data points (" ++
      toString observations ++ ")"
  | .oracle reason _ _ => reason.message
  | .metric cause => cause.message
  | .device cause => cause.message
  | .timer cause => cause.message
  | .noSuchOperation owner operation =>
    "'" ++ owner ++ "' object has no attribute '" ++ operation ++ "'"
  | .frozenField name => "cannot assign to field " ++ quoted name
  | .raised kind text => if kind = "KeyError" then quoted text else text

end

/-- The failure from which another one arose. -/
def Error.origin? : Error → Option Error
  | .invalid (.notRectangular _ reason) => some (.grid reason)
  | .oracle (.batch _ _ origin) _ _ => some origin
  | .oracle (.query _ _ origin) _ _ => some origin
  | _ => none

end PointPattern
