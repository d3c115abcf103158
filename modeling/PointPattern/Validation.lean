/-
# Checks of settings

Each check states one fact about a value and refuses everything else with a cause
that names the parameter. Data pass through all of them and come out as a point
set of doubles. Their elements are checked for being finite in the type in which
they are given, and are turned into doubles after that.
-/

import PointPattern.PointSet
import PointPattern.Scalar
import PointPattern.Value.Layout

namespace PointPattern

/-- A real number as it is given. Every number of a narrower type is a double. -/
inductive RealCell where
  | double (x : Float)
  | extended (x : Number.Binary)

namespace RealCell

/-- The double that a real number becomes. -/
def toFloat : RealCell → Float
  | double x => x
  | extended x => x.nearestDouble

instance : HasInfinities RealCell where
  isFinite
    | double x => x.isFinite
    | extended x => x.isFinite
  isNaN
    | double x => x.isNaN
    | extended x => x.isNaN
  isInf
    | double x => x.isInf
    | extended x => x.isInf

end RealCell

/-- An element of a table as a real number of the type of the table. -/
def Value.toRealCell (type : ElementType) (v : Value) : RealCell :=
  match type, v.extended? with
  | .real 128, some x => .extended x
  | _, _ => .double v.cellToFloat

/-- Real numbers in a grid as they are given, with their type. -/
structure RealTable where
  type : ElementType
  given : Grid RealCell

/-- The real numbers of a table as doubles. -/
def RealTable.grid (t : RealTable) : Grid Float := t.given.map RealCell.toFloat

/-- A value as a grid of real numbers. Integers become doubles; booleans, text,
complex numbers and elements without a common type are refused. -/
def checkArray (v : Value) (parameter : String) : Except Error RealTable := do
  let table ← v.toTable.mapError fun reason => .invalid (.notRectangular parameter reason)
  if table.type = .object then throw (.invalid (.mixedTypes parameter))
  if !table.type.isNumeric then throw (.invalid (.notNumeric parameter table.type))
  let given : Grid RealCell := ⟨table.shape, table.cells.map (Value.toRealCell table.type)⟩
  match table.type with
  | .complex _ => throw (.invalid (.complexNumbers parameter table.type))
  | .real _ => return ⟨table.type, given⟩
  | _ => return ⟨.double, given⟩

/-- All elements are finite. -/
def checkFinite {K : Type} [HasInfinities K] (g : Grid K) (parameter : String) :
    Except Error Unit :=
  if g.values.all HasInfinities.isFinite then .ok ()
  else .error (.invalid (.notFinite parameter (g.values.countP HasInfinities.isNaN)
    (g.values.countP HasInfinities.isInf)))

/-- The grid has the given number of axes. -/
def checkAxes {K : Type} (g : Grid K) (axes : Int) (parameter : String) : Except Error Unit :=
  if (g.shape.length : Int) = axes then .ok ()
  else .error (.dimension (.axes parameter axes g.shape))

/-- The first axis is at least as long as required. -/
def checkMinSamples {K : Type} (g : Grid K) (required : Int) (parameter : String) :
    Except Error Unit :=
  match g.shape with
  | [] => .error (.grid .noSuchAxis)
  | n :: _ =>
    if (n : Int) < required then .error (.invalid (.tooFewSamples parameter required n))
    else .ok ()

/-- The integer that a value holds, if it is of an integral kind and at least the
minimum. Truth values and real numbers are refused even if they equal one. -/
def checkInteger (v : Value) (parameter : String) (minimum : Int) :
    Except Error { i : Int // minimum ≤ i } :=
  match v.integral? with
  | none => .error (.invalid (.notAnInteger parameter v))
  | some i =>
    if h : minimum ≤ i then .ok ⟨i, h⟩
    else .error (.invalid (.belowMinimum parameter minimum i))

/-- A grid with a single axis is a column of points on a line. -/
def asColumn {K : Type} (g : Grid K) : Grid K :=
  match g.shape with
  | [n] => ⟨[n, 1], g.values⟩
  | _ => g

/-- Data as a point set: a flat sequence gives points on a line, a sequence of
rows gives points with as many coordinates as a row has. The coordinates become
doubles after they have been checked for being finite. -/
def checkPoints (v : Value) (parameter : String) : Except Error (PointSet Float) := do
  let table ← checkArray v parameter
  let g := asColumn table.given
  checkAxes g 2 parameter
  checkMinSamples g 1 parameter
  match g.shape with
  | [n, dim] =>
    if dim < 1 then throw (.dimension (.noCoordinates parameter g.shape))
    checkFinite g parameter
    match PointSet.ofBlock? n dim (g.values.map RealCell.toFloat) with
    | some points => return points
    | none => throw (.grid (.wrongSize g.values.length g.shape))
  | _ => throw (.dimension (.axes parameter 2 g.shape))

end PointPattern
