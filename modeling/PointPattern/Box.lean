/-
# Sampling boxes

Reference points are drawn uniformly from a box along the axes, given by its lower
corner and the length of each side. The box is the hull of the data unless a caller
sets both bounds; then a side may have any sign. A single number along the axes
stands for the same number on each of them.
-/

import PointPattern.PointSet
import PointPattern.Random.Choice
import PointPattern.Validation

namespace PointPattern

open PointPattern.Random

/-- Where a box comes from. -/
inductive BoxSource where
  | data
  | override
  deriving DecidableEq, Repr

/-- The name of an origin in reports. -/
def BoxSource.name : BoxSource → String
  | data => "data"
  | override => "override"

/-- A box: its lower corner and the lengths of its sides. -/
structure Box (K : Type) where
  low : List K
  extent : List K
  source : BoxSource := .data
  deriving Repr

/-- The length that two lists along the axes agree on, where a list of one entry
agrees with every length. -/
def commonLength (m n : Nat) : Option Nat :=
  if m = n then some m else if m = 1 then some n else if n = 1 then some m else none

/-- A list along the axes of the given length, where a single entry stands for
all of them. -/
def stretch {K : Type} (length : Nat) (xs : List K) : List K :=
  if xs.length = length then xs
  else match xs with
    | [x] => List.replicate length x
    | xs => xs

namespace Box

variable {K : Type}

/-- The number of axes of a box is that of its lower corner. -/
def dim (b : Box K) : Nat := b.low.length

variable [Add K] [Sub K] [Mul K] [Scalar K]

/-- The number of coordinates of the points in the box. It is the number of axes
unless only one list has several entries. -/
def width (b : Box K) (shape : List Nat) : Except Error Nat :=
  match commonLength b.dim b.extent.length with
  | some width => .ok width
  | none => .error (.grid (.mismatch shape [b.extent.length]))

/-- The upper corner. -/
def high (b : Box K) : Except Error (List K) := do
  let width ← b.width [b.dim]
  return List.zipWith (· + ·) (stretch width b.low) (stretch width b.extent)

/-- The least numbers of two rows, place by place. -/
def lowest (rows : List (List K)) (first : List K) : List K :=
  rows.foldl (List.zipWith Scalar.min) first

/-- The greatest numbers of two rows, place by place. -/
def highest (rows : List (List K)) (first : List K) : List K :=
  rows.foldl (List.zipWith Scalar.max) first

/-- The box with the given corners. -/
def ofCorners (low high : List K) (source : BoxSource) : Box K :=
  ⟨low, List.zipWith (· - ·) high low, source⟩

/-- The hull of rows: on each axis from the least to the greatest coordinate. -/
def hull (rows : List (List K)) : Except Error (Box K) :=
  match rows with
  | [] => .error (.grid .noRows)
  | first :: rest => .ok (ofCorners (lowest rest first) (highest rest first) .data)

/-- The place that a row of uniform numbers denotes. An axis of length zero gives
the lower corner. -/
def place (b : Box K) (width : Nat) (row : List K) : List K :=
  List.zipWith (· + ·) (stretch width b.low)
    (List.zipWith (· * ·) (stretch width row) (stretch width b.extent))

/-- Draws points from a box, coordinate by coordinate and point by point. -/
def sample {γ : Type} (source : Source γ K) (b : Box K) (size : Int) (s : γ) :
    Except Error (Grid K) × γ :=
  match source.block size b.dim s with
  | (.error e, s) => (.error e, s)
  | (.ok block, s) =>
    match b.width block.shape with
    | .error e => (.error e, s)
    | .ok width => (.ok (.ofRows width (block.subgrids.map fun row => b.place width row.values)), s)

end Box

/-! ## Bounds set by a caller -/

/-- Bounds of the sampling box, one pair for each axis. -/
structure Bounds (K : Type) (dim : Nat) where
  low : List K
  high : List K
  low_length : low.length = dim
  high_length : high.length = dim

/-- The same bounds in another kind of number. -/
def Bounds.map {K L : Type} {dim : Nat} (f : K → L) (b : Bounds K dim) : Bounds L dim :=
  ⟨b.low.map f, b.high.map f, by simp [b.low_length], by simp [b.high_length]⟩

/-- The box between bounds. -/
def Bounds.box {K : Type} [Sub K] {dim : Nat} (b : Bounds K dim) : Box K :=
  ⟨b.low, List.zipWith (· - ·) b.high b.low, .override⟩

/-- Whether a bound is not set: it is absent or has no elements. -/
def isUnset (v : Value) : Except Error Bool :=
  if v.isNull then .ok true else (v.size.mapError .grid).map (· = 0)

/-- A grid without axes is a list of one element. -/
def asFlat {K : Type} (g : Grid K) : Grid K :=
  match g.shape with
  | [] => ⟨[1], g.values⟩
  | _ => g

/-- One bound for each axis: a number or a flat list with one entry or with as
many as there are axes. Its entries become doubles before they are checked. -/
def checkBound (v : Value) (dim : Nat) (parameter : String) :
    Except Error { entries : List Float // entries.length = dim } := do
  let table ← checkArray v parameter
  let g := asFlat table.grid
  checkAxes g 1 parameter
  checkFinite g parameter
  if h : g.values.length = dim then return ⟨g.values, h⟩
  else match g.values with
    | [entry] => return ⟨List.replicate dim entry, List.length_replicate⟩
    | entries => throw (.boundLength parameter dim entries.length)

/-- Both bounds, or none if neither is set. One alone is refused. -/
def checkBounds (minima maxima : Value) (dim : Nat) :
    Except Error (Option (Bounds Float dim)) := do
  let lowUnset ← isUnset minima
  let highUnset ← isUnset maxima
  if lowUnset && highUnset then return none
  else if lowUnset then throw (.incompleteBounds "maxima" "minima")
  else if highUnset then throw (.incompleteBounds "minima" "maxima")
  else
    let low ← checkBound minima dim "minima"
    let high ← checkBound maxima dim "maxima"
    return some ⟨low, high, low.2, high.2⟩

/-- The number of axes of data: the extent of the second axis of the grid, also if
every entry on it is a grid by itself. -/
def axisCount {K : Type} (data : Grid K) : Nat :=
  match data.shape with
  | _ :: dim :: _ => dim
  | _ => 0

/-- The sampling box of data: between the bounds if they are set, and otherwise
the hull of the rows. -/
def estimateBox (data : Grid Float) (minima maxima : Value) : Except Error (Box Float) := do
  match data.shape with
  | n :: dim :: rest => do
    let width := dim * Grid.sizeOf rest
    match ← checkBounds minima maxima dim with
    | some bounds => return bounds.box
    | none => Box.hull (Grid.cut n width data.values)
  | _ => throw (.grid .noSuchAxis)

end PointPattern
