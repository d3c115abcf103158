/-
# Rectangular grids

A grid holds elements in row-major order together with its shape. Blocks of
points, answers of oracles and samples are grids; a grid of rows of one length is
the usual case, and other shapes occur only where callers hand them in.
-/

namespace PointPattern

/-- Elements in row-major order and the extents of the axes. -/
structure Grid (K : Type) where
  shape : List Nat
  values : List K
  deriving Repr

namespace Grid

variable {K L : Type}

/-- The number of elements of a shape. -/
def sizeOf (shape : List Nat) : Nat := shape.foldl (· * ·) 1

/-- A grid of rows, all of the given length. -/
def ofRows (dim : Nat) (rows : List (List K)) : Grid K :=
  ⟨[rows.length, dim], rows.flatten⟩

/-- A grid with one axis. -/
def ofPoint (point : List K) : Grid K := ⟨[point.length], point⟩

/-- The rows of a block with the given number of rows. Rows without elements are
counted as well. -/
def cut (count length : Nat) (values : List K) : List (List K) :=
  match count with
  | 0 => []
  | n + 1 => values.take length :: cut n length (values.drop length)

/-- The subgrids along the first axis. A grid without axes has none. -/
def subgrids (g : Grid K) : List (Grid K) :=
  match g.shape with
  | [] => []
  | n :: rest => (cut n (sizeOf rest) g.values).map (⟨rest, ·⟩)

/-- Applies a function to every element. -/
def map (f : K → L) (g : Grid K) : Grid L := ⟨g.shape, g.values.map f⟩

end Grid

end PointPattern
