/-
# Point sets

A point set is a non-empty list of points that all have the same positive number
of coordinates. The type carries these facts, so that nothing downstream has to
check them again.
-/

import PointPattern.Grid

namespace PointPattern

/-- A non-empty list of points with a common positive number of coordinates. -/
structure PointSet (K : Type) where
  dim : Nat
  points : List (List K)
  dim_pos : 0 < dim
  points_ne_nil : points ≠ []
  length_eq : ∀ p ∈ points, p.length = dim

namespace Grid

variable {K : Type}

/-- Cutting a block that fills its shape gives rows of the full length. -/
theorem length_of_mem_cut {count length : Nat} {values row : List K}
    (fills : values.length = count * length) (member : row ∈ cut count length values) :
    row.length = length := by
  induction count generalizing values with
  | zero => simp [cut] at member
  | succ n ih =>
    have enough : (n + 1) * length = n * length + length := Nat.succ_mul n length
    rcases List.mem_cons.1 member with rfl | tail
    · simp only [List.length_take]
      omega
    · exact ih (by simp only [List.length_drop]; omega) tail

/-- As many rows are cut as were asked for. -/
@[simp] theorem length_cut (count length : Nat) (values : List K) :
    (cut count length values).length = count := by
  induction count generalizing values with
  | zero => rfl
  | succ n ih => simp [cut, ih]

end Grid

namespace PointSet

variable {K L : Type}

/-- The point set of a block, if the block has points, coordinates and as many
elements as its shape says. -/
def ofBlock? (count dim : Nat) (values : List K) : Option (PointSet K) :=
  if h : 0 < count ∧ 0 < dim ∧ values.length = count * dim then
    some
      { dim
        points := Grid.cut count dim values
        dim_pos := h.2.1
        points_ne_nil := by
          intro empty
          have := Grid.length_cut count dim values
          simp only [empty, List.length_nil] at this
          omega
        length_eq := fun _ member => Grid.length_of_mem_cut h.2.2 member }
  else none

/-- The number of points. -/
def size (s : PointSet K) : Nat := s.points.length

theorem size_pos (s : PointSet K) : 0 < s.size :=
  List.length_pos_iff.2 s.points_ne_nil

/-- The points as a block. -/
def toGrid (s : PointSet K) : Grid K := .ofRows s.dim s.points

/-- The same points in another kind of number. -/
def map (f : K → L) (s : PointSet K) : PointSet L where
  dim := s.dim
  points := s.points.map (·.map f)
  dim_pos := s.dim_pos
  points_ne_nil := by simpa using s.points_ne_nil
  length_eq := by
    intro p member
    obtain ⟨q, found, rfl⟩ := List.mem_map.1 member
    simpa using s.length_eq q found

end PointSet

end PointPattern
