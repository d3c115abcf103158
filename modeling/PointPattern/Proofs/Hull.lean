/-
# Boxes around data and the points drawn from them

On every axis the box of the data reaches from the smallest to the greatest coordinate: nothing of
the data lies outside, and every face is touched. A point that is drawn from a box divides each side
in a proportion from zero to below one, so that it reaches the face from which the side starts and
never the opposite one, in whichever direction the side points; a side without length leaves it no
choice.
-/

import PointPattern.Proofs.Accepted
import PointPattern.Proofs.RowOrder

namespace PointPattern

open PointPattern.Random

/-! ## Coordinates -/

section Coordinates

variable {K : Type} [Zero K] {dim axis : ℕ} {row first : List K} {rows : List (List K)}

/-- The coordinate of a point on an axis. -/
def coordinate (row : List K) (axis : ℕ) : K := row.getD axis 0

theorem coordinate_mem (inside : axis < row.length) : coordinate row axis ∈ row := by
  rw [coordinate, List.getD_eq_getElem row 0 inside]
  exact List.getElem_mem inside

theorem coordinate_zipWith {f : K → K → K} {xs ys : List K} (left : axis < xs.length)
    (right : axis < ys.length) :
    coordinate (List.zipWith f xs ys) axis = f (coordinate xs axis) (coordinate ys axis) := by
  have both : axis < (List.zipWith f xs ys).length := by
    rw [List.length_zipWith]
    exact lt_min left right
  rw [coordinate, coordinate, coordinate, List.getD_eq_getElem _ 0 both, List.getElem_zipWith,
    List.getD_eq_getElem _ 0 left, List.getD_eq_getElem _ 0 right]

/-- Rows are equal if they agree on all axes. -/
theorem eq_of_coordinate {row' : List K} (length : row.length = row'.length)
    (same : ∀ axis < row.length, coordinate row axis = coordinate row' axis) : row = row' := by
  refine List.ext_getElem length fun axis inside inside' => ?_
  have agree := same axis inside
  rwa [coordinate, coordinate, List.getD_eq_getElem _ 0 inside,
    List.getD_eq_getElem _ 0 inside'] at agree

/-- On each axis a fold over rows, place by place, is a fold over the coordinates. -/
theorem coordinate_foldl_zipWith {f : K → K → K} (inside : axis < dim)
    (first_length : first.length = dim) (lengths : ∀ row ∈ rows, row.length = dim) :
    coordinate (rows.foldl (List.zipWith f) first) axis =
      (rows.map (coordinate · axis)).foldl f (coordinate first axis) := by
  induction rows generalizing first with
  | nil => rfl
  | cons row rest ih =>
      have row_length := lengths row List.mem_cons_self
      have both : (List.zipWith f first row).length = dim := by
        rw [List.length_zipWith, first_length, row_length, Nat.min_self]
      rw [List.foldl_cons, ih both fun other mem => lengths other (List.mem_cons_of_mem row mem),
        coordinate_zipWith (first_length ▸ inside) (row_length ▸ inside)]
      rfl

end Coordinates

/-- What is chosen from numbers, one after the other and never to its disadvantage, is one of them
and has none of them ahead of it. -/
theorem foldl_choice {α : Type} {r : α → α → Prop} [IsPreorder α r] {f : α → α → α} {p : α → Prop}
    (choice : ∀ x y, f x y = x ∨ f x y = y) (left : ∀ x y, p x → p y → r (f x y) x)
    (right : ∀ x y, p x → p y → r (f x y) y) {xs : List α} {first : α}
    (all : ∀ x ∈ first :: xs, p x) :
    xs.foldl f first ∈ first :: xs ∧ ∀ x ∈ first :: xs, r (xs.foldl f first) x := by
  induction xs generalizing first with
  | nil => exact ⟨List.mem_cons_self, by simpa using refl_of r first⟩
  | cons x rest ih =>
      have p_first := all first List.mem_cons_self
      have p_x := all x (List.mem_cons_of_mem first List.mem_cons_self)
      have all_later : ∀ y ∈ f first x :: rest, p y := by
        intro y y_mem
        rcases List.mem_cons.1 y_mem with rfl | later
        · rcases choice first x with same | same <;> rwa [same]
        · exact all y (List.mem_cons_of_mem first (List.mem_cons_of_mem x later))
      obtain ⟨mem, ahead⟩ := ih all_later
      have least := ahead (f first x) List.mem_cons_self
      refine ⟨?_, fun y y_mem => ?_⟩
      · rcases List.mem_cons.1 mem with chosen | later
        · rcases choice first x with same | same
          · exact List.mem_cons.2 (.inl (chosen.trans same))
          · exact List.mem_cons_of_mem first (List.mem_cons.2 (.inl (chosen.trans same)))
        · exact List.mem_cons_of_mem first (List.mem_cons_of_mem x later)
      · rcases List.mem_cons.1 y_mem with rfl | y_mem
        · exact trans_of r least (left y x p_first p_x)
        · rcases List.mem_cons.1 y_mem with rfl | later
          · exact trans_of r least (right first y p_first p_x)
          · exact ahead y (List.mem_cons_of_mem _ later)

/-- On each axis a choice among rows, place by place, is a choice among their coordinates. -/
theorem coordinate_choice {K : Type} [Zero K] {r : K → K → Prop} [IsPreorder K r] {f : K → K → K}
    {p : K → Prop} (choice : ∀ x y, f x y = x ∨ f x y = y)
    (left : ∀ x y, p x → p y → r (f x y) x) (right : ∀ x y, p x → p y → r (f x y) y)
    {dim axis : ℕ} {first : List K} {rest : List (List K)}
    (lengths : ∀ row ∈ first :: rest, row.length = dim) (inside : axis < dim)
    (all : ∀ row ∈ first :: rest, p (coordinate row axis)) :
    let chosen := coordinate (rest.foldl (List.zipWith f) first) axis
    (∃ row ∈ first :: rest, coordinate row axis = chosen) ∧
      ∀ row ∈ first :: rest, r chosen (coordinate row axis) := by
  intro chosen
  have column : chosen = (rest.map (coordinate · axis)).foldl f (coordinate first axis) :=
    coordinate_foldl_zipWith inside (lengths first List.mem_cons_self)
      fun row mem => lengths row (List.mem_cons_of_mem first mem)
  rw [← List.forall_mem_map (f := (coordinate · axis)), List.map_cons] at all
  have extreme := foldl_choice choice left right all
  rw [← column, ← List.map_cons (f := (coordinate · axis))] at extreme
  exact ⟨List.mem_map.1 extreme.1, fun row mem => extreme.2 _ (List.mem_map_of_mem mem)⟩

/-! ## The box of the data -/

section Hull

variable {K : Type} [Field K]

/-- The upper corner of a box that has all its sides. -/
theorem Box.Spans.high_eq {b : Box K} {dim : ℕ} (spans : b.Spans dim) :
    b.high = .ok (List.zipWith (· + ·) b.low b.extent) := by
  have width : b.width [b.dim] = .ok dim := by
    rw [Box.width, Box.dim, spans.low, spans.extent, commonLength, if_pos rfl]
  rw [Box.high, width]
  show Except.ok (List.zipWith _ (stretch dim b.low) (stretch dim b.extent)) = _
  rw [stretch_of_length spans.low, stretch_of_length spans.extent]

/-- The sides between two corners lead from the one to the other. -/
theorem zipWith_add_sub {low high : List K} (length : low.length = high.length) :
    List.zipWith (· + ·) low (List.zipWith (· - ·) high low) = high := by
  have sides : (List.zipWith (· - ·) high low).length = high.length := by
    rw [List.length_zipWith, length, Nat.min_self]
  refine eq_of_coordinate ?_ fun axis inside => ?_
  · rw [List.length_zipWith, length, sides, Nat.min_self]
  · rw [List.length_zipWith, length, sides, Nat.min_self] at inside
    rw [coordinate_zipWith (by omega) (by omega), coordinate_zipWith (by omega) (by omega)]
    exact add_sub_cancel _ _

variable [LinearOrder K]

/-- A box with its upper corner is tight around points: it has the sides of the points, all of them
in the direction of the axis, it holds every point, and each of its faces is touched by a point. -/
structure Box.IsTight (b : Box K) (high : List K) (data : PointSet K) : Prop where
  spans : b.Spans data.dim
  high_eq : b.high = .ok high
  extent_nonneg : ∀ axis < data.dim, 0 ≤ coordinate b.extent axis
  holds : ∀ row ∈ data.points, ∀ axis < data.dim,
    coordinate b.low axis ≤ coordinate row axis ∧ coordinate row axis ≤ coordinate high axis
  touched_low : ∀ axis < data.dim, ∃ row ∈ data.points,
    coordinate row axis = coordinate b.low axis
  touched_high : ∀ axis < data.dim, ∃ row ∈ data.points,
    coordinate row axis = coordinate high axis

section Corners

variable [Scalar K] [Scalar.Exact K] {dim axis : ℕ} {first : List K} {rest : List (List K)}

/-- On each axis the lower corner of the hull has the least of the coordinates. -/
theorem Box.lowest_spec (lengths : ∀ row ∈ first :: rest, row.length = dim) (inside : axis < dim) :
    (∃ row ∈ first :: rest, coordinate row axis = coordinate (lowest rest first) axis) ∧
      ∀ row ∈ first :: rest, coordinate (lowest rest first) axis ≤ coordinate row axis :=
  coordinate_choice (r := (· ≤ ·)) (f := Scalar.min) (p := fun _ => True)
    (fun x y => Scalar.min_eq x y ▸ min_choice x y)
    (fun x y _ _ => Scalar.min_eq x y ▸ inf_le_left)
    (fun x y _ _ => Scalar.min_eq x y ▸ inf_le_right) lengths inside fun _ _ => trivial

/-- On each axis the upper corner of the hull has the greatest of the coordinates. -/
theorem Box.highest_spec (lengths : ∀ row ∈ first :: rest, row.length = dim)
    (inside : axis < dim) :
    (∃ row ∈ first :: rest, coordinate row axis = coordinate (highest rest first) axis) ∧
      ∀ row ∈ first :: rest, coordinate row axis ≤ coordinate (highest rest first) axis :=
  coordinate_choice (r := (· ≥ ·)) (f := Scalar.max) (p := fun _ => True)
    (fun x y => Scalar.max_eq x y ▸ max_choice x y)
    (fun x y _ _ => Scalar.max_eq x y ▸ le_sup_left)
    (fun x y _ _ => Scalar.max_eq x y ▸ le_sup_right) lengths inside fun _ _ => trivial

end Corners

omit [LinearOrder K] in
/-- A box between two corners that have all axes spans them and leads to the upper corner. -/
theorem Box.spans_ofCorners {low high : List K} {dim : ℕ} (low_length : low.length = dim)
    (high_length : high.length = dim) (source : BoxSource) :
    (ofCorners low high source).Spans dim ∧ (ofCorners low high source).high = .ok high := by
  have sides : (List.zipWith (· - ·) high low).length = dim := by
    rw [List.length_zipWith, high_length, low_length, Nat.min_self]
  have spans : (ofCorners low high source).Spans dim := ⟨low_length, sides⟩
  refine ⟨spans, ?_⟩
  rw [spans.high_eq]
  exact congrArg Except.ok (zipWith_add_sub (low_length.trans high_length.symm))

variable [IsStrictOrderedRing K] [Scalar K] [Scalar.Exact K]

/-- The hull of points is tight around them. -/
theorem exists_isTight_hull (data : PointSet K) :
    ∃ box high, Box.hull data.points = .ok box ∧ box.IsTight high data := by
  have lengths := data.length_eq
  cases rows : data.points with
  | nil => exact absurd rows data.points_ne_nil
  | cons first rest =>
      rw [rows] at lengths
      have first_length := lengths first List.mem_cons_self
      have rest_length : ∀ row ∈ rest, row.length = data.dim :=
        fun row mem => lengths row (List.mem_cons_of_mem first mem)
      have low_length : (Box.lowest rest first).length = data.dim :=
        length_foldl_zipWith first_length rest_length
      have high_length : (Box.highest rest first).length = data.dim :=
        length_foldl_zipWith first_length rest_length
      obtain ⟨spans, cornered⟩ := Box.spans_ofCorners low_length high_length .data
      refine ⟨_, Box.highest rest first, rfl, ?_⟩
      constructor
      case spans => exact spans
      case high_eq => exact cornered
      case extent_nonneg =>
        intro axis inside
        have ordered := ((Box.lowest_spec lengths inside).2 first List.mem_cons_self).trans
          ((Box.highest_spec lengths inside).2 first List.mem_cons_self)
        rw [Box.ofCorners, coordinate_zipWith (by omega) (by omega)]
        exact sub_nonneg.2 ordered
      case holds =>
        rw [rows]
        exact fun row mem axis inside =>
          ⟨(Box.lowest_spec lengths inside).2 row mem, (Box.highest_spec lengths inside).2 row mem⟩
      case touched_low =>
        rw [rows]
        exact fun axis inside => (Box.lowest_spec lengths inside).1
      case touched_high =>
        rw [rows]
        exact fun axis inside => (Box.highest_spec lengths inside).1

end Hull

/-! ## Points that are drawn from a box -/

section Drawn

variable {K : Type} [Field K] [LinearOrder K]

/-- Where a coordinate lies on a side of a box, from the face on which the side starts to the
opposite one: the first may be reached, the second is not, and a side without length has only the
first. -/
structure OnSide (start extent opposite x : K) : Prop where
  ascending : 0 < extent → start ≤ x ∧ x < opposite
  flat : extent = 0 → x = start
  descending : extent < 0 → opposite < x ∧ x ≤ start

/-- A point lies in a box with this upper corner, on each of its sides. -/
structure Box.Encloses (b : Box K) (high row : List K) : Prop where
  length : row.length = high.length
  sides : ∀ axis < high.length, OnSide (coordinate (stretch high.length b.low) axis)
    (coordinate (stretch high.length b.extent) axis) (coordinate high axis) (coordinate row axis)

omit [LinearOrder K] in
/-- A box with an upper corner has sides that agree on the number of axes. -/
theorem Box.exists_width_of_high {b : Box K} {high : List K} (cornered : b.high = .ok high) :
    ∃ width, commonLength b.dim b.extent.length = some width ∧
      high = List.zipWith (· + ·) (stretch width b.low) (stretch width b.extent) := by
  rw [Box.high, Box.width] at cornered
  cases common : commonLength b.dim b.extent.length with
  | none =>
      rw [common] at cornered
      cases cornered
  | some width =>
      rw [common] at cornered
      cases cornered
      exact ⟨width, rfl, rfl⟩

omit [Field K] [LinearOrder K] in
theorem length_stretch {length : ℕ} {xs : List K} (fits : xs.length = length ∨ xs.length = 1) :
    (stretch length xs).length = length := by
  unfold stretch
  split
  · next same => exact same
  · next different =>
      obtain ⟨x, rfl⟩ := List.length_eq_one_iff.1 (fits.resolve_left different)
      exact List.length_replicate

omit [Field K] [LinearOrder K] in
theorem mem_of_mem_stretch {length : ℕ} {xs : List K} {x : K} (mem : x ∈ stretch length xs) :
    x ∈ xs := by
  unfold stretch at mem
  split at mem
  · exact mem
  · split at mem
    · rw [List.eq_of_mem_replicate mem]
      exact List.mem_singleton.2 rfl
    · exact mem

theorem commonLength_eq_some {m n width : ℕ} (common : commonLength m n = some width) :
    (m = width ∨ m = 1) ∧ (n = width ∨ n = 1) := by
  rw [commonLength] at common
  split_ifs at common <;> cases common <;> omega

variable [IsStrictOrderedRing K]

/-- A proportion from zero to below one of a side leads to a place on it. -/
theorem onSide_of_proportion (start extent : K) {u : K} (nonneg : 0 ≤ u) (lt_one : u < 1) :
    OnSide start extent (start + extent) (start + u * extent) where
  ascending positive := by
    have reached : 0 ≤ u * extent := mul_nonneg nonneg positive.le
    have short : u * extent < extent := mul_lt_of_lt_one_left positive lt_one
    exact ⟨le_add_of_nonneg_right reached, add_lt_add_right short start⟩
  flat zero := by rw [zero, mul_zero, add_zero]
  descending negative := by
    have reached : u * extent ≤ 0 := mul_nonpos_of_nonneg_of_nonpos nonneg negative.le
    have short : extent < u * extent := by simpa using mul_lt_mul_of_neg_right lt_one negative
    exact ⟨add_lt_add_right short start, add_le_of_nonpos_right reached⟩

/-- A row of numbers from zero to below one is placed in the box. -/
theorem Box.encloses_place {b : Box K} {width : ℕ} {row : List K}
    (common : commonLength b.dim b.extent.length = some width) (row_length : row.length = b.dim)
    (proportions : ∀ u ∈ row, 0 ≤ u ∧ u < 1) :
    b.Encloses (List.zipWith (· + ·) (stretch width b.low) (stretch width b.extent))
      (b.place width row) := by
  obtain ⟨low_fits, extent_fits⟩ := commonLength_eq_some common
  have low_length := length_stretch low_fits
  have extent_length := length_stretch extent_fits
  have drawn_length := length_stretch (row_length ▸ low_fits)
  have moved_length :
      (List.zipWith (· * ·) (stretch width row) (stretch width b.extent)).length = width := by
    rw [List.length_zipWith, drawn_length, extent_length, Nat.min_self]
  have high_length :
      (List.zipWith (· + ·) (stretch width b.low) (stretch width b.extent)).length = width := by
    rw [List.length_zipWith, low_length, extent_length, Nat.min_self]
  constructor
  case length =>
    rw [high_length, Box.place, List.length_zipWith, low_length, moved_length, Nat.min_self]
  case sides =>
    rw [high_length]
    intro axis inside
    rw [Box.place, coordinate_zipWith (by omega) (by omega),
      coordinate_zipWith (by omega) (by omega), coordinate_zipWith (by omega) (by omega)]
    have drawn := mem_of_mem_stretch (coordinate_mem (drawn_length.symm ▸ inside))
    exact onSide_of_proportion _ _ (proportions _ drawn).1 (proportions _ drawn).2

/-- Points that are drawn from a box by numbers from zero to below one lie in it. -/
theorem Box.sample_encloses {γ : Type} {b : Box K} {high : List K} (cornered : b.high = .ok high)
    {source : Source γ K} {size : ℕ} {g g' : γ} {numbers : List K}
    (drawn : source.block size b.dim g = (.ok ⟨[size, b.dim], numbers⟩, g'))
    (fills : numbers.length = size * b.dim) (proportions : ∀ u ∈ numbers, 0 ≤ u ∧ u < 1) :
    ∃ rows, b.sample source size g = (.ok (.ofRows high.length rows), g') ∧
      rows.length = size ∧ ∀ row ∈ rows, b.Encloses high row := by
  obtain ⟨width, common, rfl⟩ := Box.exists_width_of_high cornered
  have one_axis : Grid.sizeOf [b.dim] = b.dim := Nat.one_mul b.dim
  refine ⟨(Grid.cut size b.dim numbers).map (b.place width), ?_, ?_, ?_⟩
  · obtain ⟨low_fits, extent_fits⟩ := commonLength_eq_some common
    rw [List.length_zipWith, length_stretch low_fits, length_stretch extent_fits, Nat.min_self]
    simp only [Box.sample, drawn, Box.width, common, Grid.subgrids, one_axis, List.map_map]
    rfl
  · rw [List.length_map, Grid.length_cut]
  · intro row mem
    obtain ⟨values, values_mem, rfl⟩ := List.mem_map.1 mem
    exact Box.encloses_place common (Grid.length_of_mem_cut fills values_mem)
      fun u u_mem => proportions u (mem_of_mem_cut values_mem u_mem)

variable [Scalar K] [Scalar.Exact K]

/-- The uniform numbers of a stream are from zero to below one. -/
theorem Random.Stream.uniform_mem (g : Stream) :
    0 ≤ (g.uniform (K := K)).1 ∧ (g.uniform (K := K)).1 < 1 := by
  have whole : (0 : K) < 2 ^ 53 := by positivity
  have bits : g.next64.1 / 2 ^ 11 < 2 ^ 53 := by
    rw [Nat.div_lt_iff_lt_mul (Nat.two_pow_pos 11), ← Nat.pow_add]
    exact next64_lt g
  have below : ((g.next64.1 / 2 ^ 11 : ℕ) : K) < 2 ^ 53 := by exact_mod_cast bits
  have proportion : (g.uniform (K := K)).1 = ((g.next64.1 / 2 ^ 11 : ℕ) : K) / 2 ^ 53 := by
    show Scalar.ofNat (g.next64.1 / 2 ^ 11) / Scalar.ofNat (2 ^ 53) = _
    rw [Scalar.Exact.ofNat_eq, Scalar.Exact.ofNat_eq, Nat.cast_pow, Nat.cast_ofNat]
  rw [proportion]
  exact ⟨div_nonneg (Nat.cast_nonneg _) whole.le, (div_lt_one whole).2 below⟩

theorem Random.Stream.uniforms_mem (n : ℕ) (g : Stream) :
    ∀ u ∈ (g.uniforms (K := K) n).1, 0 ≤ u ∧ u < 1 := by
  induction n generalizing g with
  | zero => nofun
  | succ n ih =>
      intro u mem
      rcases List.mem_cons.1 mem with rfl | later
      · exact g.uniform_mem
      · exact ih _ u later

/-- The box of data is tight around them, and what is drawn from a box lies in it. The hull of any
point set has no side against its axis, holds every row and is touched by a row on each of its
faces; it is the box of every design without bounds. From any box whose corner and sides agree on
the number of axes, whatever the directions of the sides, every source of randomness that fills its
blocks with numbers from zero to below one draws as many points as it is asked for, and all of them
lie in the box: on a side that ascends they may reach its start and never its end, on a side that
descends likewise, and on a side without length they lie at its start. Random streams are such
sources. -/
theorem hull_isTight_and_sample_encloses (data : PointSet K) :
    (∃ box high, Box.hull data.points = .ok box ∧ box.IsTight high data ∧
      ∀ d : Design K, d.points = data → d.bounds = none → d.box = .ok box) ∧
    ∀ (b : Box K) (high : List K), b.high = .ok high →
      (∀ {γ : Type} (source : Source γ K) (size : ℕ) (g g' : γ) (numbers : List K),
        source.block size b.dim g = (.ok ⟨[size, b.dim], numbers⟩, g') →
        numbers.length = size * b.dim → (∀ u ∈ numbers, 0 ≤ u ∧ u < 1) →
        ∃ rows, b.sample source size g = (.ok (.ofRows high.length rows), g') ∧
          rows.length = size ∧ ∀ row ∈ rows, b.Encloses high row) ∧
      ∀ (size : ℕ) (g : Stream), ∃ rows g',
        b.sample (streamSource K) size g = (.ok (.ofRows high.length rows), g') ∧
          rows.length = size ∧ ∀ row ∈ rows, b.Encloses high row := by
  refine ⟨?_, fun b high cornered => ⟨?_, fun size g => ?_⟩⟩
  · obtain ⟨box, high, hull, tight⟩ := exists_isTight_hull data
    refine ⟨box, high, hull, tight, ?_⟩
    rintro d rfl unbounded
    rw [Design.box, unbounded]
    exact hull
  · intro γ source size g g' numbers drawn fills proportions
    exact Box.sample_encloses cornered drawn fills proportions
  · have natural : ¬(size : ℤ) < 0 := by omega
    have drawn : (streamSource K).block size b.dim g =
        (.ok ⟨[size, b.dim], (g.uniforms (size * b.dim)).1⟩,
          (g.uniforms (K := K) (size * b.dim)).2) := by
      simp only [streamSource, fillBlock, if_neg natural, Int.toNat_natCast]
    obtain ⟨rows, sampled, length, encloses⟩ := Box.sample_encloses cornered drawn
      (Stream.length_uniforms _ g) (Stream.uniforms_mem _ g)
    exact ⟨rows, _, sampled, length, encloses⟩

end Drawn

/-- Two points from a box with one side that ascends, one that descends and one without length. -/
theorem hull_isTight_and_sample_encloses_invertedBox :
    let b : Box ℚ := ⟨[0, 4, 1], [2, -2, 0], .override⟩
    b.high = .ok [2, 2, 1] ∧
      ∃ rows g', b.sample (streamSource ℚ) 2 (.ofSeed ⟨[7], none⟩) = (.ok (.ofRows 3 rows), g') ∧
        rows.length = 2 ∧ ∀ row ∈ rows,
          (0 ≤ coordinate row 0 ∧ coordinate row 0 < 2) ∧
          (2 < coordinate row 1 ∧ coordinate row 1 ≤ 4) ∧ coordinate row 2 = 1 := by
  intro b
  have spans : b.Spans 3 := ⟨rfl, rfl⟩
  have cornered : b.high = .ok [2, 2, 1] := by
    rw [spans.high_eq]
    norm_num [b]
  refine ⟨cornered, ?_⟩
  obtain ⟨rows, g', sampled, length, encloses⟩ :=
    ((hull_isTight_and_sample_encloses threePoints).2 b [2, 2, 1] cornered).2 2
      (.ofSeed ⟨[7], none⟩)
  refine ⟨rows, g', sampled, length, fun row mem => ?_⟩
  have side := (encloses row mem).sides
  have ascending : (0 : ℚ) < 2 := by norm_num
  have descending : (-2 : ℚ) < 0 := by norm_num
  exact ⟨(side 0 (by decide)).ascending ascending, (side 1 (by decide)).descending descending,
    (side 2 (by decide)).flat rfl⟩

end PointPattern
