/-
# Units and origin

The statistic does not depend on the units and the origin of the coordinates. Scaling and shifting
the data, and the bounds if there are any, scales and shifts the box, the places that are drawn
from it, and the rows that are chosen; by a metric that keeps up with this, every distance is
scaled, so that the ranks of the distances stay what they are. Both sums of a repetition are then
multiplied by the same power of the scale, and their shares, and all that is computed from them,
are unchanged.
-/

import PointPattern.Proofs.Correspondence
import PointPattern.Proofs.Prolongation
import PointPattern.Proofs.Searched
import Mathlib.Tactic.Ring

namespace PointPattern

open PointPattern.Random

/-! ## Selection -/

section Selection

variable {K : Type} [Scalar K] {f : K → K}

/-- A function that keeps the order of distances. -/
def KeepsOrder (f : K → K) : Prop := ∀ x y, Scalar.before (f x) (f y) = Scalar.before x y

theorem insertDescending_map (keeps : KeepsOrder f) (x : K) (kept : List K) :
    insertDescending (f x) (kept.map f) = (insertDescending x kept).map f := by
  induction kept with
  | nil => rfl
  | cons y rest ih =>
      simp only [List.map_cons, insertDescending, keeps x y, ih]
      split <;> rfl

theorem replaceLargest_map (keeps : KeepsOrder f) (kept : List K) (x : K) :
    replaceLargest (kept.map f) (f x) = (replaceLargest kept x).map f := by
  cases kept with
  | nil => rfl
  | cons y rest =>
      simp only [List.map_cons, replaceLargest, keeps x y, insertDescending_map keeps]
      split <;> rfl

theorem smallest_map (keeps : KeepsOrder f) (rank : ℕ) (xs : List K) :
    smallest rank (xs.map f) = (smallest rank xs).map f := by
  rw [smallest, smallest, ← List.map_drop, ← List.map_take, List.foldl_map, List.foldl_map]
  have first : (xs.take rank).foldl (fun kept x => insertDescending (f x) kept)
      (List.map f []) =
        ((xs.take rank).foldl (fun kept x => insertDescending x kept) []).map f :=
    List.foldl_hom (List.map f) fun kept x => insertDescending_map keeps x kept
  rw [List.map_nil] at first
  rw [first]
  exact List.foldl_hom (List.map f) (replaceLargest_map keeps)

/-- The distance of a rank is moved with all the others. -/
theorem kthSmallest?_map (keeps : KeepsOrder f) (rank : ℕ) (xs : List K) :
    kthSmallest? rank (xs.map f) = (kthSmallest? rank xs).map f := by
  rw [kthSmallest?, kthSmallest?, List.length_map, smallest_map keeps]
  split
  · rw [List.head?_map]
  · rfl

end Selection

/-! ## Points, boxes and designs in other coordinates -/

section Coordinates

variable {K : Type} [Add K] [Mul K]

/-- A row in other coordinates. -/
def inUnits (c : K) (shift row : List K) : List K :=
  List.zipWith (· + ·) (row.map (c * ·)) shift

@[simp]
theorem length_inUnits {c : K} {shift row : List K} (fits : shift.length = row.length) :
    (inUnits c shift row).length = row.length := by
  rw [inUnits, List.length_zipWith, List.length_map, fits, Nat.min_self]

theorem lengths_inUnits (c : K) {shift : List K} {rows : List (List K)} {dim : ℕ}
    (fits : shift.length = dim) (lengths : ∀ row ∈ rows, row.length = dim) :
    ∀ row ∈ rows.map (inUnits c shift), row.length = dim := by
  intro row mem
  obtain ⟨row, row_mem, rfl⟩ := List.mem_map.1 mem
  have row_length := lengths row row_mem
  exact (length_inUnits (fits.trans row_length.symm)).trans row_length

/-- A point set in other coordinates. -/
def PointSet.inUnits (c : K) (shift : List K) (s : PointSet K) (fits : shift.length = s.dim) :
    PointSet K where
  dim := s.dim
  points := s.points.map (PointPattern.inUnits c shift)
  dim_pos := s.dim_pos
  points_ne_nil := by simpa using s.points_ne_nil
  length_eq := lengths_inUnits c fits s.length_eq

@[simp]
theorem PointSet.size_inUnits (c : K) (shift : List K) (s : PointSet K)
    (fits : shift.length = s.dim) : (s.inUnits c shift fits).size = s.size := List.length_map _

/-- Bounds in other coordinates. -/
def Bounds.inUnits {dim : ℕ} (c : K) (shift : List K) (b : Bounds K dim)
    (fits : shift.length = dim) : Bounds K dim where
  low := PointPattern.inUnits c shift b.low
  high := PointPattern.inUnits c shift b.high
  low_length := by rw [length_inUnits (fits.trans b.low_length.symm), b.low_length]
  high_length := by rw [length_inUnits (fits.trans b.high_length.symm), b.high_length]

/-- A box in other coordinates: its sides are scaled and not shifted. -/
def Box.inUnits (c : K) (shift : List K) (b : Box K) : Box K :=
  ⟨PointPattern.inUnits c shift b.low, b.extent.map (c * ·), b.source⟩

/-- A design in other coordinates: its data and its bounds. -/
def Design.inUnits (c : K) (shift : List K) (d : Design K) (fits : shift.length = d.points.dim) :
    Design K :=
  { d with
    points := d.points.inUnits c shift fits
    bounds := d.bounds.map fun b => Bounds.inUnits c shift b fits
    sampleSize_le := by simpa using d.sampleSize_le }

/-- A measure of points with so many coordinates that does not depend on the origin and is
multiplied by the scale if both points are. -/
structure IsEquivariant (measure : List K → List K → K) (dim : ℕ) (c : K) : Prop where
  shifted : ∀ x y shift, x.length = dim → y.length = dim → shift.length = dim →
    measure (List.zipWith (· + ·) x shift) (List.zipWith (· + ·) y shift) = measure x y
  scaled : ∀ x y, x.length = dim → y.length = dim →
    measure (x.map (c * ·)) (y.map (c * ·)) = c * measure x y

end Coordinates

section Exact

variable {K : Type} [Field K] [LinearOrder K] [IsStrictOrderedRing K] [Scalar K] [Scalar.Exact K]
variable {c : K} {shift : List K}

omit [LinearOrder K] [IsStrictOrderedRing K] [Scalar K] [Scalar.Exact K] in
/-- What is the same operation in other coordinates is the same row by row. -/
theorem zipWith_inUnits {op : K → K → K}
    (same : ∀ x y z, op (c * x + z) (c * y + z) = c * op x y + z) (a b : List K) :
    List.zipWith op (inUnits c shift a) (inUnits c shift b) =
      inUnits c shift (List.zipWith op a b) := by
  induction a generalizing b shift with
  | nil => rfl
  | cons x a ih =>
      cases b with
      | nil => cases shift <;> rfl
      | cons y b =>
          cases shift with
          | nil => rfl
          | cons z shift => exact congrArg₂ List.cons (same x y z) (ih b)

omit [LinearOrder K] [IsStrictOrderedRing K] [Scalar K] [Scalar.Exact K] in
theorem foldl_zipWith_inUnits {op : K → K → K}
    (same : ∀ x y z, op (c * x + z) (c * y + z) = c * op x y + z) (rows : List (List K))
    (first : List K) :
    (rows.map (inUnits c shift)).foldl (List.zipWith op) (inUnits c shift first) =
      inUnits c shift (rows.foldl (List.zipWith op) first) := by
  rw [List.foldl_map]
  exact List.foldl_hom (inUnits c shift) fun row row' => zipWith_inUnits same row row'

omit [LinearOrder K] [IsStrictOrderedRing K] [Scalar K] [Scalar.Exact K] in
/-- The sides between two corners are scaled. -/
theorem sides_inUnits {high low : List K} (high_fits : shift.length = high.length)
    (low_fits : shift.length = low.length) :
    List.zipWith (· - ·) (inUnits c shift high) (inUnits c shift low) =
      (List.zipWith (· - ·) high low).map (c * ·) := by
  induction high generalizing low shift with
  | nil => rfl
  | cons x high ih =>
      cases low with
      | nil => cases shift <;> rfl
      | cons y low =>
          cases shift with
          | nil => cases high_fits
          | cons z shift =>
              have side : c * x + z - (c * y + z) = c * (x - y) := by ring
              refine congrArg₂ List.cons side (ih ?_ ?_)
              · simpa using high_fits
              · simpa using low_fits

omit [LinearOrder K] [IsStrictOrderedRing K] [Scalar K] [Scalar.Exact K] in
theorem zipWith_place_inUnits (low row extent : List K) :
    List.zipWith (· + ·) (inUnits c shift low)
        (List.zipWith (· * ·) row (extent.map (c * ·))) =
      inUnits c shift (List.zipWith (· + ·) low (List.zipWith (· * ·) row extent)) := by
  induction low generalizing row extent shift with
  | nil => rfl
  | cons x low ih =>
      cases shift with
      | nil => cases row <;> cases extent <;> rfl
      | cons z shift =>
          cases row with
          | nil => rfl
          | cons r row =>
              cases extent with
              | nil => rfl
              | cons e extent =>
                  have place : c * x + z + r * (c * e) = c * (x + r * e) + z := by ring
                  exact congrArg₂ List.cons place (ih row extent)

/-- Coordinates are compared in any units in the same way. -/
theorem less_inUnits (positive : 0 < c) (x y z : K) :
    Scalar.less (c * x + z) (c * y + z) = Scalar.less x y := by
  rw [Bool.eq_iff_iff]
  simp [positive]

theorem min_inUnits (positive : 0 < c) (x y z : K) :
    Scalar.min (c * x + z) (c * y + z) = c * Scalar.min x y + z := by
  rw [Scalar.min, Scalar.min, less_inUnits positive]
  simp only [Scalar.Exact.isNaN_eq]
  split <;> rfl

theorem max_inUnits (positive : 0 < c) (x y z : K) :
    Scalar.max (c * x + z) (c * y + z) = c * Scalar.max x y + z := by
  rw [Scalar.max, Scalar.max, less_inUnits positive]
  simp only [Scalar.Exact.isNaN_eq]
  split <;> rfl

/-- The box of a design moves with the design. -/
theorem Design.box_inUnits (positive : 0 < c) {d : Design K} (fits : shift.length = d.points.dim)
    {box : Box K} (boxed : d.box = .ok box) :
    (d.inUnits c shift fits).box = .ok (box.inUnits c shift) := by
  obtain ⟨points, sampleSize, repetitions, k, bounds, seed, jobs⟩ := d
  cases bounds with
  | some bounds =>
      cases boxed
      have sides := sides_inUnits (c := c) (fits.trans bounds.high_length.symm)
        (fits.trans bounds.low_length.symm)
      exact congrArg (fun extent => Except.ok (Box.mk _ extent .override)) sides
  | none =>
      have boxed : Box.hull points.points = .ok box := boxed
      show Box.hull (points.points.map (PointPattern.inUnits c shift)) = _
      have lengths := points.length_eq
      cases rows : points.points with
      | nil => exact absurd rows points.points_ne_nil
      | cons first rest =>
          rw [rows] at boxed lengths
          cases boxed
          have first_length := lengths first List.mem_cons_self
          have others : ∀ row ∈ rest, row.length = points.dim :=
            fun row mem => lengths row (List.mem_cons_of_mem first mem)
          have low_length := length_foldl_zipWith (f := Scalar.min) first_length others
          have high_length := length_foldl_zipWith (f := Scalar.max) first_length others
          have sides := sides_inUnits (c := c) (fits.trans high_length.symm)
            (fits.trans low_length.symm)
          rw [List.map_cons, Box.hull, Box.lowest, Box.highest,
            foldl_zipWith_inUnits (min_inUnits positive),
            foldl_zipWith_inUnits (max_inUnits positive)]
          exact congrArg (fun extent => Except.ok (Box.mk _ extent .data)) sides

/-! ## Samples in other coordinates -/

omit [LinearOrder K] [IsStrictOrderedRing K] [Scalar K] [Scalar.Exact K] in
theorem Box.Spans.inUnits {b : Box K} {dim : ℕ} (spans : b.Spans dim) (fits : shift.length = dim) :
    (b.inUnits c shift).Spans dim where
  low := (length_inUnits (fits.trans spans.low.symm)).trans spans.low
  extent := (List.length_map _).trans spans.extent

omit [LinearOrder K] [IsStrictOrderedRing K] [Scalar K] [Scalar.Exact K] in
theorem Box.Spans.place_inUnits {b : Box K} {dim : ℕ} (spans : b.Spans dim)
    (fits : shift.length = dim) (row : List K) :
    (b.inUnits c shift).place dim row = PointPattern.inUnits c shift (b.place dim row) := by
  have spans' := spans.inUnits (c := c) fits
  rw [Box.place, Box.place, stretch_of_length spans.low, stretch_of_length spans.extent,
    stretch_of_length spans'.low, stretch_of_length spans'.extent]
  exact zipWith_place_inUnits b.low _ b.extent

omit [IsStrictOrderedRing K] [Scalar K] [Scalar.Exact K] [LinearOrder K] in
/-- A row that is found is found in other coordinates. -/
theorem rowAt_inUnits (rows : List (List K)) (number : ℤ) :
    rowAt (rows.map (inUnits c shift)).toArray number =
      (rowAt rows.toArray number).map (inUnits c shift) := by
  simp only [rowAt, List.size_toArray, List.length_map, List.getElem?_toArray, List.getElem?_map]
  generalize (if number < 0 then number + rows.length else number) = position
  split
  · rfl
  · cases rows[position.toNat]? <;> rfl

omit [IsStrictOrderedRing K] [Scalar K] [Scalar.Exact K] [LinearOrder K] in
theorem mapM_rowAt_inUnits (rows : List (List K)) (numbers : List ℤ) :
    numbers.mapM (rowAt (rows.map (inUnits c shift)).toArray) =
      (numbers.mapM (rowAt rows.toArray)).map (List.map (inUnits c shift)) := by
  induction numbers with
  | nil => rfl
  | cons number rest ih =>
      rw [List.mapM_cons, List.mapM_cons, ih, rowAt_inUnits]
      cases rowAt rows.toArray number with
      | error e => rfl
      | ok row => cases rest.mapM (rowAt rows.toArray) <;> rfl

/-! ## Distances in other coordinates -/

variable {measure : List K → List K → K} {dim : ℕ} {corpus : List (List K)}

omit [LinearOrder K] [IsStrictOrderedRing K] [Scalar K] [Scalar.Exact K] in
theorem IsEquivariant.measure_inUnits (equivariant : IsEquivariant measure dim c)
    (fits : shift.length = dim) {x y : List K} (x_length : x.length = dim)
    (y_length : y.length = dim) :
    measure (inUnits c shift x) (inUnits c shift y) = c * measure x y := by
  have x_scaled : (x.map (c * ·)).length = dim := (List.length_map _).trans x_length
  have y_scaled : (y.map (c * ·)).length = dim := (List.length_map _).trans y_length
  rw [inUnits, inUnits, equivariant.shifted _ _ _ x_scaled y_scaled fits,
    equivariant.scaled x y x_length y_length]

theorem keepsOrder_mul (positive : 0 < c) : KeepsOrder fun x : K => c * x := by
  intro x y
  have less := less_inUnits positive x y 0
  rw [add_zero, add_zero] at less
  simp [Scalar.before, less]

/-- The distance of a rank is scaled. -/
theorem IsEquivariant.rankedDistance_inUnits (equivariant : IsEquivariant measure dim c)
    (positive : 0 < c) (fits : shift.length = dim)
    (corpus_lengths : ∀ row ∈ corpus, row.length = dim) (rank : ℕ) {query : List K}
    (query_length : query.length = dim) :
    Oracle.rankedDistance measure (corpus.map (inUnits c shift)) rank (inUnits c shift query) =
      c * Oracle.rankedDistance measure corpus rank query := by
  have distances : (corpus.map (inUnits c shift)).map (measure (inUnits c shift query)) =
      (corpus.map (measure query)).map (c * ·) := by
    rw [List.map_map, List.map_map]
    apply List.map_congr_left
    intro row mem
    exact equivariant.measure_inUnits fits query_length (corpus_lengths row mem)
  rw [Oracle.rankedDistance, Oracle.rankedDistance, distances,
    kthSmallest?_map (keepsOrder_mul positive)]
  cases kthSmallest? rank (corpus.map (measure query)) with
  | none => simp
  | some x => rfl

theorem isDistance_mul (positive : 0 < c) (x : K) : isDistance (c * x) = isDistance x := by
  rw [Bool.eq_iff_iff, isDistance_iff, isDistance_iff, mul_nonneg_iff_of_pos_left positive]

/-- Failures that differ at most in the number that they complain of. -/
inductive Error.SameComplaint : Error → Error → Prop
  | refl (e : Error) : SameComplaint e e
  | invalidDistance (text text' : String) (position : ℕ) (rank : ℤ) :
      SameComplaint
        (.oracle (.invalidDistance text position rank) (some rank) (some position))
        (.oracle (.invalidDistance text' position rank) (some rank) (some position))

/-- The same answers pass, and the complaint is about the same query. -/
theorem checkDistances_mul (positive : 0 < c) (rank : ℤ) (xs : List K) :
    Corresponds Error.SameComplaint (fun ys ys' => ys' = ys.map (c * ·))
      (checkDistances rank xs) (checkDistances rank (xs.map (c * ·))) := by
  have same : (xs.map (c * ·)).findIdx? (fun x => !isDistance x) =
      xs.findIdx? fun x => !isDistance x := by
    rw [List.findIdx?_map]
    exact congrArg (fun check => xs.findIdx? check)
      (funext fun x => congrArg not (isDistance_mul positive x))
  rw [checkDistances, checkDistances, same]
  cases xs.findIdx? fun x => !isDistance x with
  | none => exact .ok rfl
  | some position => exact .error (.invalidDistance _ _ _ _)

omit [IsStrictOrderedRing K] in
/-- A sum of powers is scaled by the power of the scale. -/
theorem aggregate_mul (xs : List K) (dim : ℕ) :
    aggregate (xs.map (c * ·)) dim = (aggregate xs dim).map (c ^ dim * ·) := by
  have powers : (xs.map (c * ·)).map (Scalar.power · (dim : ℤ)) =
      (xs.map (Scalar.power · (dim : ℤ))).map (c ^ dim * ·) := by
    rw [List.map_map, List.map_map]
    apply List.map_congr_left
    intro x _
    simp [mul_pow]
  rw [aggregate, aggregate, powers, Scalar.Exact.sum_eq, Scalar.Exact.sum_eq,
    List.sum_map_mul_left, List.map_id']
  rfl

/-! ## Repetitions in other coordinates -/

/-- The trial with both sums multiplied and with the same share. -/
def Trial.rescale (factor : K) (t : Trial K) : Trial K := ⟨factor * t.u, factor * t.w, t.h⟩

/-- A common factor of both sums does not change their share. -/
theorem ofSums_mul {factor : K} (positive : 0 < factor) (u w : K) :
    Trial.ofSums (factor * u) (factor * w) = (Trial.ofSums u w).rescale factor := by
  have total : factor * u + factor * w = factor * (u + w) := (mul_add factor u w).symm
  have less : Scalar.less Scalar.zero (factor * (u + w)) = Scalar.less Scalar.zero (u + w) := by
    rw [Bool.eq_iff_iff]
    simp [positive]
  rw [Trial.ofSums, Trial.ofSums, Trial.rescale, total]
  dsimp only
  rw [less, mul_div_mul_left u (u + w) positive.ne']

variable {σ τ : Type} {o : Oracle σ K} {o' : Oracle τ K} {data : PointSet K} {box : Box K} {k : ℕ}

/-- Two oracles of which the second one answers in other coordinates: to the same rows with the
same distances up to the scale, or with the same complaint. -/
def Oracle.Rescales (c : K) (shift : List K) (o : Oracle σ K) (o' : Oracle τ K) (size dim : ℕ) :
    Prop :=
  ∀ {rank : ℤ} {rows : List (List K)}, 1 ≤ rank → rank ≤ size →
    (∀ row ∈ rows, row.length = dim) → ∀ (s : σ) (s' : τ),
      Corresponds Error.SameComplaint (fun xs xs' => xs' = xs.map (c * ·))
        (queryDistances o (.ofRows dim rows) rank s).1
        (queryDistances o' (.ofRows dim (rows.map (inUnits c shift))) rank s').1

/-- How a repetition on an oracle ends does not depend on what it was asked before. -/
def Oracle.Repeats (o : Oracle σ K) (data : PointSet K) (k : ℕ) : Prop :=
  ∀ {box : Box K}, box.Spans data.dim → ∀ (stream : ℕ → Stream) (size j : ℕ) (s t : σ),
    (repetition o (streamSource K) stream data box size k j s).1 =
      (repetition o (streamSource K) stream data box size k j t).1

section Repetitions

omit [LinearOrder K] [IsStrictOrderedRing K] [Scalar.Exact K] in
theorem Oracle.Measures.repeats (measures : o.Measures measure data) (rank_pos : 1 ≤ k)
    (rank_le : k + 1 ≤ data.size) : o.Repeats data k :=
  fun spans stream size j s t =>
    repetition_alike_of_computes measures measures spans rank_pos rank_le stream size j s t

omit [LinearOrder K] [IsStrictOrderedRing K] [Scalar.Exact K] in
theorem Oracle.IsStateless.repeats (stateless : o.IsStateless) :
    o.Repeats data k :=
  fun {box} _ stream size j s t =>
    stateless.endsAs (streamSource K) stream data box size k t j s

/-- Oracles that measure in both coordinates answer alike. -/
theorem Oracle.Measures.rescales (fits : shift.length = data.dim)
    (measures : o.Measures measure data)
    (measures' : o'.Measures measure (data.inUnits c shift fits)) (positive : 0 < c)
    (equivariant : IsEquivariant measure data.dim c) :
    o.Rescales c shift o' data.size data.dim := by
  intro rank rows rank_pos rank_le lengths s s'
  have rank_le' : rank ≤ (data.inUnits c shift fits).size := by rwa [PointSet.size_inUnits]
  have answers : (rows.map (inUnits c shift)).map (fun row =>
      Oracle.rankedDistance measure (data.inUnits c shift fits).points rank.toNat row) =
        (rows.map fun row => Oracle.rankedDistance measure data.points rank.toNat row).map
          (c * ·) := by
    rw [List.map_map, List.map_map]
    apply List.map_congr_left
    intro row mem
    exact equivariant.rankedDistance_inUnits positive fits data.length_eq rank.toNat
      (lengths row mem)
  have asked := measures.queryDistances rank_pos rank_le lengths s
  have asked' := measures'.queryDistances rank_pos rank_le' (lengths_inUnits c fits lengths) s'
  rw [answers] at asked'
  rw [asked]
  exact asked' ▸ checkDistances_mul positive rank _

omit [IsStrictOrderedRing K] in
/-- The sum over a sample is multiplied by the power of the scale. -/
theorem aggregate_queries_inUnits (rescales : o.Rescales c shift o' data.size data.dim) {rank : ℤ}
    (rank_pos : 1 ≤ rank) (rank_le : rank ≤ data.size) {rows : List (List K)}
    (lengths : ∀ row ∈ rows, row.length = data.dim) :
    Draw.Corresponds Error.SameComplaint (fun total total' => total' = c ^ data.dim * total)
      (do
        let xs ← Draw.query (queryDistances o (.ofRows data.dim rows) rank)
        Draw.query (Step.ofExcept (aggregate xs data.dim)) : Draw σ Stream K)
      (do
        let xs ← Draw.query
          (queryDistances o' (.ofRows data.dim (rows.map (inUnits c shift))) rank)
        Draw.query (Step.ofExcept (aggregate xs data.dim)) : Draw τ Stream K) := by
  refine .bind (.query (rescales rank_pos rank_le lengths)) ?_
  rintro xs _ rfl
  refine .query fun _ _ => ?_
  show Corresponds _ _ (aggregate xs data.dim) (aggregate (xs.map (c * ·)) data.dim)
  rw [aggregate_mul]
  exact corresponds_map .refl _ _

omit [IsStrictOrderedRing K] in
theorem sampleReal_inUnits (rescales : o.Rescales c shift o' data.size data.dim)
    (fits : shift.length = data.dim) (rank_le : k + 1 ≤ data.size) (size : ℤ) :
    Draw.Corresponds Error.SameComplaint (fun w w' => w' = c ^ data.dim * w)
      (sampleReal o (streamSource K) data size k)
      (sampleReal o' (streamSource K) (data.inUnits c shift fits) size k) := by
  have same_size : (data.inUnits c shift fits).size = data.size := data.size_inUnits c shift fits
  have numbers_drawn : Draw.Corresponds Error.SameComplaint (· = ·)
      (Draw.random ((streamSource K).choose data.size size) : Draw σ Stream (List ℤ))
      (Draw.random ((streamSource K).choose data.size size) : Draw τ Stream (List ℤ)) :=
    .random (fun _ => corresponds_self .refl _) fun _ => rfl
  rw [sampleReal, sampleReal, same_size]
  refine .bind numbers_drawn ?_
  rintro numbers _ rfl
  have rows_chosen : Draw.Corresponds Error.SameComplaint
      (fun chosen chosen' => (∀ row ∈ chosen, row.length = data.dim) ∧
        chosen' = chosen.map (inUnits c shift))
      (Draw.query (Step.ofExcept (numbers.mapM (rowAt data.points.toArray))) :
        Draw σ Stream (List (List K)))
      (Draw.query (Step.ofExcept (numbers.mapM
        (rowAt (data.inUnits c shift fits).points.toArray))) : Draw τ Stream (List (List K))) := by
    refine .query fun _ _ => ?_
    show Corresponds _ _ (numbers.mapM (rowAt data.points.toArray))
      (numbers.mapM (rowAt (data.points.map (inUnits c shift)).toArray))
    rw [mapM_rowAt_inUnits]
    cases found : numbers.mapM (rowAt data.points.toArray) with
    | error e => exact .error (.refl e)
    | ok chosen =>
        refine .ok ⟨fun row mem => ?_, rfl⟩
        exact data.length_eq row (by simpa using mem_of_mapM_rowAt found row mem)
  refine .bind rows_chosen ?_
  rintro chosen _ ⟨lengths, rfl⟩
  exact aggregate_queries_inUnits rescales (by omega) (by omega) lengths

omit [IsStrictOrderedRing K] in
theorem sampleUniform_inUnits (rescales : o.Rescales c shift o' data.size data.dim)
    (fits : shift.length = data.dim) (spans : box.Spans data.dim) (rank_pos : 1 ≤ k)
    (rank_le : k ≤ data.size) (size : ℕ) :
    Draw.Corresponds Error.SameComplaint (fun u u' => u' = c ^ data.dim * u)
      (sampleUniform o (streamSource K) box size k)
      (sampleUniform o' (streamSource K) (box.inUnits c shift) size k) := by
  have spans' : (box.inUnits c shift).Spans data.dim := spans.inUnits fits
  have points_drawn : Draw.Corresponds Error.SameComplaint
      (fun points points' => ∃ rows, (∀ row ∈ rows, row.length = data.dim) ∧
        points = .ofRows data.dim rows ∧
        points' = .ofRows data.dim (rows.map (inUnits c shift)))
      (Draw.random (box.sample (streamSource K) size) : Draw σ Stream (Grid K))
      (Draw.random ((box.inUnits c shift).sample (streamSource K) size) :
        Draw τ Stream (Grid K)) := by
    refine .random (fun g => ?_) fun g => ?_
    · rw [sample_eq spans, sample_eq spans']
      refine .ok ⟨_, fun row mem => ?_, rfl, ?_⟩
      · obtain ⟨values, values_mem, rfl⟩ := List.mem_map.1 mem
        apply spans.length_place
        exact Grid.length_of_mem_cut (Stream.length_uniforms _ _) values_mem
      · rw [List.map_map]
        apply congrArg (Grid.ofRows data.dim)
        apply List.map_congr_left
        intro values _
        exact spans.place_inUnits fits values
    · rw [sample_eq spans, sample_eq spans']
  rw [sampleUniform, sampleUniform, show box.dim = data.dim from spans.low,
    show (box.inUnits c shift).dim = data.dim from spans'.low]
  refine .bind points_drawn ?_
  rintro _ _ ⟨rows, lengths, rfl, rfl⟩
  exact aggregate_queries_inUnits rescales (by omega) (by omega) lengths

/-- A repetition draws the same numbers in other coordinates, and both of its sums are multiplied
by the same power of the scale. -/
theorem repetition_inUnits (positive : 0 < c) (rescales : o.Rescales c shift o' data.size data.dim)
    (fits : shift.length = data.dim) (spans : box.Spans data.dim) (rank_pos : 1 ≤ k)
    (rank_le : k + 1 ≤ data.size)
    (stream : ℕ → Stream) (size j : ℕ) (s : σ) (s' : τ) :
    Corresponds Error.SameComplaint (fun trial trial' => trial' = trial.rescale (c ^ data.dim))
      (repetition o (streamSource K) stream data box size k j s).1
      (repetition o' (streamSource K) stream (data.inUnits c shift fits) (box.inUnits c shift)
        size k j s').1 := by
  have factor_pos : 0 < c ^ data.dim := pow_pos positive data.dim
  have trials : Draw.Corresponds Error.SameComplaint
      (fun trial trial' => trial' = trial.rescale (c ^ data.dim))
      (runTrial o (streamSource K) data box size k)
      (runTrial o' (streamSource K) (data.inUnits c shift fits) (box.inUnits c shift) size k) := by
    refine .bind (sampleReal_inUnits rescales fits rank_le size) ?_
    rintro w _ rfl
    refine .bind (sampleUniform_inUnits rescales fits spans rank_pos (by omega) size) ?_
    rintro u _ rfl
    exact .pure (ofSums_mul factor_pos u w)
  exact (trials s s' (stream j)).1

end Repetitions

/-! ## Runs in other coordinates -/

/-- The numbers of a run and those of the same run in other coordinates. -/
structure Params.InUnits (c : K) (shift : List K) (p p' : Params K) : Prop where
  sampleSize : p'.sampleSize = p.sampleSize
  dim : p'.dim = p.dim
  k : p'.k = p.k
  repetitions : p'.repetitions = p.repetitions
  trials : p'.trials = p.trials.map (Trial.rescale (c ^ p.dim))
  hMean : p'.hMean = p.hMean
  hVariance : p'.hVariance = p.hVariance
  pValue : p'.pValue = p.pValue
  box : p'.box = p.box.inUnits c shift

variable {d : Design K} {fits : shift.length = d.points.dim}

/-- All repetitions of a design, in both coordinates. -/
theorem sampled_inUnits (b : Backend σ K) (b' : Backend τ K) {host host' : Host K}
    (positive : 0 < c) (rescales : o.Rescales c shift o' d.points.size d.points.dim)
    (repeats : o.Repeats d.points d.k)
    (repeats' : o'.Repeats (d.inUnits c shift fits).points d.k)
    (entropy : d.seed.getD host.freshEntropy = d.seed.getD host'.freshEntropy)
    (enough : d.k + 1 ≤ d.points.size) (s : σ) (s' : τ) :
    Corresponds Error.SameComplaint
      (fun summary summary' => summary.IsTallied ∧ summary'.IsTallied ∧
        summary'.trials = summary.trials.map (Trial.rescale (c ^ d.points.dim)))
      (b.sampled host d o s) (b'.sampled host' (d.inUnits c shift fits) o' s') := by
  let d' := d.inUnits c shift fits
  obtain ⟨box, boxed, spans⟩ := d.box_ok
  have boxed' : d'.box = .ok (box.inUnits c shift) := Design.box_inUnits positive fits boxed
  have spans' : (box.inUnits c shift).Spans d'.points.dim := spans.inUnits fits
  let stream := Backend.streamOf (d.seed.getD host.freshEntropy)
  have ends : EndsAs (repetition o (streamSource K) stream d.points box d.sampleSize d.k)
      fun j => (repetition o (streamSource K) stream d.points box d.sampleSize d.k j s).1 :=
    fun j t => repeats spans stream d.sampleSize j t s
  have ends' : EndsAs (repetition o' (streamSource K) stream d'.points (box.inUnits c shift)
      d'.sampleSize d'.k) fun j => (repetition o' (streamSource K) stream d'.points
        (box.inUnits c shift) d'.sampleSize d'.k j s').1 :=
    fun j t => repeats' spans' stream d'.sampleSize j t s'
  refine Backend.sampled_correspond boxed boxed' ends ends' (fun j => ?_) entropy rfl s s'
  exact repetition_inUnits positive rescales fits spans d.k_pos enough stream d.sampleSize j s s'

omit [LinearOrder K] [IsStrictOrderedRing K] [Scalar.Exact K] in
/-- The shares of rescaled trials are counted as those of the trials. -/
theorem tally_h_of_rescaled {summary summary' : Summary K} {factor : K}
    (tallied : summary.IsTallied) (tallied' : summary'.IsTallied)
    (rescaled : summary'.trials = summary.trials.map (Trial.rescale factor)) :
    summary'.tally.h = summary.tally.h := by
  rw [tallied, tallied', Tally.ofList_eq, Tally.ofList_eq, rescaled, List.map_map]
  rfl

variable [Roots K] [BetaTails K] [BetaTails.Exact K]

/-- A run in other coordinates ends as the run does. -/
theorem solve_corresponds {b : Backend σ K} {b' : Backend τ K} {host host' : Host K}
    (positive : 0 < c) (ready : b.oracle d.points = .ok o)
    (ready' : b'.oracle (d.inUnits c shift fits).points = .ok o')
    (rescales : o.Rescales c shift o' d.points.size d.points.dim)
    (repeats : d.k + 1 ≤ d.points.size → o.Repeats d.points d.k)
    (repeats' : d.k + 1 ≤ d.points.size → o'.Repeats (d.inUnits c shift fits).points d.k)
    (entropy : d.seed.getD host.freshEntropy = d.seed.getD host'.freshEntropy) (s : σ) (s' : τ) :
    Corresponds Error.SameComplaint
      (fun report report' => report.params.InUnits c shift report'.params)
      (b.solve host d s).1 (b'.solve host' (d.inUnits c shift fits) s').1 := by
  let d' := d.inUnits c shift fits
  have same_size : d'.points.size = d.points.size := d.points.size_inUnits c shift fits
  rcases Nat.lt_or_ge d.points.size (d.k + 1) with few | enough
  · have few' : d'.points.size < d'.k + 1 := same_size ▸ few
    rw [Backend.solve_of_few host s (Backend.checkBuilt_of_oracle ready) few,
      Backend.solve_of_few host' s' (Backend.checkBuilt_of_oracle ready') few', same_size]
    exact .error (.refl _)
  obtain ⟨box, boxed, -⟩ := d.box_ok
  have boxed' : d'.box = .ok (box.inUnits c shift) := Design.box_inUnits positive fits boxed
  have enough' : d'.k + 1 ≤ d'.points.size := same_size ▸ enough
  have sampled := sampled_inUnits b b' positive rescales (repeats enough) (repeats' enough) entropy
    enough s s'
  refine Backend.solve_correspond (Params.InUnits c shift) ready ready' enough enough' boxed boxed'
    sampled ?_
  rintro summary summary' pValue pValue' ⟨tallied, tallied', rescaled⟩ significance significance'
  have shares : summary'.tally.h = summary.tally.h := tally_h_of_rescaled tallied tallied' rescaled
  rw [shares] at significance'
  have same_pValue : pValue' = pValue := Except.ok.inj (significance'.symm.trans significance)
  exact ⟨rfl, rfl, rfl, rfl, rescaled, congrArg Moments.mean shares,
    congrArg Moments.variance shares, same_pValue, rfl⟩

/-! ## The oracles of the library -/

omit [BetaTails K] [BetaTails.Exact K] in
/-- The default oracles of a metric that depends on the unit alone answer alike in both
coordinates. If they refuse, they do so in both. -/
theorem ofMetric_rescales (positive : 0 < c) {points : PointSet K}
    (fits : shift.length = points.dim) {metric : Value} {settings : List (String × Value)}
    {resolved : Metric}
    (found : Metric.resolve metric points.dim settings = .ok resolved)
    (equivariant : IsEquivariant (resolved.distance : List K → List K → K) points.dim c) :
    ∃ (o : Oracle σ K) (o' : Oracle τ K), Oracle.ofMetric points metric settings = .ok o ∧
      Oracle.ofMetric (points.inUnits c shift fits) metric settings = .ok o' ∧
      o.Rescales c shift o' points.size points.dim := by
  let points' := points.inUnits c shift fits
  rcases searched_of_resolve found with searched | ⟨order?, chosen, searched⟩
  · have searched' : Metric.searched metric points'.dim settings = .ok resolved := searched
    obtain ⟨o, ready, measures⟩ := measures_of_searched searched
    obtain ⟨o', ready', measures'⟩ := measures_of_searched searched'
    exact ⟨o, o', ready, ready',
      Oracle.Measures.rescales fits measures measures' positive equivariant⟩
  · have searched' : Metric.searched metric points'.dim settings =
      .error (.metric .orderBelowOne) := searched
    obtain ⟨o, ready, refuses⟩ := refuses_of_searched chosen searched
    obtain ⟨o', ready', refuses'⟩ := refuses_of_searched chosen searched'
    refine ⟨o, o', ready, ready', ?_⟩
    intro rank rows rank_pos rank_le lengths s s'
    have rank_le' : rank ≤ points'.size := by rwa [PointSet.size_inUnits]
    have refused := refuses rank_pos rank_le lengths s
    have refused' := refuses' rank_pos rank_le' (lengths_inUnits c fits lengths) s'
    rw [List.length_map, show points'.dim = points.dim from rfl] at refused'
    rw [refused, refused']
    exact .error (.refl _)

/-! ## Metrics -/

omit [IsStrictOrderedRing K] [LinearOrder K] [Scalar K] [Scalar.Exact K] [Roots K] [BetaTails K]
  [BetaTails.Exact K] in
/-- A fold over the differences of coordinates does not depend on the origin. -/
theorem foldPairs_shifted {step : K → K → K → K}
    (same : ∀ acc a b z, step acc (a + z) (b + z) = step acc a b) (acc : K) {x y shift : List K}
    (x_fits : x.length = shift.length) (y_fits : y.length = shift.length) :
    Metric.foldPairs step acc (List.zipWith (· + ·) x shift) (List.zipWith (· + ·) y shift) =
      Metric.foldPairs step acc x y := by
  induction x generalizing y shift acc with
  | nil => cases shift <;> rfl
  | cons a x ih =>
      cases shift with
      | nil => cases x_fits
      | cons z shift =>
          cases y with
          | nil => cases y_fits
          | cons b y =>
              have rest := ih (step acc a b) (Nat.succ.inj x_fits) (Nat.succ.inj y_fits)
              simp only [List.zipWith_cons_cons, Metric.foldPairs, same]
              exact rest

omit [IsStrictOrderedRing K] [LinearOrder K] [Scalar K] [Scalar.Exact K] [Roots K] [BetaTails K]
  [BetaTails.Exact K] in
/-- A fold whose steps are scaled is scaled. -/
theorem foldPairs_scaled {step : K → K → K → K}
    (scaled : ∀ acc a b, step (c * acc) (c * a) (c * b) = c * step acc a b) (acc : K)
    (x y : List K) :
    Metric.foldPairs step (c * acc) (x.map (c * ·)) (y.map (c * ·)) =
      c * Metric.foldPairs step acc x y := by
  induction x generalizing y acc with
  | nil => rfl
  | cons a x ih =>
      cases y with
      | nil => rfl
      | cons b y =>
          simp only [List.map_cons, Metric.foldPairs, scaled]
          exact ih (step acc a b) y

omit [IsStrictOrderedRing K] [LinearOrder K] [Scalar.Exact K] [BetaTails K] [BetaTails.Exact K] in
theorem minkowskiDistance_one (x y : List K) :
    Metric.minkowskiDistance 1 x y =
      Metric.foldPairs (fun acc a b => acc + Scalar.abs (a - b)) Scalar.zero x y := by
  have not_two : ¬((1 : Float) == 2) = true := by decide +kernel
  have one : ((1 : Float) == 1) = true := by decide +kernel
  rw [Metric.minkowskiDistance, if_neg not_two, if_pos one]

omit [BetaTails K] [BetaTails.Exact K] in
/-- The sum of absolute differences depends on the unit alone. -/
theorem isEquivariant_minkowski_one (positive : 0 < c) (dim : ℕ) :
    IsEquivariant (Metric.minkowskiDistance (K := K) 1) dim c where
  shifted x y shift x_length y_length shift_length := by
    rw [minkowskiDistance_one, minkowskiDistance_one]
    refine foldPairs_shifted (fun acc a b z => ?_) Scalar.zero (x_length.trans shift_length.symm)
      (y_length.trans shift_length.symm)
    rw [add_sub_add_right_eq_sub]
  scaled x y _ _ := by
    have zero : c * (Scalar.zero : K) = Scalar.zero := by simp
    rw [minkowskiDistance_one, minkowskiDistance_one]
    nth_rewrite 1 [← zero]
    refine foldPairs_scaled (fun acc a b => ?_) Scalar.zero x y
    rw [Scalar.Exact.abs_eq, Scalar.Exact.abs_eq, ← mul_sub, abs_mul, abs_of_pos positive, mul_add]

end Exact

/-- Units and origin do not matter. Take any design, any entropy, any translation, any positive
scale, and a measure that does not depend on the origin and is multiplied by the scale if both
points are. On oracles that answer with the distances of the ranks by this measure, the run of the
design and the run in the other coordinates correspond: both return, where the second has both sums
of every repetition multiplied by the scale to the power of the number of axes, and the same
shares, the same mean and variance of the shares and the same p-value; or both complain, at most
about another number. The same is true of the default oracles of every metric that exhaustive
search can measure by, also if they refuse the metric. -/
theorem solve_inUnits {σ τ K : Type} [Field K] [LinearOrder K] [IsStrictOrderedRing K] [Scalar K]
    [Scalar.Exact K] [Roots K] [BetaTails K] [BetaTails.Exact K] (host host' : Host K)
    (d : Design K) {c : K} {shift : List K} (positive : 0 < c)
    (fits : shift.length = d.points.dim)
    (entropy : d.seed.getD host.freshEntropy = d.seed.getD host'.freshEntropy) (s : σ) (s' : τ) :
    (∀ (b : Backend σ K) (b' : Backend τ K) (o : Oracle σ K) (o' : Oracle τ K)
      (measure : List K → List K → K),
      b.oracle d.points = .ok o → o.Measures measure d.points →
      b'.oracle (d.inUnits c shift fits).points = .ok o' →
      o'.Measures measure (d.inUnits c shift fits).points →
      IsEquivariant measure d.points.dim c →
      Corresponds Error.SameComplaint
        (fun report report' => report.params.InUnits c shift report'.params)
        (b.solve host d s).1 (b'.solve host' (d.inUnits c shift fits) s').1) ∧
    ∀ (metric : Value) (settings : List (String × Value)) (resolved : Metric),
      Metric.resolve metric d.points.dim settings = .ok resolved →
      IsEquivariant (resolved.distance : List K → List K → K) d.points.dim c →
      Corresponds Error.SameComplaint
        (fun report report' => report.params.InUnits c shift report'.params)
        ((Backend.processor metric settings).solve host d s).1
        ((Backend.processor metric settings).solve host' (d.inUnits c shift fits) s').1 := by
  constructor
  · intro b b' o o' measure ready measures ready' measures' equivariant
    have same_size : (d.inUnits c shift fits).points.size = d.points.size :=
      d.points.size_inUnits c shift fits
    have rescales : o.Rescales c shift o' d.points.size d.points.dim :=
      Oracle.Measures.rescales fits measures measures' positive equivariant
    exact solve_corresponds positive ready ready' rescales
      (fun enough => measures.repeats d.k_pos enough)
      (fun enough => measures'.repeats d.k_pos (same_size ▸ enough)) entropy s s'
  · intro metric settings resolved found equivariant
    obtain ⟨o, o', ready, ready', rescales⟩ := ofMetric_rescales positive fits found equivariant
    have prepared : (Backend.processor metric settings : Backend σ K).oracle d.points = .ok o :=
      (Backend.oracle_processor metric settings d.points).trans ready
    have prepared' : (Backend.processor metric settings : Backend τ K).oracle
        (d.inUnits c shift fits).points = .ok o' :=
      (Backend.oracle_processor metric settings _).trans ready'
    have stateless := Backend.isStateless_processor metric settings d.points o prepared
    have stateless' := Backend.isStateless_processor metric settings _ o' prepared'
    exact solve_corresponds positive prepared prepared' rescales (fun _ => stateless.repeats)
      (fun _ => stateless'.repeats) entropy s s'

/-- Three points of a line in half the unit and with another origin, with the sum of absolute
differences for a metric. -/
theorem solve_inUnits_threeRun :
    ∃ report report',
      ((Backend.processor (.text "cityblock") [] : Backend Unit ℚ).solve twoProcessors threeRun
        ()).1 = .ok report ∧
      ((Backend.processor (.text "cityblock") [] : Backend Unit ℚ).solve twoProcessors
        (threeRun.inUnits 2 [5] rfl) ()).1 = .ok report' ∧
      report.params.InUnits 2 [5] report'.params := by
  have positive : (0 : ℚ) < 2 := by norm_num
  have norm : ¬(1 : Float) < 1 := by decide +kernel
  obtain ⟨report, solved, -⟩ := report_of_answers twoProcessors ()
    (rfl : (Backend.processor (.text "cityblock") [] : Backend Unit ℚ).oracle threeRun.points =
      .ok (Oracle.tree threeRun.points 1)) (by decide) (answers_tree threeRun.points norm)
  have fits : ([5] : List ℚ).length = threeRun.points.dim := rfl
  have corresponds := (solve_inUnits twoProcessors twoProcessors threeRun positive fits rfl () ()).2
    (.text "cityblock") [] (.minkowski 1 none) rfl
    (isEquivariant_minkowski_one positive 1)
  rw [solved] at corresponds
  generalize ((Backend.processor (.text "cityblock") [] : Backend Unit ℚ).solve twoProcessors
    (threeRun.inUnits 2 [5] fits) ()).1 = ended at corresponds ⊢
  cases corresponds with
  | ok result => exact ⟨report, _, solved, rfl, result⟩

end PointPattern
