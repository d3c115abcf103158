/-
# How a repetition ends

On a checked design nothing but the oracle and the sums can spoil a repetition: the rows
that are chosen exist, the box has as many sides as the data have axes, and all rows that
are asked about have as many coordinates. What is known of the sums depends on the kind of
number and is a parameter here: the powers of distances have a sum as described, or the sum
fails as described.
-/

import PointPattern.Design
import PointPattern.Proofs.Queries
import PointPattern.Proofs.Random.Range

namespace PointPattern

open PointPattern.Random

/-! ## Rows -/

section Rows

variable {σ γ K α β : Type} {fails : Error → Prop}

theorem Draw.ends_bind (good : α → Prop) {good' : β → Prop} {m : Draw σ γ α}
    {f : α → Draw σ γ β} {from_state : σ × γ} (first : Ends fails good (m from_state).1)
    (second : ∀ a, good a → ∀ t, Ends fails good' (f a t).1) :
    Ends fails good' ((m >>= f) from_state).1 := by
  simp only [Bind.bind, ExceptT.bind, ExceptT.mk, StateT.bind]
  rcases ran : m from_state with ⟨result, t⟩
  rw [ran] at first
  cases first with
  | error failure => exact .error failure
  | ok result => exact second _ result t

/-- A row that is found is one of the rows. -/
theorem mem_of_rowAt {rows : Array (List K)} {number : ℤ} {row : List K}
    (found : rowAt rows number = .ok row) : row ∈ rows.toList := by
  rw [rowAt] at found
  generalize (if number < 0 then number + rows.size else number) = position at found
  split at found
  · cases found
  · split at found
    · next at_place =>
        cases found
        exact Array.mem_toList_iff.2 (Array.mem_of_getElem? at_place)
    · cases found

theorem mem_of_mapM_rowAt {rows : Array (List K)} {numbers : List ℤ} {chosen : List (List K)}
    (found : numbers.mapM (rowAt rows) = .ok chosen) : ∀ row ∈ chosen, row ∈ rows.toList := by
  induction numbers generalizing chosen with
  | nil =>
      cases found
      intro row mem
      cases mem
  | cons number rest ih =>
      rw [List.mapM_cons] at found
      cases first : rowAt rows number with
      | error e =>
          rw [first] at found
          cases found
      | ok row =>
          cases others : rest.mapM (rowAt rows) with
          | error e =>
              rw [first, others] at found
              cases found
          | ok tail =>
              rw [first, others] at found
              cases found
              intro row' mem
              rcases List.mem_cons.1 mem with rfl | later
              · exact mem_of_rowAt first
              · exact ih others row' later

theorem rowAt_natCast (rows : List (List K)) {number : ℕ} (inside : number < rows.length) :
    rowAt rows.toArray number = .ok (rows.getD number []) := by
  have natural : ¬(number : ℤ) < 0 := by omega
  simp only [rowAt, if_neg natural, Int.toNat_natCast, List.getElem?_toArray,
    List.getD_eq_getElem?_getD, List.getElem?_eq_getElem inside, Option.getD_some]

/-- Rows that exist are found. -/
theorem mapM_rowAt (rows : List (List K)) {numbers : List ℕ}
    (exist : ∀ number ∈ numbers, number < rows.length) :
    (numbers.map fun (number : ℕ) => (number : ℤ)).mapM (rowAt rows.toArray) =
      .ok (numbers.map fun number => rows.getD number []) := by
  induction numbers with
  | nil => rfl
  | cons number rest ih =>
      have first := rowAt_natCast rows (exist number List.mem_cons_self)
      have others := ih fun other mem => exist other (List.mem_cons_of_mem number mem)
      rw [List.map_cons, List.mapM_cons, first, others]
      rfl

/-- A box with as many sides as its corner has coordinates. -/
structure Box.Spans (b : Box K) (dim : ℕ) : Prop where
  low : b.low.length = dim
  extent : b.extent.length = dim

theorem length_foldl_zipWith {f : K → K → K} {dim : ℕ} {rows : List (List K)} {first : List K}
    (first_length : first.length = dim) (lengths : ∀ row ∈ rows, row.length = dim) :
    (rows.foldl (List.zipWith f) first).length = dim := by
  induction rows generalizing first with
  | nil => exact first_length
  | cons row rest ih =>
      refine ih ?_ fun other mem => lengths other (List.mem_cons_of_mem row mem)
      rw [List.length_zipWith, first_length, lengths row List.mem_cons_self, Nat.min_self]

theorem stretch_of_length {length : ℕ} {xs : List K} (fits : xs.length = length) :
    stretch length xs = xs := if_pos fits

variable [Scalar K]

@[simp]
theorem Random.Stream.length_uniforms [Div K] (n : ℕ) (s : Stream) :
    (s.uniforms (K := K) n).1.length = n := by
  induction n generalizing s with
  | zero => rfl
  | succ n ih => exact congrArg (· + 1) (ih _)

omit [Scalar K] in
theorem Box.Spans.length_place [Add K] [Mul K] {b : Box K} {dim : ℕ} (spans : b.Spans dim)
    {row : List K} (row_length : row.length = dim) : (b.place dim row).length = dim := by
  rw [Box.place, stretch_of_length spans.low, stretch_of_length row_length,
    stretch_of_length spans.extent, List.length_zipWith, List.length_zipWith, spans.low,
    spans.extent, row_length, Nat.min_self, Nat.min_self]

/-- The points that are drawn from a box that has all its sides. -/
theorem sample_eq [Add K] [Mul K] [Div K] {b : Box K} {dim : ℕ} (spans : b.Spans dim)
    (size : ℕ) (g : Stream) :
    b.sample (streamSource K) size g =
      (.ok (.ofRows dim ((Grid.cut size dim (g.uniforms (size * dim)).1).map (b.place dim))),
        (g.uniforms (K := K) (size * dim)).2) := by
  have natural : ¬(size : ℤ) < 0 := by omega
  have dim_eq : b.dim = dim := spans.low
  have one_axis : Grid.sizeOf [dim] = dim := Nat.one_mul dim
  simp only [Box.sample, streamSource, fillBlock, if_neg natural, Box.width, commonLength,
    dim_eq, spans.extent, Int.toNat_natCast, if_true, Grid.subgrids, one_axis, List.map_map]
  rfl

/-- Points are always drawn from a box that has all its sides, and they have as many
coordinates. -/
theorem sample_ok [Add K] [Mul K] [Div K] {b : Box K} {dim : ℕ} (spans : b.Spans dim)
    (size : ℕ) (g : Stream) :
    ∃ rows, (∀ row ∈ rows, row.length = dim) ∧
      (b.sample (streamSource K) size g).1 = .ok (.ofRows dim rows) := by
  refine ⟨_, ?_, congrArg Prod.fst (sample_eq spans size g)⟩
  intro row mem
  obtain ⟨values, values_mem, rfl⟩ := List.mem_map.1 mem
  apply spans.length_place
  exact Grid.length_of_mem_cut (Stream.length_uniforms _ _) values_mem

/-- A design has a box, and the box has all its sides. -/
theorem Design.box_ok [Sub K] (d : Design K) : ∃ b, d.box = .ok b ∧ b.Spans d.points.dim := by
  rw [Design.box]
  cases d.bounds with
  | some bounds =>
      refine ⟨bounds.box, rfl, bounds.low_length, ?_⟩
      rw [Bounds.box, List.length_zipWith, bounds.high_length, bounds.low_length, Nat.min_self]
  | none =>
      have lengths := d.points.length_eq
      cases rows : d.points.points with
      | nil => exact absurd rows d.points.points_ne_nil
      | cons first rest =>
          rw [rows] at lengths
          have first_length := lengths first List.mem_cons_self
          have others : ∀ row ∈ rest, row.length = d.points.dim :=
            fun row mem => lengths row (List.mem_cons_of_mem first mem)
          have lowest := length_foldl_zipWith (f := Scalar.min) first_length others
          have highest := length_foldl_zipWith (f := Scalar.max) first_length others
          refine ⟨_, rfl, lowest, ?_⟩
          rw [Box.ofCorners, List.length_zipWith, Box.highest, Box.lowest, highest, lowest,
            Nat.min_self]

end Rows

/-! ## Repetitions -/

section Repetitions

variable {σ K : Type} [Scalar K]

/-- The sum over a sample with the given rows. -/
def sumOver (o : Oracle σ K) (dim : ℕ) (rank : ℤ) (rows : List (List K)) : Draw σ Stream K := do
  let xs ← Draw.query (queryDistances o (.ofRows dim rows) rank)
  Draw.query (Step.ofExcept (aggregate xs dim))

variable {fails : Error → Prop} {good : K → Prop} {o : Oracle σ K} {data : PointSet K}
variable {box : Box K} {size dim k : ℕ}

section Composed

variable [Div K]

/-- The real sample consists of rows of the data, whatever is known of the sums over them. -/
theorem sampleReal_ends_of_rows (enough : size ≤ data.size) {g : Stream} (keeps : g.KeepsWord)
    (s : σ) (each : ∀ rows, (∀ row ∈ rows, row ∈ data.points) →
      ∀ t, Ends fails good (sumOver o data.dim (k + 1) rows t).1) :
    Ends fails good (sampleReal o (streamSource K) data size k (s, g)).1 := by
  refine Draw.ends_bind (fun numbers => ∃ rows : List ℕ,
    numbers = (rows.map fun (row : ℕ) => (row : ℤ)) ∧ ∀ row ∈ rows, row < data.size) ?_ ?_
  · obtain ⟨rows, exist, chosen⟩ := streamSource_choose (K := K) enough keeps
    show Ends _ _ ((streamSource K).choose data.size size g).1
    rw [chosen]
    exact .ok ⟨rows, rfl, exist⟩
  · rintro _ ⟨numbers, rfl, exist⟩ t
    apply Draw.ends_bind (fun rows => ∀ row ∈ rows, row ∈ data.points)
    · have found := mapM_rowAt data.points exist
      show Ends _ _ ((numbers.map fun (row : ℕ) => (row : ℤ)).mapM (rowAt data.points.toArray))
      rw [found]
      exact .ok fun row mem => by simpa using mem_of_mapM_rowAt found row mem
    · exact each

variable [Add K] [Mul K]

/-- The uniform sample consists of rows with as many coordinates as the data have axes. -/
theorem sampleUniform_ends_of_rows (spans : box.Spans data.dim) (from_state : σ × Stream)
    (each : ∀ rows : List (List K), (∀ row ∈ rows, row.length = data.dim) →
      ∀ t, Ends fails good (sumOver o data.dim k rows t).1) :
    Ends fails good (sampleUniform o (streamSource K) box size k from_state).1 := by
  apply Draw.ends_bind (fun points => ∃ rows, (∀ row ∈ rows, row.length = data.dim) ∧
    points = .ofRows data.dim rows)
  · obtain ⟨rows, lengths, drawn⟩ := sample_ok spans size from_state.2
    show Ends _ _ (box.sample (streamSource K) size from_state.2).1
    rw [drawn]
    exact .ok ⟨rows, lengths, rfl⟩
  · rintro _ ⟨rows, lengths, rfl⟩ t
    rw [show box.dim = data.dim from spans.low]
    exact each rows lengths t

/-- A repetition on a stream that a seed starts ends as the sums over its samples do. -/
theorem repetition_ends_of_rows {goodTrial : Trial K → Prop}
    (composed : ∀ u w, good u → good w → goodTrial (Trial.ofSums u w))
    (enough : size ≤ data.size) (spans : box.Spans data.dim) {stream : ℕ → Stream}
    (keeps : ∀ j, (stream j).KeepsWord)
    (real : ∀ rows, (∀ row ∈ rows, row ∈ data.points) →
      ∀ t, Ends fails good (sumOver o data.dim (k + 1) rows t).1)
    (uniform : ∀ rows : List (List K), (∀ row ∈ rows, row.length = data.dim) →
      ∀ t, Ends fails good (sumOver o data.dim k rows t).1) (j : ℕ) (s : σ) :
    Ends fails goodTrial (repetition o (streamSource K) stream data box size k j s).1 := by
  show Ends _ _ (runTrial o (streamSource K) data box size k (s, stream j)).1
  apply Draw.ends_bind good (sampleReal_ends_of_rows enough (keeps j) s real)
  intro w w_good t
  apply Draw.ends_bind good (sampleUniform_ends_of_rows spans t uniform)
  intro u u_good t'
  exact .ok (composed u w u_good w_good)

end Composed

/-! ## Sums as described -/

/-- The powers of distances have a sum as described, or the sum fails as described. -/
def SumsAs (fails : Error → Prop) (good : K → Prop) : Prop :=
  ∀ (xs : List K) (dim : ℕ), (∀ x ∈ xs, isDistance x = true) →
    Ends fails good (aggregate xs dim)

/-- How a repetition may fail: a sum fails as described, or the oracle does not answer. -/
def FailsBy (fails : Error → Prop) (o : Oracle σ K) (size dim : ℕ) (e : Error) : Prop :=
  fails e ∨ e.IsOracleFailure ∧ ¬o.Answers size dim

/-- The sum over a sample is as described. -/
theorem sumOver_ends (sums : SumsAs fails good) {rank : ℤ} (rank_pos : 1 ≤ rank)
    (rank_le : rank ≤ size) (rows : List (List K)) (from_state : σ × Stream) :
    Ends (FailsBy fails o size dim) good (sumOver o dim rank rows from_state).1 := by
  apply Draw.ends_bind (fun xs => ∀ x ∈ xs, isDistance x = true)
  · exact (queryDistances_ends rank_pos rank_le rows from_state.1).mono
      (fun _ failure => .inr failure) fun _ distances => distances
  · intro xs distances t
    exact (sums xs dim distances).mono (fun _ failed => .inl failed) fun _ total => total

variable [Add K] [Mul K] [Div K]

/-- A repetition on a stream that a seed starts ends with two sums as described, or because
the oracle does not answer, or because a sum fails. -/
theorem repetition_ends_of_sums (sums : SumsAs fails good) {goodTrial : Trial K → Prop}
    (composed : ∀ u w, good u → good w → goodTrial (Trial.ofSums u w))
    (enough : size ≤ data.size) (spans : box.Spans data.dim) (rank_pos : 1 ≤ k)
    (rank_le : k + 1 ≤ data.size) {stream : ℕ → Stream} (keeps : ∀ j, (stream j).KeepsWord)
    (j : ℕ) (s : σ) :
    Ends (FailsBy fails o data.size data.dim) goodTrial
      (repetition o (streamSource K) stream data box size k j s).1 := by
  apply repetition_ends_of_rows composed enough spans keeps
  · exact fun rows _ t => sumOver_ends sums (by omega) (by omega) rows t
  · exact fun rows _ t => sumOver_ends sums (by omega) (by omega) rows t

end Repetitions

end PointPattern
