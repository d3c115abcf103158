/-
# Drawing from a box in one piece or in several

A box fills its points from a stream, coordinate by coordinate and point by point, and a stream
that has given some numbers goes on with the next one. Points drawn in one block are therefore the
points drawn in two blocks, one after the other, and the points drawn one at a time, and the stream
is left in the same state. On an oracle that answers every point on its own, the sum over a uniform
sample can be taken in two parts as well, as far as nothing is rounded.
-/

import PointPattern.Proofs.Interrogation
import PointPattern.Proofs.RowSums

namespace PointPattern

open PointPattern.Random

/-! ## Numbers of a stream -/

section Streams

variable {K : Type} [Div K] [Scalar K]

/-- The uniform number that a stream gives after so many others. -/
def Random.Stream.nth (s : Stream) (n : ℕ) : K := (Stream.advance^[n] s).uniform.1

theorem Random.Stream.uniform_snd (s : Stream) : (s.uniform (K := K)).2 = s.advance := by
  simp only [Stream.uniform, Stream.next64]

/-- A uniform number comes first, and the others from the stream that it leaves. -/
theorem Random.Stream.uniforms_succ (n : ℕ) (s : Stream) :
    s.uniforms (K := K) (n + 1) =
      (s.uniform.1 :: (s.advance.uniforms n).1, (s.advance.uniforms (K := K) n).2) := by
  rw [← Stream.uniform_snd (K := K), Stream.uniforms]

/-- Numbers drawn in one piece are those drawn in two. -/
theorem Random.Stream.uniforms_add (m n : ℕ) (s : Stream) :
    s.uniforms (K := K) (m + n) =
      ((s.uniforms (K := K) m).1 ++ ((s.uniforms (K := K) m).2.uniforms n).1,
        ((s.uniforms (K := K) m).2.uniforms (K := K) n).2) := by
  induction m generalizing s with
  | zero =>
      rw [Nat.zero_add]
      rfl
  | succ m ih => rw [Nat.succ_add, Stream.uniforms_succ, Stream.uniforms_succ, ih, List.cons_append]

theorem Random.Stream.getElem?_uniforms {n i : ℕ} (inside : i < n) (s : Stream) :
    (s.uniforms (K := K) n).1[i]? = some (s.nth i) := by
  induction n generalizing i s with
  | zero => omega
  | succ n ih =>
      rw [Stream.uniforms_succ]
      cases i with
      | zero => rw [List.getElem?_cons_zero, Stream.nth, Function.iterate_zero_apply]
      | succ i =>
          rw [List.getElem?_cons_succ, ih (Nat.lt_of_succ_lt_succ inside), Stream.nth, Stream.nth,
            Function.iterate_succ_apply]

end Streams

/-! ## Rows of a block -/

namespace Grid

variable {K : Type} {length : ℕ} {xs : List K}

/-- Rows are cut from two lists one after the other as from each of them. -/
theorem cut_append {count : ℕ} (fills : xs.length = count * length) (count' : ℕ) (ys : List K) :
    cut (count + count') length (xs ++ ys) = cut count length xs ++ cut count' length ys := by
  induction count generalizing xs with
  | zero =>
      rw [Nat.zero_mul] at fills
      rw [List.length_eq_zero_iff.1 fills, Nat.zero_add]
      rfl
  | succ count ih =>
      have enough : length ≤ xs.length := by
        rw [fills, Nat.succ_mul]
        omega
      have others : (xs.drop length).length = count * length := by
        rw [List.length_drop, fills, Nat.succ_mul]
        omega
      rw [Nat.succ_add, cut, cut, List.take_append_of_le_length enough,
        List.drop_append_of_le_length enough, ih others, List.cons_append]

/-- Each place of a row is a place of the list that it was cut from. -/
theorem getElem?_cut {count i : ℕ} (inside : i < count) {d : ℕ} (on_axis : d < length)
    (values : List K) :
    (cut count length values)[i]?.bind (·[d]?) = values[i * length + d]? := by
  induction count generalizing i values with
  | zero => omega
  | succ count ih =>
      cases i with
      | zero =>
          rw [Nat.zero_mul, Nat.zero_add]
          exact List.getElem?_take_of_lt on_axis
      | succ i =>
          have shifted : length + (i * length + d) = (i + 1) * length + d := by
            rw [Nat.succ_mul]
            omega
          rw [cut, List.getElem?_cons_succ, ih (Nat.lt_of_succ_lt_succ inside),
            List.getElem?_drop, shifted]

end Grid

/-! ## Points of a box -/

section Points

variable {K : Type} [Add K] [Mul K] [Scalar K]

/-- Draws points from a box one at a time. -/
def Box.sampleEach {γ : Type} (source : Source γ K) (b : Box K) :
    ℕ → γ → Except Error (List (Grid K)) × γ
  | 0, s => (.ok [], s)
  | n + 1, s =>
    match b.sample source 1 s with
    | (.error e, s) => (.error e, s)
    | (.ok point, s) =>
      match b.sampleEach source n s with
      | (.error e, s) => (.error e, s)
      | (.ok points, s) => (.ok (point :: points), s)

variable [Div K] {b : Box K} {dim : ℕ}

theorem length_placedRows (b : Box K) (dim size : ℕ) (g : Stream) :
    (placedRows b dim size g).length = size := by
  rw [placedRows, List.length_map, Grid.length_cut]

/-- The rows that are placed in one piece are those that are placed in two. -/
theorem placedRows_add (b : Box K) (dim m n : ℕ) (g : Stream) :
    placedRows b dim (m + n) g =
      placedRows b dim m g ++ placedRows b dim n (g.uniforms (K := K) (m * dim)).2 := by
  rw [placedRows, Nat.add_mul, Stream.uniforms_add, Grid.cut_append (Stream.length_uniforms _ _),
    List.map_append]
  rfl

/-- Every coordinate of the rows that are placed takes the next number of the stream. -/
theorem getElem?_placedRows (spans : b.Spans dim) {size i : ℕ} (inside : i < size) {d : ℕ}
    {low extent : K} (low_at : b.low[d]? = some low) (extent_at : b.extent[d]? = some extent)
    (g : Stream) :
    (placedRows b dim size g)[i]?.bind (·[d]?) = some (low + g.nth (i * dim + d) * extent) := by
  have on_axis : d < dim := spans.low ▸ (List.getElem?_eq_some_iff.1 low_at).1
  have drawn : i * dim + d < size * dim := by
    have := Nat.mul_le_mul_right dim (Nat.succ_le_of_lt inside)
    rw [Nat.succ_mul] at this
    omega
  have number := Grid.getElem?_cut inside on_axis (g.uniforms (K := K) (size * dim)).1
  rw [Stream.getElem?_uniforms drawn] at number
  obtain ⟨row, row_at, number_at⟩ := Option.bind_eq_some_iff.1 number
  have row_length : row.length = dim :=
    Grid.length_of_mem_cut (Stream.length_uniforms _ _) (List.mem_of_getElem? row_at)
  rw [placedRows, List.getElem?_map, row_at, Option.map_some, Option.bind_some, Box.place,
    stretch_of_length spans.low, stretch_of_length row_length, stretch_of_length spans.extent,
    List.getElem?_zipWith, List.getElem?_zipWith, low_at, number_at, extent_at]

/-- Points that are drawn from a box in one piece. -/
theorem sample_placedRows (spans : b.Spans dim) (size : ℕ) (g : Stream) :
    b.sample (streamSource K) size g =
      (.ok (.ofRows dim (placedRows b dim size g)), (g.uniforms (K := K) (size * dim)).2) :=
  sample_eq spans size g

/-- Points that are drawn one at a time are those that are drawn in one piece. -/
theorem sampleEach_eq (spans : b.Spans dim) (size : ℕ) (g : Stream) :
    b.sampleEach (streamSource K) size g =
      (.ok ((placedRows b dim size g).map fun row => .ofRows dim [row]),
        (g.uniforms (K := K) (size * dim)).2) := by
  induction size generalizing g with
  | zero =>
      rw [Nat.zero_mul]
      rfl
  | succ size ih =>
      have first := sample_placedRows spans 1 g
      obtain ⟨row, single⟩ := List.length_eq_one_iff.1 (length_placedRows b dim 1 g)
      rw [single, Nat.cast_one] at first
      rw [Box.sampleEach, first]
      dsimp only
      rw [ih, Nat.add_comm size 1, placedRows_add, single, Nat.add_mul, Stream.uniforms_add]
      rfl

end Points

/-! ## Answers to every point on its own -/

section Answers

variable {σ K : Type}

/-- An oracle that answers every point on its own: at a rank, the answer to a row is a partial
function of the row, and a block gets the answers of its rows if every row has one. A block may be
refused for its rank alone, whatever its rows are. It need answer only the kind of query that it is
asked. -/
structure Oracle.AnswersRows (o : Oracle σ K) (answer? : List K → Option K) (takes : Prop)
    (rank : ℤ) (dim : ℕ) : Prop where
  single : o.supports .batchQuery = false → ∀ (row : List K) (s : σ) (x : K), row.length = dim →
    ((o.distance (.ofPoint row) rank s).1 = .ok x ↔ answer? row = some x)
  block : o.supports .batchQuery = true → ∀ (rows : List (List K)) (s : σ) (answers : Grid K),
    (∀ row ∈ rows, row.length = dim) →
      ((o.distances (.ofRows dim rows) rank s).1 = .ok answers ↔
        takes ∧ (rows.mapM answer?).map Grid.ofPoint = some answers)

/-- An oracle that computes a function of the row and the rank answers every point on its own. -/
theorem Oracle.Computes.answersRows {o : Oracle σ K} {f : List K → ℤ → K} {size dim : ℕ}
    (computes : o.Computes f size dim) {rank : ℤ} (rank_pos : 1 ≤ rank) (rank_le : rank ≤ size) :
    o.AnswersRows (fun row => some (f row rank)) True rank dim where
  single single row s x row_length := by
    rw [computes.single single row rank s row_length rank_pos rank_le]
    simp
  block batch rows s answers lengths := by
    have total : rows.mapM (fun row => some (f row rank)) = some (rows.map (f · rank)) :=
      List.mapM_pure
    rw [computes.block batch rows rank s lengths rank_pos rank_le, total]
    simp

variable {ask : Grid K → Step σ K} {answer? : List K → Option K} {row : List K}
variable {rows rows' : List (List K)} {xs zs : List K}

theorem mapM_cons_eq_some_iff :
    (row :: rows).mapM answer? = some zs ↔
      ∃ x xs, answer? row = some x ∧ rows.mapM answer? = some xs ∧ x :: xs = zs := by
  simp [List.mapM_cons, Option.bind_eq_some_iff]

/-- Rows have answers if the first of them and the others have, and only then. -/
theorem mapM_append_eq_some_iff :
    (rows ++ rows').mapM answer? = some zs ↔
      ∃ xs ys, rows.mapM answer? = some xs ∧ rows'.mapM answer? = some ys ∧ xs ++ ys = zs := by
  simp [List.mapM_append, Option.bind_eq_some_iff]

theorem length_of_mapM_eq_some (answered : rows.mapM answer? = some xs) :
    xs.length = rows.length := by
  induction rows generalizing xs with
  | nil =>
      cases answered
      rfl
  | cons row rest ih =>
      obtain ⟨x, xs, -, others, rfl⟩ := mapM_cons_eq_some_iff.1 answered
      rw [List.length_cons, List.length_cons, ih others]

/-- Queries that are answered each on its own are all answered if every row has an answer. -/
theorem exists_answersEach_iff
    (each : ∀ row ∈ rows, ∀ s x, (ask (.ofPoint row) s).1 = .ok x ↔ answer? row = some x) (s : σ) :
    (∃ u, AnswersEach ask (rows.map Grid.ofPoint) s xs u) ↔ rows.mapM answer? = some xs := by
  induction rows generalizing s xs with
  | nil =>
      constructor
      · rintro ⟨u, answers⟩
        cases answers
        rfl
      · intro answered
        cases answered
        exact ⟨s, .nil s⟩
  | cons row rest ih =>
      have first := each row List.mem_cons_self s
      have others (t : σ) (ys : List K) :
          (∃ u, AnswersEach ask (rest.map Grid.ofPoint) t ys u) ↔ rest.mapM answer? = some ys :=
        ih (fun other mem => each other (List.mem_cons_of_mem row mem)) t
      rw [mapM_cons_eq_some_iff]
      constructor
      · rintro ⟨u, answers⟩
        cases answers with
        | @cons _ _ _ t _ x ys answered rest_answered =>
            exact ⟨x, ys, (first x).1 (congrArg Prod.fst answered),
              (others t ys).1 ⟨u, rest_answered⟩, rfl⟩
      · rintro ⟨x, ys, answered, rest_answered, rfl⟩
        obtain ⟨u, answers⟩ := (others (ask (.ofPoint row) s).2 ys).2 rest_answered
        exact ⟨u, .cons (Prod.ext ((first x).2 answered) rfl) answers⟩

variable {o : Oracle σ K} {takes : Prop} {rank : ℤ} {dim : ℕ}

/-- All rows of a block are answered if every row has an answer. -/
theorem Oracle.AnswersRows.exists_answersAll_iff
    (answers : o.AnswersRows answer? takes rank dim) (lengths : ∀ row ∈ rows, row.length = dim)
    (s : σ) :
    (∃ u, o.AnswersAll (.ofRows dim rows) rows.length rank s xs u) ↔
      (o.supports .batchQuery = true → takes) ∧ rows.mapM answer? = some xs := by
  cases path : o.supports .batchQuery with
  | true =>
      have answered := answers.block path rows s ⟨[rows.length], xs⟩ lengths
      have given : (rows.mapM answer?).map Grid.ofPoint = some ⟨[rows.length], xs⟩ ↔
          rows.mapM answer? = some xs := by
        rw [Option.map_eq_some_iff]
        constructor
        · rintro ⟨ys, found, same⟩
          obtain rfl : ys = xs := congrArg Grid.values same
          exact found
        · intro found
          exact ⟨xs, found, by rw [Grid.ofPoint, length_of_mapM_eq_some found]⟩
      rw [given] at answered
      simp only [Oracle.answersAll_iff_block path, forall_const]
      rw [← answered]
      constructor
      · rintro ⟨u, given⟩
        exact congrArg Prod.fst given
      · intro given
        exact ⟨_, Prod.ext given rfl⟩
  | false =>
      have each : ∀ row ∈ rows, ∀ s x, (o.distance (.ofPoint row) rank s).1 = .ok x ↔
          answer? row = some x :=
        fun row mem s x => answers.single path row s x (lengths row mem)
      simp only [Oracle.answersAll_iff_each path, subgrids_ofRows lengths, Bool.false_eq_true,
        false_imp_iff, true_and]
      exact exists_answersEach_iff each s

variable [Scalar K]

/-- A sample of rows gives the answers of its rows, if all of them are distances. -/
theorem Oracle.AnswersRows.queryDistances_eq_ok_iff (answers : o.AnswersRows answer? takes rank dim)
    (lengths : ∀ row ∈ rows, row.length = dim) (s : σ) :
    (queryDistances o (.ofRows dim rows) rank s).1 = .ok xs ↔
      ((o.supports .batchQuery = true → takes) ∧ rows.mapM answer? = some xs) ∧
        ∀ x ∈ xs, isDistance x = true := by
  rw [← answers.exists_answersAll_iff lengths s, ← exists_and_right]
  constructor
  · intro given
    exact ⟨_, (PointPattern.queryDistances_eq_ok_iff rfl).1 (Prod.ext given rfl)⟩
  · rintro ⟨u, given⟩
    exact congrArg Prod.fst ((PointPattern.queryDistances_eq_ok_iff rfl).2 given)

end Answers

/-! ## Uniform samples -/

section Uniform

variable {σ γ K : Type} [Add K] [Mul K] [Scalar K] {o : Oracle σ K} {box : Box K}

/-- A uniform sample draws its points first, and nothing else is drawn. -/
theorem sampleUniform_eq {source : Source γ K} {size k : ℤ} {g g' : γ} {points : Grid K}
    (drawn : box.sample source size g = (.ok points, g')) (s : σ) :
    sampleUniform o source box size k (s, g) =
      ((queryDistances o points k s).1 >>= (aggregate · box.dim),
        ((queryDistances o points k s).2, g')) := by
  simp only [sampleUniform, Bind.bind, ExceptT.bind, ExceptT.mk, StateT.bind, Draw.random, drawn,
    Draw.query, ExceptT.bindCont]
  rcases queryDistances o points k s with ⟨e | xs, t⟩ <;> rfl

end Uniform

section Exact

variable {σ K : Type} [Field K] [LinearOrder K] [Scalar K] [Scalar.Exact K]
variable {o : Oracle σ K} {box : Box K} {answer? : List K → Option K} {takes : Prop} {k : ℤ}
variable {dim : ℕ}

/-- The sum over a uniform sample, if the rows that are placed have answers, all of them
distances. -/
theorem sampleUniform_eq_ok_iff (spans : box.Spans dim)
    (answers : o.AnswersRows answer? takes k dim) (size : ℕ) (s : σ) (g : Stream) {total : K} :
    (sampleUniform o (streamSource K) box size k (s, g)).1 = .ok total ↔
      (o.supports .batchQuery = true → takes) ∧
        ∃ xs, (placedRows box dim size g).mapM answer? = some xs ∧ (∀ x ∈ xs, 0 ≤ x) ∧
          total = (xs.map (· ^ dim)).sum := by
  have lengths : ∀ row ∈ placedRows box dim size g, row.length = dim :=
    fun row mem => length_of_mem_placedRows spans mem
  have box_dim : box.dim = dim := spans.low
  have answered (xs : List K) :
      (queryDistances o (.ofRows dim (placedRows box dim size g)) k s).1 = .ok xs ↔
        ((o.supports .batchQuery = true → takes) ∧
          (placedRows box dim size g).mapM answer? = some xs) ∧ ∀ x ∈ xs, isDistance x = true :=
    answers.queryDistances_eq_ok_iff lengths s
  rw [sampleUniform_eq (sample_placedRows spans size g), box_dim]
  constructor
  · intro summed
    obtain ⟨xs, asked, summed⟩ := exists_of_bind_eq_ok summed
    obtain ⟨⟨taken, found⟩, distances⟩ := (answered xs).1 asked
    rw [aggregate_eq_sum] at summed
    exact ⟨taken, xs, found, fun x mem => isDistance_iff.1 (distances x mem),
      (Except.ok.inj summed).symm⟩
  · rintro ⟨taken, xs, found, nonneg, rfl⟩
    have asked := (answered xs).2
      ⟨⟨taken, found⟩, fun x mem => isDistance_iff.2 (nonneg x mem)⟩
    dsimp only
    rw [asked]
    exact aggregate_eq_sum xs dim

/-- The sum over a uniform sample is the sum over its first points and that over the others, drawn
from the stream that the first ones leave. There is one if there are both. -/
theorem sampleUniform_add (spans : box.Spans dim) (answers : o.AnswersRows answer? takes k dim)
    (m n : ℕ) (s s' s'' : σ) (g : Stream) :
    let whole := sampleUniform o (streamSource K) box (m + n : ℕ) k (s, g)
    let first := sampleUniform o (streamSource K) box m k (s', g)
    let second := sampleUniform o (streamSource K) box n k (s'', first.2.2)
    whole.2.2 = second.2.2 ∧
      ∀ total, whole.1 = .ok total ↔ ∃ u v, first.1 = .ok u ∧ second.1 = .ok v ∧ total = u + v := by
  intro whole first second
  have left : first.2.2 = (g.uniforms (K := K) (m * dim)).2 :=
    congrArg (·.2.2) (sampleUniform_eq (sample_placedRows spans m g) s')
  constructor
  · have whole_left : whole.2.2 = (g.uniforms (K := K) ((m + n) * dim)).2 :=
      congrArg (·.2.2) (sampleUniform_eq (sample_placedRows spans (m + n) g) s)
    have second_left : second.2.2 = (first.2.2.uniforms (K := K) (n * dim)).2 :=
      congrArg (·.2.2) (sampleUniform_eq (sample_placedRows spans n first.2.2) s'')
    rw [whole_left, second_left, left, Nat.add_mul, Stream.uniforms_add]
  · intro total
    rw [sampleUniform_eq_ok_iff spans answers, placedRows_add, ← left]
    simp only [mapM_append_eq_some_iff]
    constructor
    · rintro ⟨taken, _, ⟨xs, ys, found, found', rfl⟩, nonneg, rfl⟩
      rw [List.map_append, List.sum_append]
      exact ⟨_, _, (sampleUniform_eq_ok_iff spans answers m s' g).2 ⟨taken, xs, found,
          fun x mem => nonneg x (List.mem_append_left ys mem), rfl⟩,
        (sampleUniform_eq_ok_iff spans answers n s'' _).2 ⟨taken, ys, found',
          fun y mem => nonneg y (List.mem_append_right xs mem), rfl⟩, rfl⟩
    · rintro ⟨_, _, summed, summed', rfl⟩
      obtain ⟨taken, xs, found, nonneg, rfl⟩ :=
        (sampleUniform_eq_ok_iff spans answers m s' g).1 summed
      obtain ⟨-, ys, found', nonneg', rfl⟩ :=
        (sampleUniform_eq_ok_iff spans answers n s'' _).1 summed'
      refine ⟨taken, xs ++ ys, ⟨xs, ys, found, found', rfl⟩, fun x mem => ?_, ?_⟩
      · exact (List.mem_append.1 mem).elim (nonneg x) (nonneg' x)
      · rw [List.map_append, List.sum_append]

end Exact

/-! ## Drawing in one piece and in several -/

/-- Take any state of the stream and any two numbers of points. From a box with so many axes, in
any kind of number, drawing all points in one block gives the rows of a first block followed by the
rows of a second one, which is drawn from the stream that the first one leaves, and ends in the
same state; and a block is what its points are that are drawn one at a time. On each axis the point
at a place takes the number of the stream at the place of this coordinate in row-major order.
Without rounding, on an oracle that answers every point on its own, the sum over a uniform sample is
the sum over its first points plus the sum over the others, continued from the same stream, and
there is one exactly if there are both. -/
theorem sample_in_pieces {σ K L : Type} [Add K] [Mul K] [Div K] [Scalar K] [Field L]
    [LinearOrder L] [Scalar L] [Scalar.Exact L] (m n : ℕ) (g : Stream) :
    (∀ (box : Box K) (dim : ℕ), box.Spans dim →
      ∃ rows rows' g₁ g₂,
        box.sample (streamSource K) m g = (.ok (.ofRows dim rows), g₁) ∧
        box.sample (streamSource K) n g₁ = (.ok (.ofRows dim rows'), g₂) ∧
        box.sample (streamSource K) (m + n : ℕ) g = (.ok (.ofRows dim (rows ++ rows')), g₂) ∧
        box.sampleEach (streamSource K) m g = (.ok (rows.map fun row => .ofRows dim [row]), g₁) ∧
        rows.length = m ∧ rows'.length = n ∧ (∀ row ∈ rows, row.length = dim) ∧
        ∀ i < m, ∀ d low extent, box.low[d]? = some low → box.extent[d]? = some extent →
          rows[i]?.bind (·[d]?) = some (low + g.nth (i * dim + d) * extent)) ∧
    ∀ (box : Box L) (dim : ℕ) (o : Oracle σ L) (answer? : List L → Option L) (takes : Prop)
      (k : ℤ), box.Spans dim → o.AnswersRows answer? takes k dim → ∀ s s' s'' : σ,
        let whole := sampleUniform o (streamSource L) box (m + n : ℕ) k (s, g)
        let first := sampleUniform o (streamSource L) box m k (s', g)
        let second := sampleUniform o (streamSource L) box n k (s'', first.2.2)
        whole.2.2 = second.2.2 ∧ ∀ total,
          whole.1 = .ok total ↔ ∃ u v, first.1 = .ok u ∧ second.1 = .ok v ∧ total = u + v := by
  constructor
  · intro box dim spans
    have whole := sample_placedRows spans (m + n) g
    rw [placedRows_add, Nat.add_mul, Stream.uniforms_add] at whole
    exact ⟨placedRows box dim m g, placedRows box dim n (g.uniforms (m * dim)).2, _, _,
      sample_placedRows spans m g, sample_placedRows spans n _, whole, sampleEach_eq spans m g,
      length_placedRows box dim m g, length_placedRows box dim n _,
      fun row mem => length_of_mem_placedRows spans mem,
      fun i inside d low extent low_at extent_at =>
        getElem?_placedRows spans inside low_at extent_at g⟩
  · intro box dim o answer? takes k spans answers s s' s''
    exact sampleUniform_add spans answers m n s s' s'' g

/-- Three points are drawn from a box in the plane, one and then two; and the distances of three
points of a line to their nearest neighbors are summed in the same two parts. -/
theorem sample_in_pieces_threePoints :
    let box : Box Float := ⟨[0, 1], [2, -1], .override⟩
    let g := Stream.ofSeed ⟨[7], none⟩
    let o : Oracle Unit ℚ := measuringOracle (Metric.minkowskiDistance 1) threePoints
    let sum (size : ℕ) (g : Stream) :=
      sampleUniform o (streamSource ℚ) ⟨[0], [3], .data⟩ size 1 ((), g)
    (∃ rows rows' g₁ g₂,
      box.sample (streamSource Float) (1 : ℕ) g = (.ok (.ofRows 2 rows), g₁) ∧
        box.sample (streamSource Float) (2 : ℕ) g₁ = (.ok (.ofRows 2 rows'), g₂) ∧
        box.sample (streamSource Float) (1 + 2 : ℕ) g = (.ok (.ofRows 2 (rows ++ rows')), g₂)) ∧
      ∃ u v, (sum 1 g).1 = .ok u ∧ (sum 2 (sum 1 g).2.2).1 = .ok v ∧
        (sum (1 + 2) g).1 = .ok (u + v) := by
  intro box g o sum
  have pieces := sample_in_pieces (σ := Unit) (K := Float) (L := ℚ) 1 2 g
  have computes := measures_measuringOracle (σ := Unit) (Metric.minkowskiDistance 1) threePoints
  have answers := computes.answersRows (le_refl 1) (by decide)
  obtain ⟨rows, rows', g₁, g₂, drawn, drawn', whole, -⟩ := pieces.1 box 2 ⟨rfl, rfl⟩
  refine ⟨⟨rows, rows', g₁, g₂, drawn, drawn', whole⟩, ?_⟩
  have parts := (pieces.2 ⟨[0], [3], .data⟩ 1 o _ _ 1 ⟨rfl, rfl⟩ answers () () ()).2
  have summed : (sum (1 + 2) g).1.toOption.isSome = true := by decide +kernel
  -- The sums are opaque from here on, so that nothing compares them by drawing points.
  have sum_eq (size : ℕ) (g : Stream) :
      sampleUniform o (streamSource ℚ) ⟨[0], [3], .data⟩ size 1 ((), g) = sum size g := rfl
  clear_value sum
  simp only [sum_eq] at parts
  cases ended : (sum (1 + 2) g).1 with
  | error e =>
      rw [ended] at summed
      cases summed
  | ok total =>
      obtain ⟨u, v, first_ended, second_ended, rfl⟩ := (parts total).1 ended
      exact ⟨u, v, first_ended, second_ended, rfl⟩

end PointPattern
