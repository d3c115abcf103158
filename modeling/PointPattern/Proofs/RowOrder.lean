/-
# The order of the rows

A design does not say anything by the order of the rows of its data. The hull of the data and the
distances of the ranks depend on the rows alone, and the stream does not look at the data: so the
box and every sum over uniform points are what they were when the rows are rearranged. The chosen
rows are others, unless all of them are chosen: then the other sum is one over all rows, the same
for every repetition and every entropy, and everything that is computed from it stays as it is.
-/

import PointPattern.Proofs.Prolongation
import PointPattern.Proofs.RowSums
import PointPattern.Proofs.Selection

namespace PointPattern

open PointPattern.Random

/-! ## Rows in another order -/

section Rows

variable {K : Type}

/-- A point set with its rows in another order. -/
def PointSet.withRows (s : PointSet K) (rows : List (List K)) (perm : rows.Perm s.points) :
    PointSet K where
  dim := s.dim
  points := rows
  dim_pos := s.dim_pos
  points_ne_nil empty := s.points_ne_nil (List.perm_nil.1 (empty ▸ perm.symm))
  length_eq row mem := s.length_eq row (perm.mem_iff.1 mem)

@[simp]
theorem PointSet.size_withRows (s : PointSet K) {rows : List (List K)}
    (perm : rows.Perm s.points) : (s.withRows rows perm).size = s.size := perm.length_eq

/-- A design with the rows of its data in another order. -/
def Design.withRows (d : Design K) (rows : List (List K)) (perm : rows.Perm d.points.points) :
    Design K :=
  { d with
    points := d.points.withRows rows perm
    bounds := d.bounds
    sampleSize_le := by simpa using d.sampleSize_le }

end Rows

section Exact

variable {K : Type} [Field K] [LinearOrder K] [Scalar K] [Scalar.Exact K]

/-! ## The box -/

theorem Scalar.min_eq (x y : K) : Scalar.min x y = x ⊓ y := by
  rw [Scalar.min]
  rcases lt_or_ge x y with less | ge
  · simp [less, less.le]
  · simp [ge, not_lt.2 ge]

theorem Scalar.max_eq (x y : K) : Scalar.max x y = x ⊔ y := by
  rw [Scalar.max]
  rcases lt_or_ge y x with less | ge
  · simp [less, less.le]
  · simp [ge, not_lt.2 ge]

omit [Field K] [LinearOrder K] [Scalar K] [Scalar.Exact K] in
theorem zipWith_right_comm {op : K → K → K} (comm : ∀ x y z, op (op x y) z = op (op x z) y)
    (a b c : List K) :
    List.zipWith op (List.zipWith op a b) c = List.zipWith op (List.zipWith op a c) b := by
  induction a generalizing b c with
  | nil => rfl
  | cons x a ih => cases b <;> cases c <;> simp [comm, ih]

omit [Field K] [LinearOrder K] [Scalar K] [Scalar.Exact K] in
/-- A fold over rows that begins with one of them does not depend on which one it is, nor on the
order of the others. -/
theorem foldl_zipWith_perm {op : K → K → K} (comm : ∀ x y, op x y = op y x)
    (right_comm : ∀ x y z, op (op x y) z = op (op x z) y) {first first' : List K}
    {rest rest' : List (List K)} (perm : (first :: rest).Perm (first' :: rest')) :
    rest.foldl (List.zipWith op) first = rest'.foldl (List.zipWith op) first' := by
  classical
  have : RightCommutative (List.zipWith op) := ⟨zipWith_right_comm right_comm⟩
  rcases List.mem_cons.1 (perm.mem_iff.1 List.mem_cons_self) with rfl | later
  · exact perm.cons_inv.foldl_eq first
  · -- Both folds begin with the two first rows, one way or the other, and go on with the others.
    have rest'_perm := List.perm_cons_erase later
    have exchanged := rest'_perm.cons first' |>.trans (.swap first first' _)
    have rest_perm : rest.Perm (first' :: rest'.erase first) := (perm.trans exchanged).cons_inv
    rw [rest_perm.foldl_eq, rest'_perm.foldl_eq, List.foldl_cons, List.foldl_cons,
      List.zipWith_comm_of_comm comm]

theorem hull_perm {rows rows' : List (List K)} (perm : rows'.Perm rows) :
    Box.hull rows' = Box.hull rows := by
  have min_comm (x y : K) : Scalar.min x y = Scalar.min y x := by
    rw [Scalar.min_eq, Scalar.min_eq, inf_comm]
  have max_comm (x y : K) : Scalar.max x y = Scalar.max y x := by
    rw [Scalar.max_eq, Scalar.max_eq, sup_comm]
  have min_right_comm (x y z : K) :
      Scalar.min (Scalar.min x y) z = Scalar.min (Scalar.min x z) y := by
    simp only [Scalar.min_eq, inf_right_comm]
  have max_right_comm (x y z : K) :
      Scalar.max (Scalar.max x y) z = Scalar.max (Scalar.max x z) y := by
    simp only [Scalar.max_eq, sup_right_comm]
  cases rows with
  | nil => rw [perm.eq_nil]
  | cons first rest =>
      cases rows' with
      | nil => cases perm.symm.eq_nil
      | cons first' rest' =>
          rw [Box.hull, Box.hull, Box.lowest, Box.lowest, Box.highest, Box.highest,
            foldl_zipWith_perm min_comm min_right_comm perm,
            foldl_zipWith_perm max_comm max_right_comm perm]

variable {d : Design K} {rows : List (List K)}

/-- The box does not depend on the order of the rows. -/
theorem Design.box_withRows (perm : rows.Perm d.points.points) :
    (d.withRows rows perm).box = d.box := by
  obtain ⟨points, sampleSize, repetitions, k, bounds, seed, jobs⟩ := d
  cases bounds with
  | some bounds => rfl
  | none => exact hull_perm perm

/-! ## The distances of the ranks -/

/-- The number at a place, counted from zero, of a list that is put in ascending order. -/
def orderStatistic (xs : List K) (place : ℕ) : K := (xs.insertionSort (· ≤ ·)).getD place 0

/-- The distance of a rank from a row to the points of a set. -/
def PointSet.distanceOf (data : PointSet K) (measure : List K → List K → K) (row : List K)
    (rank : ℤ) : K :=
  Oracle.rankedDistance measure data.points rank.toNat row

variable {measure : List K → List K → K} {data : PointSet K} {rank : ℤ}

theorem PointSet.distanceOf_eq (rank_pos : 1 ≤ rank) (row : List K) :
    data.distanceOf measure row rank =
      orderStatistic (data.points.map (measure row)) (rank.toNat - 1) := by
  have rank_pos : 1 ≤ rank.toNat := by omega
  rw [PointSet.distanceOf, Oracle.rankedDistance, kthSmallest?_eq_getElem? rank_pos,
    orderStatistic, List.getD_eq_getElem?_getD, Scalar.zero_eq]

theorem PointSet.distanceOf_withRows (perm : rows.Perm data.points) (rank_pos : 1 ≤ rank)
    (row : List K) :
    (data.withRows rows perm).distanceOf measure row rank = data.distanceOf measure row rank := by
  have rank_pos : 1 ≤ rank.toNat := by omega
  have distances : (rows.map (measure row)).Perm (data.points.map (measure row)) := perm.map _
  rw [PointSet.distanceOf, PointSet.distanceOf, Oracle.rankedDistance, Oracle.rankedDistance]
  exact congrArg (Option.getD · Scalar.zero) (kthSmallest?_perm rank_pos distances)

theorem PointSet.distanceOf_nonneg (nonneg : ∀ x y, 0 ≤ measure x y) (row : List K) (rank : ℤ) :
    0 ≤ data.distanceOf measure row rank :=
  rankedDistance_nonneg nonneg data.points rank.toNat row

/-! ## Repetitions -/

variable {box : Box K} {size k : ℕ} {g : Stream} {trial trial' : Trial K}

omit [LinearOrder K] [Scalar.Exact K] in
theorem rowSums_of_trialOn {f : List K → ℤ → K}
    (ended : trialOn f data box size k g = .ok trial) :
    rowSum f (k + 1) data.dim (chosenRows data size g) = .ok trial.w ∧
      rowSum f k data.dim (placedRows box data.dim size (g.choose data.size size).2) =
        .ok trial.u := by
  obtain ⟨w, real, ended⟩ := exists_of_bind_eq_ok ended
  obtain ⟨u, uniform, ended⟩ := exists_of_bind_eq_ok ended
  cases ended
  exact ⟨real, uniform⟩

/-- The sum over the placed rows does not depend on the order of the data. -/
theorem rowSum_placedRows_withRows (perm : rows.Perm data.points) (rank_pos : 1 ≤ k)
    (measure : List K → List K → K) (box : Box K) (size : ℕ) (g : Stream) :
    rowSum ((data.withRows rows perm).distanceOf measure) k data.dim
        (placedRows box data.dim size (g.choose (data.withRows rows perm).size size).2) =
      rowSum (data.distanceOf measure) k data.dim
        (placedRows box data.dim size (g.choose data.size size).2) := by
  rw [PointSet.size_withRows]
  exact rowSum_congr (fun row _ => PointSet.distanceOf_withRows perm (by omega) row) data.dim

theorem u_of_trialOn_withRows (perm : rows.Perm data.points) (rank_pos : 1 ≤ k)
    (ended : trialOn (data.distanceOf measure) data box size k g = .ok trial)
    (ended' : trialOn ((data.withRows rows perm).distanceOf measure) (data.withRows rows perm) box
      size k g = .ok trial') : trial'.u = trial.u := by
  have uniform := (rowSums_of_trialOn ended).2
  have uniform' := (rowSums_of_trialOn ended').2
  have same := rowSum_placedRows_withRows perm rank_pos measure box size g
  exact Except.ok.inj (uniform'.symm.trans (same.trans uniform))

/-- The repetition that adds up the distances of a rank from placed rows, and those of the next rank
from chosen rows, each raised to the number of axes. -/
def PointSet.trialOver (data : PointSet K) (measure : List K → List K → K) (k : ℕ)
    (chosen placed : List (List K)) : Trial K :=
  Trial.ofSums (placed.map fun row => data.distanceOf measure row k ^ data.dim).sum
    (chosen.map fun row => data.distanceOf measure row (k + 1) ^ data.dim).sum

theorem trialOn_of_nonneg (nonneg : ∀ x y, 0 ≤ measure x y) (data : PointSet K) (box : Box K)
    (size k : ℕ) (g : Stream) :
    trialOn (data.distanceOf measure) data box size k g =
      .ok (data.trialOver measure k (chosenRows data size g)
        (placedRows box data.dim size (g.choose data.size size).2)) := by
  have sums (rank : ℤ) (rows : List (List K)) :
      rowSum (data.distanceOf measure) rank data.dim rows = .ok _ :=
    rowSum_of_nonneg fun row _ => data.distanceOf_nonneg nonneg row rank
  rw [trialOn, sums, sums]
  rfl

/-- If all rows are chosen, a repetition ends as it does on the rows in another order. -/
theorem trialOn_withRows (perm : rows.Perm data.points) (rank_pos : 1 ≤ k)
    (all : size = data.size) (keeps : g.KeepsWord) :
    Corresponds Error.SameRefusal (fun trial trial' => trial' = id trial)
      (trialOn (data.distanceOf measure) data box size k g)
      (trialOn ((data.withRows rows perm).distanceOf measure) (data.withRows rows perm) box size k
        g) := by
  let data' := data.withRows rows perm
  have all' : size = data'.size := all.trans (data.size_withRows perm).symm
  have chosen := perm_chosenRows all keeps
  have chosen' := (perm_chosenRows all' keeps).trans perm
  have real : Corresponds Error.SameRefusal (· = ·)
      (rowSum (data.distanceOf measure) (k + 1) data.dim (chosenRows data size g))
      (rowSum (data'.distanceOf measure) (k + 1) data'.dim (chosenRows data' size g)) := by
    rw [rowSum_congr fun row _ => PointSet.distanceOf_withRows perm (by omega) row]
    exact rowSum_perm (chosen.trans chosen'.symm)
  refine real.bind ?_
  rintro w _ rfl
  have uniform : rowSum (data'.distanceOf measure) k data'.dim
      (placedRows box data'.dim size (g.choose data'.size size).2) = _ :=
    rowSum_placedRows_withRows perm rank_pos measure box size g
  rw [uniform]
  have same := corresponds_map Error.SameRefusal.refl id
    (rowSum (data.distanceOf measure) k data.dim (placedRows box data.dim size
      (g.choose data.size size).2) >>= fun u => .ok (Trial.ofSums u w))
  rwa [Except.map_id] at same

/-- The sum over all rows of their distances to the neighbor of a rank, counted from zero, each
raised to the number of axes. -/
def PointSet.wholeSum (data : PointSet K) (measure : List K → List K → K) (rank : ℕ) : K :=
  (data.points.map fun row =>
    orderStatistic (data.points.map (measure row)) rank ^ data.dim).sum

/-- If all rows are chosen, the sum over them is the one over all rows of the data. -/
theorem w_of_trialOn (all : size = data.size) (keeps : g.KeepsWord)
    (ended : trialOn (data.distanceOf measure) data box size k g = .ok trial) :
    trial.w = data.wholeSum measure k := by
  have total := eq_sum_of_rowSum (rowSums_of_trialOn ended).1
  rw [total, ((perm_chosenRows all keeps).map _).sum_eq]
  refine congrArg List.sum (List.map_congr_left fun row _ => ?_)
  rw [PointSet.distanceOf_eq (by omega)]
  rfl

/-! ## Runs -/

section Runs

variable {σ τ : Type} {o : Oracle σ K} {o' : Oracle τ K} {host host' : Host K} {s : σ} {s' : τ}

omit [LinearOrder K] [Scalar.Exact K] in
/-- On an oracle that measures, the repetitions of a run are sums over rows. -/
theorem Oracle.Measures.endsAs (measures : o.Measures measure d.points)
    (enough : d.k + 1 ≤ d.points.size) (spans : box.Spans d.points.dim) (entropy : ℕ) :
    EndsAs (repetition o (streamSource K) (Backend.streamOf entropy) d.points box d.sampleSize d.k)
      fun j => trialOn (d.points.distanceOf measure) d.points box d.sampleSize d.k
        (Backend.streamOf entropy j) :=
  endsAs_trialOn measures spans d.sampleSize_le d.k_pos enough (keepsWord_streamOf entropy)

variable [IsStrictOrderedRing K] [Roots K] [BetaTails K] [BetaTails.Exact K]
variable {b : Backend σ K} {b' : Backend τ K} {report report' : Report (Params K) RunInfo K}

omit [LinearOrder K] [Scalar.Exact K] [IsStrictOrderedRing K] [BetaTails.Exact K] in
/-- The trials of a report are the results of the repetitions on the streams of its entropy. -/
theorem trials_of_solve (measures : o.Measures measure d.points)
    (ready : b.oracle d.points = .ok o) (solved : (b.solve host d s).1 = .ok report) :
    d.box = .ok report.params.box ∧ report.params.trials.length = d.repetitions ∧
      ∀ j trial, report.params.trials[j]? = some trial →
        trialOn (d.points.distanceOf measure) d.points report.params.box d.sampleSize d.k
          (Backend.streamOf (d.seed.getD host.freshEntropy) j) = .ok trial := by
  obtain ⟨o₁, box, summary, pValue, ready₁, boxed, enough, ran, -, numbers⟩ :=
    Backend.exists_of_solve_eq_ok solved
  obtain rfl : o₁ = o := Except.ok.inj (ready₁.symm.trans ready)
  obtain ⟨_, boxed', spans⟩ := d.box_ok
  obtain rfl : box = _ := Except.ok.inj (boxed.symm.trans boxed')
  have ends := measures.endsAs enough spans (d.seed.getD host.freshEntropy)
  have tells := Backend.tells_sampled (b := b) boxed ends s
  rw [ran] at tells
  rw [numbers]
  exact ⟨boxed, tells.outcome_eq ends s⟩

omit [IsStrictOrderedRing K] [BetaTails.Exact K] in
/-- Reports on the same rows in two orders agree on the box and on the sums over the placed
rows. -/
theorem uniform_of_solve_withRows (perm : rows.Perm d.points.points)
    (measures : o.Measures measure d.points) (ready : b.oracle d.points = .ok o)
    (measures' : o'.Measures measure (d.withRows rows perm).points)
    (ready' : b'.oracle (d.withRows rows perm).points = .ok o')
    (entropy : d.seed.getD host.freshEntropy = d.seed.getD host'.freshEntropy)
    (solved : (b.solve host d s).1 = .ok report)
    (solved' : (b'.solve host' (d.withRows rows perm) s').1 = .ok report') :
    report'.params.box = report.params.box ∧
      report'.params.trials.map Trial.u = report.params.trials.map Trial.u := by
  obtain ⟨boxed, length, each⟩ := trials_of_solve measures ready solved
  obtain ⟨boxed', length', each'⟩ := trials_of_solve measures' ready' solved'
  have same_box : report'.params.box = report.params.box := by
    rw [Design.box_withRows, boxed] at boxed'
    exact (Except.ok.inj boxed').symm
  have same_entropy : (d.withRows rows perm).seed.getD host'.freshEntropy =
      d.seed.getD host.freshEntropy := entropy.symm
  rw [same_box, same_entropy] at each'
  refine ⟨same_box, List.ext_getElem (by simp only [List.length_map, length, length']; rfl) ?_⟩
  intro j inside' inside
  rw [List.length_map] at inside inside'
  rw [List.getElem_map, List.getElem_map]
  exact u_of_trialOn_withRows perm d.k_pos (each j _ (List.getElem?_eq_getElem inside))
    (each' j _ (List.getElem?_eq_getElem inside'))

omit [IsStrictOrderedRing K] [BetaTails.Exact K] in
/-- If all rows are chosen, every sum over them is one over all rows of the data. -/
theorem whole_of_solve (measures : o.Measures measure d.points)
    (ready : b.oracle d.points = .ok o) (all : d.sampleSize = d.points.size)
    (solved : (b.solve host d s).1 = .ok report) {trial : Trial K}
    (mem : trial ∈ report.params.trials) :
    trial.w = d.points.wholeSum measure d.k := by
  obtain ⟨-, -, each⟩ := trials_of_solve measures ready solved
  obtain ⟨j, found⟩ := List.mem_iff_getElem?.1 mem
  exact w_of_trialOn all (keepsWord_streamOf _ j) (each j trial found)

/-- By a measure that is not negative every run returns. -/
theorem exists_report_of_measures (nonneg : ∀ x y, 0 ≤ measure x y)
    (measures : o.Measures measure d.points) (ready : b.oracle d.points = .ok o)
    (enough : d.k + 1 ≤ d.points.size) (host : Host K) (s : σ) :
    ∃ report, (b.solve host d s).1 = .ok report := by
  obtain ⟨box, boxed, spans⟩ := d.box_ok
  have ends := measures.endsAs enough spans (d.seed.getD host.freshEntropy)
  have tells := Backend.tells_sampled (b := b) boxed ends s
  obtain ⟨summary, ran⟩ := tells.exists_ok ends
    (fun j _ => ⟨_, trialOn_of_nonneg nonneg d.points box d.sampleSize d.k _⟩) s
  obtain ⟨report, -, solved, -⟩ := Backend.exists_report ready enough boxed ran
  exact ⟨report, solved⟩

/-- If all rows are chosen, a run ends as it does on the rows in another order. -/
theorem solve_withRows_of_all (perm : rows.Perm d.points.points)
    (measures : o.Measures measure d.points) (ready : b.oracle d.points = .ok o)
    (measures' : o'.Measures measure (d.withRows rows perm).points)
    (ready' : b'.oracle (d.withRows rows perm).points = .ok o')
    (entropy : d.seed.getD host.freshEntropy = d.seed.getD host'.freshEntropy)
    (all : d.sampleSize = d.points.size) (s : σ) (s' : τ) :
    Corresponds Error.SameRefusal (fun report report' => report'.params = report.params)
      (b.solve host d s).1 (b'.solve host' (d.withRows rows perm) s').1 := by
  let d' := d.withRows rows perm
  have same_size : d'.points.size = d.points.size := d.points.size_withRows perm
  rcases Nat.lt_or_ge d.points.size (d.k + 1) with few | enough
  · have few' : d'.points.size < d'.k + 1 := same_size ▸ few
    rw [Backend.solve_of_few host s (Backend.checkBuilt_of_oracle ready) few,
      Backend.solve_of_few host' s' (Backend.checkBuilt_of_oracle ready') few', same_size]
    exact .error (.refl _)
  have enough' : d'.k + 1 ≤ d'.points.size := same_size ▸ enough
  obtain ⟨box, boxed, spans⟩ := d.box_ok
  have boxed' : d'.box = .ok box := (Design.box_withRows perm).trans boxed
  have ends := measures.endsAs enough spans (d.seed.getD host.freshEntropy)
  have ends' := measures'.endsAs enough' spans (d.seed.getD host.freshEntropy)
  refine Backend.solve_correspond (fun params params' => params' = params) ready ready' enough
    enough' boxed boxed' (Backend.sampled_correspond boxed boxed' ends ends' (fun j =>
      trialOn_withRows perm d.k_pos all (keepsWord_streamOf _ j)) entropy rfl s s') ?_
  rintro summary summary' pValue pValue' ⟨tallied, tallied', same⟩ significance significance'
  rw [List.map_id] at same
  have tally : summary'.tally = summary.tally := by rw [tallied, tallied', same]
  obtain rfl : summary' = summary := by
    cases summary
    cases summary'
    cases same
    cases tally
    rfl
  have same_pValue : pValue' = pValue := Except.ok.inj (significance'.symm.trans significance)
  rw [same_pValue]
  rfl

/-- How the runs of a design and of the design with its rows in another order end, if all
distances are those of a measure. -/
structure SameButForRows (d : Design K) (measure : List K → List K → K)
    (ended ended' : Except Error (Report (Params K) RunInfo K)) : Prop where
  /-- Two reports have the same box, and the same sum over the uniform points of every
  repetition. -/
  uniform : ∀ report report', ended = .ok report → ended' = .ok report' →
    report'.params.box = report.params.box ∧
      report'.params.trials.map Trial.u = report.params.trials.map Trial.u
  /-- Both runs return if no distance is negative and there are enough points. -/
  returns : (∀ x y, 0 ≤ measure x y) → d.k + 1 ≤ d.points.size →
    ∃ report report', ended = .ok report ∧ ended' = .ok report'
  /-- If all rows are chosen, all numbers are the same, and the other sum of every repetition is
  the one over all rows. -/
  whole : d.sampleSize = d.points.size →
    Corresponds Error.SameRefusal
      (fun report report' => report'.params = report.params ∧
        ∀ trial ∈ report.params.trials, trial.w = d.points.wholeSum measure d.k)
      ended ended'

theorem sameButForRows_of_measures (perm : rows.Perm d.points.points)
    (measures : o.Measures measure d.points) (ready : b.oracle d.points = .ok o)
    (measures' : o'.Measures measure (d.withRows rows perm).points)
    (ready' : b'.oracle (d.withRows rows perm).points = .ok o')
    (entropy : d.seed.getD host.freshEntropy = d.seed.getD host'.freshEntropy) (s : σ) (s' : τ) :
    SameButForRows d measure (b.solve host d s).1
      (b'.solve host' (d.withRows rows perm) s').1 where
  uniform report report' :=
    uniform_of_solve_withRows perm measures ready measures' ready' entropy
  returns nonneg enough := by
    have enough' : (d.withRows rows perm).k + 1 ≤ (d.withRows rows perm).points.size :=
      (d.points.size_withRows perm).symm ▸ enough
    obtain ⟨report, solved⟩ := exists_report_of_measures nonneg measures ready enough host s
    obtain ⟨report', solved'⟩ :=
      exists_report_of_measures nonneg measures' ready' enough' host' s'
    exact ⟨report, report', solved, solved'⟩
  whole all := by
    have ended := solve_withRows_of_all perm measures ready measures' ready' entropy all s s'
    generalize solved : (b.solve host d s).1 = result at ended ⊢
    generalize (b'.solve host' (d.withRows rows perm) s').1 = result' at ended ⊢
    cases ended with
    | error failure => exact .error failure
    | ok same => exact .ok ⟨same, fun trial => whole_of_solve measures ready all solved⟩

omit [IsStrictOrderedRing K] [BetaTails.Exact K] in
/-- A run without a metric fails for want of an oracle or with its first repetition, whatever the
points are. -/
theorem solve_of_searched_error {metric : Value} {settings : List (String × Value)} {e : Error}
    (searched : Metric.searched metric d.points.dim settings = .error e)
    (enough : d.k + 1 ≤ d.points.size) (host : Host K) (s : σ) :
    ((Backend.processor metric settings).solve host d s).1 =
      .error (match Oracle.treeOrder? metric settings with
        | .error e => e
        | .ok _ => blockFailure d.sampleSize (d.k + 1) e) := by
  let b : Backend σ K := .processor metric settings
  cases chosen : Oracle.treeOrder? metric settings with
  | error e' =>
      have unready : b.oracle d.points = .error e' := by
        rw [Backend.oracle_processor, Oracle.ofMetric, chosen]
        rfl
      exact Backend.solve_of_oracle_error host s unready enough
  | ok order? =>
      obtain ⟨o, ready, refuses⟩ := refuses_of_searched (σ := σ) chosen searched
      have prepared : b.oracle d.points = .ok o :=
        (Backend.oracle_processor metric settings d.points).trans ready
      obtain ⟨box, boxed, -⟩ := d.box_ok
      have ends := refuses.endsAs d.sampleSize_le enough box
        (keepsWord_streamOf (d.seed.getD host.freshEntropy))
      have tells := Backend.tells_sampled (b := b) boxed ends s
      have ran := tells.eq_error ends d.repetitions_pos (fun _ => rfl) s
      exact Backend.solve_of_sampled_error host prepared enough boxed ran

end Runs

end Exact

/-- The order of the rows does not matter where it should not. Take any design, any order of its
rows and any entropy. The box is the same. On oracles that answer with the distances of the ranks
by a measure, two reports agree on every sum over uniform points; and if all rows are chosen, the
runs end alike, with the same numbers throughout, where every other sum is the same one over all
rows of the data, for every repetition and whatever the entropy is. The same is true of the default
oracle of every metric. Without a metric both runs fail in the same way. -/
theorem solve_withRows {σ τ K : Type} [Field K] [LinearOrder K] [IsStrictOrderedRing K] [Scalar K]
    [Scalar.Exact K] [Roots K] [BetaTails K] [BetaTails.Exact K] (host host' : Host K)
    (d : Design K) {rows : List (List K)} (perm : rows.Perm d.points.points)
    (entropy : d.seed.getD host.freshEntropy = d.seed.getD host'.freshEntropy) (s : σ) (s' : τ) :
    (d.withRows rows perm).box = d.box ∧
      (∀ (b : Backend σ K) (b' : Backend τ K) (o : Oracle σ K) (o' : Oracle τ K)
        (measure : List K → List K → K),
        b.oracle d.points = .ok o → o.Measures measure d.points →
        b'.oracle (d.withRows rows perm).points = .ok o' →
        o'.Measures measure (d.withRows rows perm).points →
        SameButForRows d measure (b.solve host d s).1
          (b'.solve host' (d.withRows rows perm) s').1) ∧
      ∀ (metric : Value) (settings : List (String × Value)),
        let ended := ((Backend.processor metric settings).solve host d s).1
        let ended' :=
          ((Backend.processor metric settings).solve host' (d.withRows rows perm) s').1
        (∀ found, Metric.searched metric d.points.dim settings = .ok found →
          SameButForRows d found.distance ended ended') ∧
        ∀ e, Metric.searched metric d.points.dim settings = .error e →
          ∃ e', ended = .error e' ∧ ended' = .error e' := by
  refine ⟨Design.box_withRows perm, ?_, fun metric settings => ⟨?_, ?_⟩⟩
  · intro b b' o o' measure ready measures ready' measures'
    exact sameButForRows_of_measures perm measures ready measures' ready' entropy s s'
  · intro found searched
    obtain ⟨o, ready, measures⟩ := measures_of_searched (σ := σ) searched
    have searched' : Metric.searched metric (d.withRows rows perm).points.dim settings =
      .ok found := searched
    obtain ⟨o', ready', measures'⟩ := measures_of_searched (σ := τ) searched'
    have prepared : (Backend.processor metric settings : Backend σ K).oracle d.points = .ok o :=
      (Backend.oracle_processor metric settings d.points).trans ready
    have prepared' : (Backend.processor metric settings : Backend τ K).oracle
        (d.withRows rows perm).points = .ok o' :=
      (Backend.oracle_processor metric settings _).trans ready'
    exact sameButForRows_of_measures perm measures prepared measures' prepared' entropy s s'
  · intro e searched
    have same_size : (d.withRows rows perm).points.size = d.points.size :=
      d.points.size_withRows perm
    rcases Nat.lt_or_ge d.points.size (d.k + 1) with few | enough
    · have few' : (d.withRows rows perm).points.size < (d.withRows rows perm).k + 1 :=
        same_size ▸ few
      rw [Backend.solve_of_few host s rfl few, Backend.solve_of_few host' s' rfl few', same_size]
      exact ⟨_, rfl, rfl⟩
    · have enough' : (d.withRows rows perm).k + 1 ≤ (d.withRows rows perm).points.size :=
        same_size ▸ enough
      exact ⟨_, solve_of_searched_error searched enough host s,
        solve_of_searched_error (d := d.withRows rows perm) searched enough' host' s'⟩

/-- A run over three points of a line that chooses all of them in each of its repetitions. -/
def wholeRun : Design ℚ :=
  { threeRun with
    sampleSize := 3
    sampleSize_pos := Nat.succ_pos 2
    sampleSize_le := le_rfl }

/-- The same points from the last to the first: the numbers are the same, and the distances of the
points to their next neighbors are one, one and two. -/
theorem solve_withRows_wholeRun :
    ∃ report report',
      ((Backend.processor (.text "cityblock") [] : Backend Unit ℚ).solve twoProcessors wholeRun
        ()).1 = .ok report ∧
      ((Backend.processor (.text "cityblock") [] : Backend Unit ℚ).solve twoProcessors
        (wholeRun.withRows [[3], [1], [0]] (by decide)) ()).1 = .ok report' ∧
      report'.params = report.params ∧ ∀ trial ∈ report.params.trials, trial.w = 4 := by
  have total : threePoints.wholeSum (Metric.distance (.minkowski 1 none)) 1 = (4 : ℚ) := by
    decide +kernel
  have turned : [[3], [1], [0]].Perm wholeRun.points.points := by decide
  have same := ((solve_withRows twoProcessors twoProcessors wholeRun turned rfl () ()).2.2
    (.text "cityblock") []).1 _ (searched_cityblock 1)
  obtain ⟨report, report', solved, solved'⟩ :=
    same.returns (minkowskiDistance_nonneg 1) (by decide)
  have whole := same.whole rfl
  rw [solved, solved'] at whole
  cases whole with
  | ok result =>
      refine ⟨report, report', solved, solved', result.1, fun trial mem => ?_⟩
      exact (result.2 trial mem).trans total

end PointPattern
