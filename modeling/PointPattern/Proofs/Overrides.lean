/-
# Bounds that a caller sets

For each of the two bounds a caller hands in nothing, a number, or numbers nested in a rectangle.
Which box this makes, or why it makes none, is said here without the tables that the checks go
through. A bound without numbers counts as not set. One that is set gives its entries if it is a
number or a flat list, all of it is finite, and it has one entry or as many as there are axes;
otherwise it is refused for the first of these reasons that fails. The lower bound is judged before
the upper one. Bounds that are the corners of the data make the box of the data.
-/

import PointPattern.Proofs.Hull
import PointPattern.Proofs.NumberRectangles
import PointPattern.Proofs.Samples

namespace PointPattern

namespace Value

/-! ## What bounds say -/

/-- What may be handed in as a bound: nothing, or numbers that are not nested too deeply. -/
inductive IsBound : Value → Prop
  | null : IsBound .null
  | shaped {v : Value} {shape : List ℕ} (has : v.HasShape shape)
      (not_deep : shape.length ≤ nestingLimit) : IsBound v

/-- A bound without any number. -/
def HoldsNothing (v : Value) : Prop := v = .null ∨ v.leaves = []

/-- A bound gives these entries for the axes: all of its own, or a single one on every axis. -/
inductive Gives (dim : ℕ) : Value → List Float → Prop
  | copied {v : Value} {cells : List Value} {entries : List Float} (flat : v.IsFlat cells)
      (coordinates : ∀ c ∈ cells, c.IsCoordinate) (length : cells.length = dim)
      (reads : List.Forall₂ ReadsAs cells entries) : Gives dim v entries
  | repeated {v c : Value} {x : Float} (flat : v.IsFlat [c]) (coordinate : c.IsCoordinate)
      (reads : c.ReadsAs x) : Gives dim v (List.replicate dim x)

/-- A bound is refused by itself, for the first reason that there is. -/
inductive Refused (dim : ℕ) (parameter : String) : Value → Error → Prop
  /-- It is a list of lists. -/
  | nested {v : Value} {shape : List ℕ} (has : v.HasShape shape) (deep : 2 ≤ shape.length) :
      Refused dim parameter v (.dimension (.axes parameter 1 shape))
  /-- Some number is not finite. -/
  | infinite {v c : Value} {cells : List Value} (flat : v.IsFlat cells) (mem : c ∈ cells)
      (not_finite : ¬c.IsCoordinate) :
      Refused dim parameter v (.invalid (.notFinite parameter
        (cells.countP (·.cellToFloat.isNaN)) (cells.countP (·.cellToFloat.isInf))))
  /-- There are several entries, but not as many as axes. -/
  | length {v : Value} {cells : List Value} (flat : v.IsFlat cells)
      (coordinates : ∀ c ∈ cells, c.IsCoordinate) (not_all : cells.length ≠ dim)
      (not_one : cells.length ≠ 1) :
      Refused dim parameter v (.boundLength parameter dim cells.length)

end Value

/-! ## One bound -/

section Bound

variable {v : Value} {cells : List Value} {dim : ℕ} {parameter : String} {entries : List Float}

open Value

/-- The entries of a list for the axes: all of them, or a single one on every axis. -/
def spread (entries : List Float) (dim : ℕ) (parameter : String) :
    Except Error { entries : List Float // entries.length = dim } :=
  if h : entries.length = dim then .ok ⟨entries, h⟩
  else match entries with
    | [entry] => .ok ⟨List.replicate dim entry, List.length_replicate⟩
    | entries => .error (.boundLength parameter dim entries.length)

theorem spread_of_length (length : entries.length = dim) (parameter : String) :
    spread entries dim parameter = .ok ⟨entries, length⟩ := dif_pos length

theorem spread_singleton (x : Float) (dim : ℕ) (parameter : String) :
    spread [x] dim parameter = .ok ⟨List.replicate dim x, List.length_replicate⟩ := by
  by_cases one : [x].length = dim
  · subst one
    rfl
  · rw [spread, dif_neg one]

theorem spread_of_misfit (not_all : entries.length ≠ dim) (not_one : entries.length ≠ 1)
    (parameter : String) :
    spread entries dim parameter = .error (.boundLength parameter dim entries.length) := by
  rw [spread, dif_neg not_all]
  split
  · exact absurd rfl not_one
  · rfl

namespace Value.IsFlat

variable (flat : v.IsFlat cells) (some_cells : cells ≠ [])
include flat some_cells

/-- A flat bound is refused if some of it is not finite. -/
theorem checkBound_of_infinite (infinite : ¬∀ c ∈ cells, c.IsCoordinate) :
    checkBound v dim parameter = .error (.invalid (.notFinite parameter
      (cells.countP (·.cellToFloat.isNaN)) (cells.countP (·.cellToFloat.isInf)))) := by
  obtain ⟨table, read, grid⟩ := flat.exists_checkArray some_cells parameter
  have refused : checkFinite ⟨[cells.length], cells.map cellToFloat⟩ parameter =
      .error (.invalid (.notFinite parameter (cells.countP (·.cellToFloat.isNaN))
        (cells.countP (·.cellToFloat.isInf)))) := by
    rw [flat.coordinates_iff] at infinite
    rw [checkFinite_of_infinite infinite, List.countP_map, List.countP_map]
    rfl
  simp only [checkBound, read, grid, Bind.bind, Except.bind, checkAxes, refused]
  rfl

/-- One that is finite is judged by the number of its entries alone. -/
theorem checkBound_of_finite (finite : ∀ c ∈ cells, c.IsCoordinate) :
    checkBound v dim parameter = spread (cells.map cellToFloat) dim parameter := by
  obtain ⟨table, read, grid⟩ := flat.exists_checkArray some_cells parameter
  have passed := checkFinite_of_finite (g := ⟨[cells.length], cells.map cellToFloat⟩)
    (flat.coordinates_iff.1 finite) parameter
  generalize cells.map cellToFloat = entries at grid passed ⊢
  have axes : checkAxes (⟨[cells.length], entries⟩ : Grid Float) 1 parameter = .ok () := rfl
  simp only [checkBound, read, grid, Bind.bind, Except.bind, axes, passed, spread]
  split
  · rfl
  · rcases entries with _ | ⟨x, _ | ⟨y, rest⟩⟩ <;> rfl

end Value.IsFlat

/-- A list of lists is refused for its axes. -/
theorem Value.HasShape.checkBound_of_nested {shape : List ℕ} (has : v.HasShape shape)
    (not_deep : shape.length ≤ nestingLimit) (some_cells : v.leaves ≠ [])
    (nested : 2 ≤ shape.length) :
    checkBound v dim parameter = .error (.dimension (.axes parameter 1 shape)) := by
  obtain ⟨table, read, grid⟩ := has.exists_checkArray not_deep some_cells parameter
  have flat : asFlat table.grid = table.grid := by
    rw [grid, asFlat]
    split
    · next no_axes =>
        have no_axes : shape = [] := no_axes
        rw [no_axes, List.length_nil] at nested
        omega
    · rfl
  have axes : checkAxes table.grid 1 parameter = .error (.dimension (.axes parameter 1 shape)) := by
    rw [grid, checkAxes, if_neg (by dsimp only; omega)]
  simp only [checkBound, read, flat, Bind.bind, Except.bind, axes]

theorem Value.Gives.exists_checkBound (gives : v.Gives dim entries) (dim_pos : 0 < dim)
    (parameter : String) : ∃ length, checkBound v dim parameter = .ok ⟨entries, length⟩ := by
  cases gives with
  | @copied cells _ flat coordinates length reads =>
      have some_cells : cells ≠ [] := List.length_pos_iff.1 (length ▸ dim_pos)
      have values : cells.map cellToFloat = entries := by
        rw [← List.forall₂_eq_eq_eq, List.forall₂_map_left_iff]
        exact reads.imp fun _ _ => ReadsAs.cellToFloat_eq
      subst values
      rw [flat.checkBound_of_finite some_cells coordinates]
      exact ⟨_, spread_of_length ((List.length_map _).trans length) parameter⟩
  | repeated flat coordinate reads =>
      rw [flat.checkBound_of_finite (List.cons_ne_nil _ _) (by simpa using coordinate),
        List.map_singleton, reads.cellToFloat_eq]
      exact ⟨_, spread_singleton _ dim parameter⟩

/-- A bound that gives entries is set. -/
theorem Value.Gives.set (gives : v.Gives dim entries) (dim_pos : 0 < dim) : ¬v.HoldsNothing := by
  have of_flat {cells : List Value} (flat : v.IsFlat cells) (some_cells : cells ≠ []) :
      ¬v.HoldsNothing := by
    rintro (rfl | nothing)
    · cases flat with
      | number number => cases number
    · exact some_cells (flat.leaves_eq.symm.trans nothing)
  cases gives with
  | copied flat coordinates length reads =>
      exact of_flat flat (List.length_pos_iff.1 (length ▸ dim_pos))
  | repeated flat coordinate reads => exact of_flat flat (List.cons_ne_nil _ _)

theorem Value.Refused.checkBound_eq {e : Error} (refused : v.Refused dim parameter e)
    (bound : v.IsBound) (set : ¬v.HoldsNothing) : checkBound v dim parameter = .error e := by
  have some_leaves : v.leaves ≠ [] := fun nothing => set (.inr nothing)
  cases refused with
  | nested has deep =>
      cases bound with
      | null => exact absurd (.inl rfl) set
      | shaped has' not_deep =>
          rw [has'.unique has] at not_deep
          exact has.checkBound_of_nested not_deep some_leaves deep
  | infinite flat mem not_finite =>
      rw [flat.leaves_eq] at some_leaves
      exact flat.checkBound_of_infinite some_leaves fun all => not_finite (all _ mem)
  | @length cells flat coordinates not_all not_one =>
      rw [flat.leaves_eq] at some_leaves
      rw [flat.checkBound_of_finite some_leaves coordinates, spread_of_misfit, List.length_map]
      · rwa [List.length_map]
      · rwa [List.length_map]

/-- A flat bound gives entries or is refused. -/
theorem Value.IsFlat.gives_or_refused (flat : v.IsFlat cells) (dim : ℕ) (parameter : String) :
    (∃ entries, v.Gives dim entries) ∨ ∃ e, v.Refused dim parameter e := by
  by_cases coordinates : ∀ c ∈ cells, c.IsCoordinate
  · have reads : List.Forall₂ ReadsAs cells (cells.map cellToFloat) :=
      List.forall₂_map_right_iff.2 (List.forall₂_same.2 fun c mem => (coordinates c mem).reads.2)
    by_cases all : cells.length = dim
    · exact .inl ⟨_, .copied flat coordinates all reads⟩
    · by_cases one : cells.length = 1
      · obtain ⟨c, rfl⟩ := List.length_eq_one_iff.1 one
        have coordinate := coordinates c List.mem_cons_self
        exact .inl ⟨_, .repeated flat coordinate coordinate.reads.2⟩
      · exact .inr ⟨_, .length flat coordinates all one⟩
  · simp only [not_forall] at coordinates
    obtain ⟨c, mem, not_finite⟩ := coordinates
    exact .inr ⟨_, .infinite flat mem not_finite⟩

/-- So does every bound that is set. -/
theorem Value.IsBound.gives_or_refused (bound : v.IsBound) (set : ¬v.HoldsNothing) (dim : ℕ)
    (parameter : String) :
    (∃ entries, v.Gives dim entries) ∨ ∃ e, v.Refused dim parameter e := by
  cases bound with
  | null => exact absurd (.inl rfl) set
  | shaped has not_deep =>
      cases has with
      | number number => exact (IsFlat.number number).gives_or_refused dim parameter
      | empty => exact absurd (.inr rfl) set
      | @list items shape some_items agree =>
          cases shape with
          | nil =>
              refine (IsFlat.list fun c mem => ?_).gives_or_refused dim parameter
              cases agree c mem with
              | number number => exact number
          | cons n rest =>
              exact .inr ⟨_, .nested (.list some_items agree) (by simp)⟩

/-- A bound that is set passes with the entries that it gives, and fails for what it is refused
for. -/
theorem Value.IsBound.checkBound_iff (bound : v.IsBound) (set : ¬v.HoldsNothing)
    (dim_pos : 0 < dim) (parameter : String) :
    (∀ entries, (∃ length, checkBound v dim parameter = .ok ⟨entries, length⟩) ↔
        v.Gives dim entries) ∧
      ∀ e, checkBound v dim parameter = .error e ↔ v.Refused dim parameter e := by
  have gives (entries : List Float) (gives : v.Gives dim entries) :=
    gives.exists_checkBound dim_pos parameter
  have refused (e : Error) (refused : v.Refused dim parameter e) := refused.checkBound_eq bound set
  rcases bound.gives_or_refused set dim parameter with ⟨given, its_own⟩ | ⟨cause, its_own⟩
  · obtain ⟨length, passed⟩ := gives given its_own
    refine ⟨fun entries => ⟨?_, gives entries⟩, fun e => ⟨fun failed => ?_, refused e⟩⟩
    · rintro ⟨length', passed'⟩
      rw [passed] at passed'
      cases passed'
      exact its_own
    · rw [passed] at failed
      cases failed
  · have failed := refused cause its_own
    refine ⟨fun entries => ⟨?_, gives entries⟩, fun e => ⟨fun failed' => ?_, refused e⟩⟩
    · rintro ⟨length, passed⟩
      rw [failed] at passed
      cases passed
    · rw [failed] at failed'
      cases failed'
      exact its_own

theorem Value.IsBound.isUnset_eq (bound : v.IsBound) :
    ∃ unset, isUnset v = .ok unset ∧ (unset = true ↔ v.HoldsNothing) := by
  cases bound with
  | null => exact ⟨true, rfl, iff_of_true rfl (.inl rfl)⟩
  | @shaped v shape has not_deep =>
      have outline : v.outline 0 = ⟨shape, false⟩ := has.outline_eq not_deep
      have count : v.leaves.length = Grid.sizeOf shape := by
        rw [Value.length_leaves has.isPlain.isFilled (by rw [outline]), outline]
      have given : v.isNull = false := by
        cases has with
        | number number => cases number <;> rfl
        | empty => rfl
        | list => rfl
      refine ⟨decide (Grid.sizeOf shape = 0), ?_, ?_⟩
      · rw [isUnset, given, Value.size, shape?_of_outline outline]
        rfl
      · rw [decide_eq_true_eq, ← count, List.length_eq_zero_iff]
        refine ⟨.inr, fun nothing => nothing.resolve_left ?_⟩
        rintro rfl
        cases given

end Bound

/-! ## Both bounds -/

section Bounds

variable {minima maxima : Value} {dim : ℕ}

section Judged

variable (low : minima.IsBound) (high : maxima.IsBound)
include low high

theorem checkBounds_of_unset (low_unset : minima.HoldsNothing) (high_unset : maxima.HoldsNothing) :
    checkBounds minima maxima dim = .ok none := by
  obtain ⟨unset, low_asked, low_iff⟩ := low.isUnset_eq
  obtain ⟨unset', high_asked, high_iff⟩ := high.isUnset_eq
  rw [checkBounds, low_asked, high_asked, low_iff.2 low_unset, high_iff.2 high_unset]
  rfl

theorem checkBounds_of_low_unset (low_unset : minima.HoldsNothing)
    (high_set : ¬maxima.HoldsNothing) :
    checkBounds minima maxima dim = .error (.incompleteBounds "maxima" "minima") := by
  obtain ⟨unset, low_asked, low_iff⟩ := low.isUnset_eq
  obtain ⟨unset', high_asked, high_iff⟩ := high.isUnset_eq
  rw [checkBounds, low_asked, high_asked, low_iff.2 low_unset,
    Bool.eq_false_iff.2 (mt high_iff.1 high_set)]
  rfl

theorem checkBounds_of_high_unset (low_set : ¬minima.HoldsNothing)
    (high_unset : maxima.HoldsNothing) :
    checkBounds minima maxima dim = .error (.incompleteBounds "minima" "maxima") := by
  obtain ⟨unset, low_asked, low_iff⟩ := low.isUnset_eq
  obtain ⟨unset', high_asked, high_iff⟩ := high.isUnset_eq
  rw [checkBounds, low_asked, high_asked, high_iff.2 high_unset,
    Bool.eq_false_iff.2 (mt low_iff.1 low_set)]
  rfl

/-- Two bounds that are set are judged one after the other. -/
theorem checkBounds_of_set (low_set : ¬minima.HoldsNothing) (high_set : ¬maxima.HoldsNothing) :
    checkBounds minima maxima dim = (do
      let low ← checkBound minima dim "minima"
      let high ← checkBound maxima dim "maxima"
      return some ⟨low, high, low.2, high.2⟩) := by
  obtain ⟨unset, low_asked, low_iff⟩ := low.isUnset_eq
  obtain ⟨unset', high_asked, high_iff⟩ := high.isUnset_eq
  rw [checkBounds, low_asked, high_asked, Bool.eq_false_iff.2 (mt low_iff.1 low_set),
    Bool.eq_false_iff.2 (mt high_iff.1 high_set)]
  rfl

/-- They pass with what both give. -/
theorem checkBounds_eq_some_iff_of_set (low_set : ¬minima.HoldsNothing)
    (high_set : ¬maxima.HoldsNothing) (dim_pos : 0 < dim) (b : Bounds Float dim) :
    checkBounds minima maxima dim = .ok (some b) ↔
      minima.Gives dim b.low ∧ maxima.Gives dim b.high := by
  rw [checkBounds_of_set low high low_set high_set,
    ← (low.checkBound_iff low_set dim_pos "minima").1,
    ← (high.checkBound_iff high_set dim_pos "maxima").1]
  constructor
  · intro passed
    obtain ⟨lower, low_passed, passed⟩ := exists_of_bind_eq_ok passed
    obtain ⟨upper, high_passed, passed⟩ := exists_of_bind_eq_ok passed
    cases passed
    exact ⟨⟨lower.2, low_passed⟩, upper.2, high_passed⟩
  · rintro ⟨⟨_, low_passed⟩, _, high_passed⟩
    rw [low_passed, high_passed]
    rfl

/-- Bounds pass exactly if both give entries. -/
theorem checkBounds_eq_some_iff (dim_pos : 0 < dim) (b : Bounds Float dim) :
    checkBounds minima maxima dim = .ok (some b) ↔
      minima.Gives dim b.low ∧ maxima.Gives dim b.high := by
  by_cases low_unset : minima.HoldsNothing
  · have gives_not : ¬minima.Gives dim b.low := fun gives => gives.set dim_pos low_unset
    by_cases high_unset : maxima.HoldsNothing
    · simp [checkBounds_of_unset low high low_unset high_unset, gives_not]
    · simp [checkBounds_of_low_unset low high low_unset high_unset, gives_not]
  · by_cases high_unset : maxima.HoldsNothing
    · have gives_not : ¬maxima.Gives dim b.high := fun gives => gives.set dim_pos high_unset
      simp [checkBounds_of_high_unset low high low_unset high_unset, gives_not]
    · exact checkBounds_eq_some_iff_of_set low high low_unset high_unset dim_pos b

/-- They fail for what the lower one is refused for, and otherwise for the upper one. -/
theorem checkBounds_eq_error_iff (low_set : ¬minima.HoldsNothing)
    (high_set : ¬maxima.HoldsNothing) (dim_pos : 0 < dim) (e : Error) :
    checkBounds minima maxima dim = .error e ↔
      minima.Refused dim "minima" e ∨
        (∃ entries, minima.Gives dim entries) ∧ maxima.Refused dim "maxima" e := by
  have lower := low.checkBound_iff low_set dim_pos "minima"
  have upper := high.checkBound_iff high_set dim_pos "maxima"
  simp only [checkBounds_of_set low high low_set high_set, ← lower.1, ← lower.2, ← upper.2]
  cases checkBound minima dim "minima" with
  | error cause => simp [Bind.bind, Except.bind]
  | ok entries =>
      have given : ∃ given length, (.ok entries : Except Error _) = .ok ⟨given, length⟩ :=
        ⟨entries.1, entries.2, rfl⟩
      cases checkBound maxima dim "maxima" with
      | error cause =>
          constructor
          · intro failed
            cases failed
            exact .inr ⟨given, rfl⟩
          · rintro (impossible | ⟨-, failed⟩)
            · cases impossible
            · cases failed
              rfl
      | ok entries' =>
          constructor
          · intro impossible
            cases impossible
          · rintro (impossible | ⟨-, impossible⟩) <;> cases impossible

/-- There are no bounds exactly if neither is set. -/
theorem checkBounds_eq_none_iff :
    checkBounds minima maxima dim = .ok none ↔ minima.HoldsNothing ∧ maxima.HoldsNothing := by
  refine ⟨fun passed => ?_, fun unset => checkBounds_of_unset low high unset.1 unset.2⟩
  by_cases low_unset : minima.HoldsNothing
  · refine ⟨low_unset, by_contra fun high_set => ?_⟩
    rw [checkBounds_of_low_unset low high low_unset high_set] at passed
    cases passed
  · by_cases high_unset : maxima.HoldsNothing
    · rw [checkBounds_of_high_unset low high low_unset high_unset] at passed
      cases passed
    · rw [checkBounds_of_set low high low_unset high_unset] at passed
      obtain ⟨_, -, passed⟩ := exists_of_bind_eq_ok passed
      obtain ⟨_, -, passed⟩ := exists_of_bind_eq_ok passed
      cases passed

/-- One bound alone is incomplete, and nothing else is. -/
theorem checkBounds_eq_incomplete_iff (dim_pos : 0 < dim) (provided missing : String) :
    checkBounds minima maxima dim = .error (.incompleteBounds provided missing) ↔
      provided = "minima" ∧ missing = "maxima" ∧ ¬minima.HoldsNothing ∧ maxima.HoldsNothing ∨
        provided = "maxima" ∧ missing = "minima" ∧ minima.HoldsNothing ∧
          ¬maxima.HoldsNothing := by
  by_cases low_unset : minima.HoldsNothing
  · by_cases high_unset : maxima.HoldsNothing
    · simp [checkBounds_of_unset low high low_unset high_unset, low_unset, high_unset]
    · simp [checkBounds_of_low_unset low high low_unset high_unset, low_unset, high_unset,
        eq_comm]
  · by_cases high_unset : maxima.HoldsNothing
    · simp [checkBounds_of_high_unset low high low_unset high_unset, low_unset, high_unset,
        eq_comm]
    · rw [checkBounds_eq_error_iff low high low_unset high_unset dim_pos]
      have not_incomplete {v : Value} {parameter : String} :
          ¬v.Refused dim parameter (.incompleteBounds provided missing) := nofun
      simp [not_incomplete, low_unset, high_unset]

end Judged

end Bounds

/-! ## The box -/

/-- The bounds that a caller sets make the box, whichever way round they are. -/
theorem estimateBox_of_bounds {data : Grid Float} {minima maxima : Value} {n dim : ℕ}
    {rest : List ℕ} (shape : data.shape = n :: dim :: rest) {b : Bounds Float dim}
    (checked : checkBounds minima maxima dim = .ok (some b)) :
    estimateBox data minima maxima =
      .ok ⟨b.low, List.zipWith (· - ·) b.high b.low, .override⟩ := by
  obtain ⟨_, values⟩ := data
  dsimp only at shape
  subst shape
  simp only [estimateBox, checked, Bind.bind, Except.bind]
  rfl

theorem estimateBox_of_refused {data : Grid Float} {minima maxima : Value} {n dim : ℕ}
    {rest : List ℕ} (shape : data.shape = n :: dim :: rest) {e : Error}
    (refused : checkBounds minima maxima dim = .error e) :
    estimateBox data minima maxima = .error e := by
  obtain ⟨_, values⟩ := data
  dsimp only at shape
  subst shape
  simp only [estimateBox, refused, Bind.bind, Except.bind]

/-! ## The corners of data -/

theorem Scalar.min_choice {K : Type} [Scalar K] (x y : K) :
    Scalar.min x y = x ∨ Scalar.min x y = y := by
  rw [Scalar.min]
  split
  · exact .inl rfl
  · exact .inr rfl

theorem Scalar.max_choice {K : Type} [Scalar K] (x y : K) :
    Scalar.max x y = x ∨ Scalar.max x y = y := by
  rw [Scalar.max]
  split
  · exact .inl rfl
  · exact .inr rfl

theorem less_iff_real {x y : Float} (x_finite : x.isFinite = true) (y_finite : y.isFinite = true) :
    Scalar.less x y = true ↔ Double.real x < Double.real y := by
  show decide (x < y) = true ↔ _
  rw [decide_eq_true_iff]
  exact Double.lt_iff x_finite y_finite

/-- The smaller of two finite doubles is no greater than either. -/
theorem real_min_le {x y : Float} (x_finite : x.isFinite = true) (y_finite : y.isFinite = true) :
    Double.real (Scalar.min x y) ≤ Double.real x ∧
      Double.real (Scalar.min x y) ≤ Double.real y := by
  have number : Scalar.isNaN x = false := Double.isNaN_of_isFinite (f := Double.view x) x_finite
  rw [Scalar.min, number, Bool.or_false]
  split
  · next less => exact ⟨le_rfl, ((less_iff_real x_finite y_finite).1 less).le⟩
  · next not_less =>
      exact ⟨not_lt.1 (mt (less_iff_real x_finite y_finite).2 not_less), le_rfl⟩

/-- The larger of two finite doubles is no smaller than either. -/
theorem le_real_max {x y : Float} (x_finite : x.isFinite = true) (y_finite : y.isFinite = true) :
    Double.real x ≤ Double.real (Scalar.max x y) ∧
      Double.real y ≤ Double.real (Scalar.max x y) := by
  have number : Scalar.isNaN x = false := Double.isNaN_of_isFinite (f := Double.view x) x_finite
  rw [Scalar.max, number, Bool.or_false]
  split
  · next less => exact ⟨le_rfl, ((less_iff_real y_finite x_finite).1 less).le⟩
  · next not_less =>
      exact ⟨not_lt.1 (mt (less_iff_real y_finite x_finite).2 not_less), le_rfl⟩

/-- Two rows are the corners of points: on each axis the one has the least of the coordinates and
the other the greatest. -/
structure PointSet.HasCorners (points : PointSet Float) (low high : List Float) : Prop where
  length_low : low.length = points.dim
  length_high : high.length = points.dim
  touched_low : ∀ axis < points.dim, ∃ row ∈ points.points,
    coordinate row axis = coordinate low axis
  touched_high : ∀ axis < points.dim, ∃ row ∈ points.points,
    coordinate row axis = coordinate high axis
  holds : ∀ row ∈ points.points, ∀ axis < points.dim,
    coordinate low axis ≤ coordinate row axis ∧ coordinate row axis ≤ coordinate high axis

/-- Finite points have the corners that their box is made of. -/
theorem PointSet.hasCorners {points : PointSet Float} (finite : points.IsFinite)
    {first : List Float} {rest : List (List Float)} (rows : points.points = first :: rest) :
    points.HasCorners (Box.lowest rest first) (Box.highest rest first) := by
  have lengths : ∀ row ∈ first :: rest, row.length = points.dim := rows ▸ points.length_eq
  have corner {f : Float → Float → Float} : (rest.foldl (List.zipWith f) first).length =
      points.dim :=
    length_foldl_zipWith (lengths first List.mem_cons_self)
      fun row mem => lengths row (List.mem_cons_of_mem first mem)
  have finite_at : ∀ axis < points.dim, ∀ row ∈ first :: rest,
      (coordinate row axis).isFinite = true := fun axis inside row mem =>
    finite row (rows ▸ mem) _ (coordinate_mem (inside.trans_eq (lengths row mem).symm))
  have : IsPreorder Float fun x y => Double.real x ≤ Double.real y :=
    { refl := fun _ => le_rfl, trans := fun _ _ _ => le_trans }
  have : IsPreorder Float fun x y => Double.real y ≤ Double.real x :=
    { refl := fun _ => le_rfl, trans := fun _ _ _ above below => below.trans above }
  have least (axis : ℕ) (inside : axis < points.dim) :=
    coordinate_choice (r := fun x y => Double.real x ≤ Double.real y) Scalar.min_choice
      (fun _ _ x_finite y_finite => (real_min_le x_finite y_finite).1)
      (fun _ _ x_finite y_finite => (real_min_le x_finite y_finite).2) lengths inside
      (finite_at axis inside)
  have greatest (axis : ℕ) (inside : axis < points.dim) :=
    coordinate_choice (r := fun x y => Double.real y ≤ Double.real x) Scalar.max_choice
      (fun _ _ x_finite y_finite => (le_real_max x_finite y_finite).1)
      (fun _ _ x_finite y_finite => (le_real_max x_finite y_finite).2) lengths inside
      (finite_at axis inside)
  have touched {chosen : Float} {axis : ℕ} (inside : axis < points.dim)
      (touch : ∃ row ∈ first :: rest, coordinate row axis = chosen) : chosen.isFinite = true := by
    obtain ⟨row, mem, rfl⟩ := touch
    exact finite_at axis inside row mem
  refine ⟨corner, corner, ?_, ?_, ?_⟩
  all_goals rw [rows]
  · exact fun axis inside => (least axis inside).1
  · exact fun axis inside => (greatest axis inside).1
  · intro row mem axis inside
    have finite_row := finite_at axis inside row mem
    have finite_low := touched inside (least axis inside).1
    have finite_high := touched inside (greatest axis inside).1
    exact ⟨(Double.le_iff finite_low finite_row).2 ((least axis inside).2 row mem),
      (Double.le_iff finite_row finite_high).2 ((greatest axis inside).2 row mem)⟩

/-- What is chosen from two rows, place by place, comes from one of them. -/
theorem mem_or_mem_of_mem_zipWith {K : Type} {f : K → K → K}
    (choice : ∀ x y, f x y = x ∨ f x y = y) {xs ys : List K} {z : K}
    (mem : z ∈ List.zipWith f xs ys) : z ∈ xs ∨ z ∈ ys := by
  induction xs generalizing ys with
  | nil => cases mem
  | cons x xs ih =>
      cases ys with
      | nil => cases mem
      | cons y ys =>
          rcases List.mem_cons.1 mem with rfl | later
          · rcases choice x y with left | right
            · exact .inl (List.mem_cons.2 (.inl left))
            · exact .inr (List.mem_cons.2 (.inl right))
          · exact (ih later).imp (List.mem_cons_of_mem x) (List.mem_cons_of_mem y)

/-- What is chosen from finite rows, place by place, is finite. -/
theorem finite_foldl_zipWith {f : Float → Float → Float} (choice : ∀ x y, f x y = x ∨ f x y = y)
    {rows : List (List Float)} {first : List Float}
    (finite : ∀ row ∈ first :: rows, ∀ x ∈ row, x.isFinite = true) :
    ∀ x ∈ rows.foldl (List.zipWith f) first, x.isFinite = true := by
  induction rows generalizing first with
  | nil => exact finite first List.mem_cons_self
  | cons row rest ih =>
      refine ih fun other mem => ?_
      rcases List.mem_cons.1 mem with rfl | later
      · intro x x_mem
        rcases mem_or_mem_of_mem_zipWith choice x_mem with in_first | in_row
        · exact finite first List.mem_cons_self x in_first
        · exact finite row (List.mem_cons_of_mem first List.mem_cons_self) x in_row
      · exact finite other (List.mem_cons_of_mem first (List.mem_cons_of_mem row later))

/-- Finite doubles give themselves. -/
theorem Value.gives_reals {entries : List Float} {dim : ℕ} (length : entries.length = dim)
    (finite : ∀ x ∈ entries, x.isFinite = true) :
    (Value.list (entries.map .real)).Gives dim entries := by
  refine .copied (.list ?_) ?_ ((List.length_map _).trans length) ?_
  · exact List.forall_mem_map.2 fun x _ => .real x
  · exact List.forall_mem_map.2 fun x mem => .real (finite x mem)
  · exact List.forall₂_map_left_iff.2 (List.forall₂_same.2 fun x _ => .real x)

theorem Value.isBound_reals (entries : List Float) : (Value.list (entries.map .real)).IsBound := by
  cases entries with
  | nil => exact .shaped .empty (by decide)
  | cons x rest =>
      have agree : ∀ item ∈ (x :: rest).map Value.real, item.HasShape [] :=
        List.forall_mem_map.2 fun y _ => .number (.real y)
      exact .shaped (.list (List.cons_ne_nil _ _) agree) (by decide : 1 ≤ nestingLimit)

/-- Without bounds the box of points is their hull. -/
theorem estimateBox_toGrid (points : PointSet Float) :
    estimateBox points.toGrid .null .null = Box.hull points.points := by
  have rows : Grid.cut points.points.length (points.dim * Grid.sizeOf [])
      points.points.flatten = points.points := by
    have no_axes : points.dim * Grid.sizeOf [] = points.dim := Nat.mul_one _
    rw [no_axes, cut_flatten points.length_eq]
  rw [estimateBox, PointSet.toGrid, Grid.ofRows]
  dsimp only
  rw [rows]
  rfl

/-- The corners of finite points, set as bounds, make the box of the points. -/
theorem estimateBox_of_corners {points : PointSet Float} (finite : points.IsFinite)
    {first : List Float} {rest : List (List Float)} (rows : points.points = first :: rest) :
    estimateBox points.toGrid .null .null =
        .ok (.ofCorners (Box.lowest rest first) (Box.highest rest first) .data) ∧
      estimateBox points.toGrid (.list ((Box.lowest rest first).map .real))
          (.list ((Box.highest rest first).map .real)) =
        .ok (.ofCorners (Box.lowest rest first) (Box.highest rest first) .override) := by
  have corners := PointSet.hasCorners finite rows
  have finite : ∀ row ∈ first :: rest, ∀ x ∈ row, x.isFinite = true := rows ▸ finite
  have low := Value.gives_reals corners.length_low (finite_foldl_zipWith Scalar.min_choice finite)
  have high := Value.gives_reals corners.length_high
    (finite_foldl_zipWith Scalar.max_choice finite)
  have checked := (checkBounds_eq_some_iff (Value.isBound_reals _) (Value.isBound_reals _)
    points.dim_pos ⟨_, _, corners.length_low, corners.length_high⟩).2 ⟨low, high⟩
  refine ⟨?_, estimateBox_of_bounds rfl checked⟩
  rw [estimateBox_toGrid, rows]
  rfl

/-! ## Any bounds -/

/-- Take any number of axes and, for each bound, nothing or numbers in a rectangle. There are no
bounds exactly if neither holds a number, and one alone is refused as incomplete, by name. Two that
hold numbers pass exactly if each is a number or a flat list, all of it finite, with one entry or
as many as there are axes; a single entry is repeated, and a full list is copied. Otherwise the
lower bound is refused if it is bad in itself, and the upper one only if the lower one is good: for
its axes, for numbers that are not finite, or, if it is flat and finite, for its length. Bounds that
pass make the box, whose sides may have any sign. The corners of finite points, which have the least
and the greatest of the coordinates on each axis, make the box of the points. -/
theorem checkBounds_judges {minima maxima : Value} {dim : ℕ} (low : minima.IsBound)
    (high : maxima.IsBound) (dim_pos : 0 < dim) :
    (checkBounds minima maxima dim = .ok none ↔ minima.HoldsNothing ∧ maxima.HoldsNothing) ∧
      (∀ provided missing,
        checkBounds minima maxima dim = .error (.incompleteBounds provided missing) ↔
          provided = "minima" ∧ missing = "maxima" ∧ ¬minima.HoldsNothing ∧
              maxima.HoldsNothing ∨
            provided = "maxima" ∧ missing = "minima" ∧ minima.HoldsNothing ∧
              ¬maxima.HoldsNothing) ∧
      (∀ b : Bounds Float dim, checkBounds minima maxima dim = .ok (some b) ↔
        minima.Gives dim b.low ∧ maxima.Gives dim b.high) ∧
      (¬minima.HoldsNothing → ¬maxima.HoldsNothing → ∀ e,
        checkBounds minima maxima dim = .error e ↔
          minima.Refused dim "minima" e ∨
            (∃ entries, minima.Gives dim entries) ∧ maxima.Refused dim "maxima" e) ∧
      (∀ (data : Grid Float) (n : ℕ) (rest : List ℕ), data.shape = n :: dim :: rest →
        (∀ e, checkBounds minima maxima dim = .error e →
          estimateBox data minima maxima = .error e) ∧
        ∀ b : Bounds Float dim, checkBounds minima maxima dim = .ok (some b) →
          estimateBox data minima maxima =
            .ok ⟨b.low, List.zipWith (· - ·) b.high b.low, .override⟩) ∧
      ∀ points : PointSet Float, points.IsFinite → ∀ first rest,
        points.points = first :: rest →
          points.HasCorners (Box.lowest rest first) (Box.highest rest first) ∧
            estimateBox points.toGrid .null .null =
              .ok (.ofCorners (Box.lowest rest first) (Box.highest rest first) .data) ∧
            estimateBox points.toGrid (.list ((Box.lowest rest first).map .real))
                (.list ((Box.highest rest first).map .real)) =
              .ok (.ofCorners (Box.lowest rest first) (Box.highest rest first) .override) := by
  exact ⟨checkBounds_eq_none_iff low high, checkBounds_eq_incomplete_iff low high dim_pos,
    checkBounds_eq_some_iff low high dim_pos,
    fun low_set high_set => checkBounds_eq_error_iff low high low_set high_set dim_pos,
    fun data n rest shape => ⟨fun e => estimateBox_of_refused shape,
      fun b => estimateBox_of_bounds shape⟩,
    fun points finite first rest rows =>
      ⟨PointSet.hasCorners finite rows, estimateBox_of_corners finite rows⟩⟩

/-- Two points of the plane. -/
def twoCorners : PointSet Float where
  dim := 2
  points := [[0, 5], [2, 1]]
  dim_pos := Nat.two_pos
  points_ne_nil := List.cons_ne_nil _ _
  length_eq := by simp

/-- A number below a list of two makes a box with a side that goes down. Three entries for two axes
are refused before the upper bound is looked at, and an empty list of lists is no bound. -/
theorem checkBounds_judges_twoCorners :
    estimateBox twoCorners.toGrid (.real 3) (.list [.real 1, .real 5]) =
        .ok ⟨[3, 3], [1 - 3, 5 - 3], .override⟩ ∧
      checkBounds (.list [.real 0, .real 0, .real 0]) (.list [.list [.real 0]]) 2 =
        .error (.boundLength "minima" 2 3) ∧
      checkBounds (.list [.list []]) (.real 3) 2 = .error (.incompleteBounds "maxima" "minima") ∧
      estimateBox twoCorners.toGrid (.list [.real 0, .real 1]) (.list [.real 2, .real 5]) =
        .ok ⟨[0, 1], [2 - 0, 5 - 1], .override⟩ := by
  have number (x : Float) : (Value.real x).IsBound := .shaped (.number (.real x)) (by decide)
  have nested : (Value.list [.list [.real 0]]).IsBound :=
    .shaped (Value.HasShape.number (.real 0)).singleton.singleton (by decide)
  have empty : (Value.list [.list []]).IsBound :=
    .shaped Value.HasShape.empty.singleton (by decide)
  refine ⟨?_, ?_, ?_, ?_⟩
  · have judged := checkBounds_judges (number 3) (Value.isBound_reals [1, 5]) Nat.two_pos
    have low : (Value.real 3).Gives 2 [3, 3] :=
      .repeated (.number (.real 3)) (.real (by decide +kernel)) (.real 3)
    have high : (Value.list ([1, 5].map .real)).Gives 2 [1, 5] :=
      Value.gives_reals rfl (by decide +kernel)
    exact (judged.2.2.2.2.1 twoCorners.toGrid 2 [] rfl).2 ⟨[3, 3], [1, 5], rfl, rfl⟩
      ((judged.2.2.1 _).2 ⟨low, high⟩)
  · have judged := checkBounds_judges (Value.isBound_reals [0, 0, 0]) nested Nat.two_pos
    have zeros : ∀ x ∈ [(0 : Float), 0, 0], x.isFinite = true := by decide +kernel
    refine (judged.2.2.2.1 ?_ ?_ _).2 (.inl (.length (.list ?_) ?_ (by decide) (by decide)))
    · rintro (nothing | nothing) <;> cases nothing
    · rintro (nothing | nothing) <;> cases nothing
    · exact List.forall_mem_map.2 fun x _ => .real x
    · exact List.forall_mem_map.2 fun x mem => .real (zeros x mem)
  · have judged := checkBounds_judges empty (number 3) Nat.two_pos
    refine (judged.2.1 _ _).2 (.inr ⟨rfl, rfl, .inr rfl, ?_⟩)
    rintro (nothing | nothing) <;> cases nothing
  · have judged := checkBounds_judges empty (number 3) Nat.two_pos
    have finite : ∀ row ∈ [[(0 : Float), 5], [2, 1]], ∀ x ∈ row, x.isFinite = true := by
      decide +kernel
    have lowest : Box.lowest [[2, 1]] [0, 5] = [(0 : Float), 1] := by decide +kernel
    have highest : Box.highest [[2, 1]] [0, 5] = [(2 : Float), 5] := by decide +kernel
    have corners := (judged.2.2.2.2.2 twoCorners finite [0, 5] [[2, 1]] rfl).2.2
    rw [lowest, highest] at corners
    exact corners

end PointPattern
