/-
# How settings are refused

A caller who catches the failures of validation catches nearly every mistake in settings. What is
caught is decided check by check: data, numbers, workers and seeds are refused in the family of
validation whatever they are, and so are bounds that can be laid out as tables. Whether a bound is
set is asked before that, and this question has no answer for sequences without a common shape:
there the failure of the layout comes through as it is.
-/

import PointPattern.Design
import PointPattern.Error.Family
import PointPattern.Proofs.Layout
import PointPattern.Proofs.Queries
import PointPattern.Proofs.Results

namespace PointPattern

/-- A failure that callers catch as one of validation. -/
def Error.IsValidation (e : Error) : Prop := ∃ f, e.family? = some f ∧ .validation ∈ f.lineage

/-- A failure by which data are refused: one of validation itself or of dimensions. -/
def Error.IsDataRefusal (e : Error) : Prop :=
  e.family? = some .validation ∨ e.family? = some .dimension

theorem Error.IsDataRefusal.isValidation {e : Error} (refusal : e.IsDataRefusal) :
    e.IsValidation := by
  rcases refusal with invalid | dimension
  · exact ⟨.validation, invalid, by decide⟩
  · exact ⟨.dimension, dimension, by decide⟩

/-- Ends in a result, or is refused in the family of validation. -/
abbrev Validates {α : Type} (x : Except Error α) : Prop := Ends Error.IsValidation (fun _ => True) x

/-- What refuses data refuses them in the family of validation. -/
theorem Ends.isValidation {α : Type} {good : α → Prop} {x : Except Error α}
    (ends : Ends Error.IsDataRefusal good x) : Ends Error.IsValidation good x :=
  ends.mono (fun _ => Error.IsDataRefusal.isValidation) fun _ => id

/-! ## One check after the other -/

theorem isDataRefusal_invalid (cause : InvalidInput) : (Error.invalid cause).IsDataRefusal :=
  .inl rfl

theorem isDataRefusal_dimension (cause : WrongDimension) :
    (Error.dimension cause).IsDataRefusal :=
  .inr rfl

theorem isValidation_invalid (cause : InvalidInput) : (Error.invalid cause).IsValidation :=
  (isDataRefusal_invalid cause).isValidation

theorem isValidation_boundLength (parameter : String) (expected actual : ℕ) :
    (Error.boundLength parameter expected actual).IsValidation :=
  ⟨.dimensionality, rfl, by decide⟩

theorem isValidation_incompleteBounds (provided missing : String) :
    (Error.incompleteBounds provided missing).IsValidation :=
  ⟨.incompleteOverride, rfl, by decide⟩

theorem isValidation_sampleExceedsData (sampleSize : ℤ) (observations : ℕ) :
    (Error.sampleExceedsData sampleSize observations).IsValidation :=
  ⟨.sampleSize, rfl, by decide⟩

/-- A failure of the layout is caught as what it is. -/
theorem not_isValidation_grid (reason : GridError) : ¬(Error.grid reason).IsValidation := by
  rintro ⟨f, family, -⟩
  cases family

theorem not_isValidation_number (cause : NumberError) : ¬(Error.number cause).IsValidation := by
  rintro ⟨f, family, -⟩
  cases family

/-- An array that passes has the elements and the shape of the table of the value. -/
theorem checkArray_ends (v : Value) (parameter : String) :
    Ends Error.IsDataRefusal
      (fun table =>
        v.shape? = .ok table.given.shape ∧ table.given.values.length = v.leaves.length)
      (checkArray v parameter) := by
  rw [checkArray, Value.toTable]
  cases shape : v.shape? with
  | error reason => exact .error (isDataRefusal_invalid _)
  | ok shape =>
      simp only [Bind.bind, Except.bind, Pure.pure, Except.pure, Except.mapError]
      split
      · exact .error (isDataRefusal_invalid _)
      split
      · exact .error (isDataRefusal_invalid _)
      split
      · exact .error (isDataRefusal_invalid _)
      · exact .ok ⟨rfl, List.length_map _⟩
      · exact .ok ⟨rfl, List.length_map _⟩

theorem checkAxes_ends {K : Type} (g : Grid K) (axes : ℤ) (parameter : String) :
    Ends Error.IsDataRefusal (fun _ => (g.shape.length : ℤ) = axes)
      (checkAxes g axes parameter) := by
  rw [checkAxes]
  split
  · next same => exact .ok same
  · exact .error (isDataRefusal_dimension _)

theorem checkFinite_ends {K : Type} [HasInfinities K] (g : Grid K) (parameter : String) :
    Ends Error.IsDataRefusal (fun _ => True) (checkFinite g parameter) := by
  rw [checkFinite]
  split
  · exact .ok True.intro
  · exact .error (isDataRefusal_invalid _)

theorem checkInteger_ends (v : Value) (parameter : String) (minimum : ℤ) :
    Validates (checkInteger v parameter minimum) := by
  rw [checkInteger]
  split
  · exact .error (isValidation_invalid _)
  · split
    · exact .ok True.intro
    · exact .error (isValidation_invalid _)

theorem checkJobs_ends (v : Value) : Validates (checkJobs v) := by
  rw [checkJobs]
  split
  · exact .error (isValidation_invalid _)
  · split
    · exact .ok True.intro
    · exact .error (isValidation_invalid _)

theorem checkSeed_ends (v : Value) : Validates (checkSeed v) := by
  rw [checkSeed]
  split
  · exact .ok True.intro
  · split
    · exact .error (isValidation_invalid _)
    · split
      · exact .error (isValidation_invalid _)
      · exact .ok True.intro

/-! ## Data -/

theorem shape_of_shape? {v : Value} {shape : List ℕ} (read : v.shape? = .ok shape) :
    (v.outline 0).ragged = false ∧ (v.outline 0).shape = shape := by
  rw [Value.shape?] at read
  cases ragged : (v.outline 0).ragged with
  | false =>
      simp only [ragged, Bool.not_false, if_true] at read
      exact ⟨rfl, Except.ok.inj read⟩
  | true =>
      simp only [ragged, Bool.not_true, Bool.false_eq_true, if_false] at read
      split at read <;> cases read

/-- Laying numbers out as points of a line changes neither their number nor the size of the
shape. -/
theorem fills_asColumn {K : Type} {g : Grid K} (fills : g.values.length = Grid.sizeOf g.shape) :
    (asColumn g).values.length = Grid.sizeOf (asColumn g).shape := by
  rw [asColumn]
  split
  · next n one_axis =>
      rw [fills, one_axis]
      exact (Nat.mul_one _).symm
  · exact fills

/-- A grid with two axes that fills its shape is a point set, if it has points and coordinates. -/
theorem exists_ofBlock? {K : Type} {n dim : ℕ} {values : List K}
    (fills : values.length = Grid.sizeOf [n, dim]) (some_points : ¬(n : ℤ) < 1)
    (coordinates : ¬dim < 1) : ∃ points, PointSet.ofBlock? n dim values = some points := by
  have size : Grid.sizeOf [n, dim] = n * dim := by
    rw [Grid.sizeOf_cons, Grid.sizeOf_cons]
    exact congrArg _ (Nat.mul_one _)
  exact ⟨_, dif_pos ⟨by omega, by omega, fills.trans size⟩⟩

/-- Whatever is refused as data is refused as invalid or for its dimensions. -/
theorem checkPoints_ends {v : Value} (filled : v.IsFilled) (parameter : String) :
    Ends Error.IsDataRefusal (fun _ => True) (checkPoints v parameter) := by
  refine (checkArray_ends v parameter).bind fun table _ read => ?_
  have fills : table.given.values.length = Grid.sizeOf table.given.shape := by
    obtain ⟨even, shape⟩ := shape_of_shape? read.1
    rw [read.2, Value.length_leaves filled even, shape]
  have fills := fills_asColumn fills
  generalize asColumn table.given = g at fills
  obtain ⟨shape, values⟩ := g
  refine (checkAxes_ends ⟨shape, values⟩ 2 parameter).bind fun _ _ axes => ?_
  obtain ⟨n, dim, rfl⟩ : ∃ n dim, shape = [n, dim] :=
    List.length_eq_two.1 (by exact_mod_cast axes)
  dsimp only at fills ⊢
  rw [checkMinSamples]
  dsimp only
  by_cases some_points : (n : ℤ) < 1
  · rw [if_pos some_points]
    exact .error (isDataRefusal_invalid _)
  rw [if_neg some_points]
  by_cases coordinates : dim < 1
  · simp only [if_pos coordinates]
    exact .error (isDataRefusal_dimension _)
  have cast : (values.map RealCell.toFloat).length = Grid.sizeOf [n, dim] :=
    (List.length_map _).trans fills
  obtain ⟨points, block⟩ := exists_ofBlock? cast some_points coordinates
  simp only [if_neg coordinates, block]
  exact (checkFinite_ends _ parameter).bind fun _ _ _ => .ok True.intro

/-! ## Bounds -/

/-- A bound is refused in the family of validation, also one without a shape. -/
theorem checkBound_ends (v : Value) (dim : ℕ) (parameter : String) :
    Validates (checkBound v dim parameter) := by
  refine (checkArray_ends v parameter).isValidation.bind fun table _ _ => ?_
  refine (checkAxes_ends (asFlat table.grid) 1 parameter).isValidation.bind fun _ _ _ => ?_
  refine (checkFinite_ends (asFlat table.grid) parameter).isValidation.bind fun _ _ _ => ?_
  split
  · exact .ok True.intro
  · split
    · exact .ok True.intro
    · exact .error (isValidation_boundLength _ _ _)

theorem isUnset_of_shapeless {v : Value} {reason : GridError}
    (shapeless : v.shape? = .error reason) : isUnset v = .error (.grid reason) := by
  have given : v.isNull = false := by
    cases v <;> first | rfl | cases shapeless
  rw [isUnset, given, Value.size, shapeless]
  rfl

theorem exists_isUnset {v : Value} {shape : List ℕ} (read : v.shape? = .ok shape) :
    ∃ unset, isUnset v = .ok unset := by
  rw [isUnset, Value.size, read]
  split <;> exact ⟨_, rfl⟩

/-- Bounds with shapes are refused in the family of validation. -/
theorem checkBounds_ends {minima maxima : Value} {shape shape' : List ℕ}
    (low : minima.shape? = .ok shape) (high : maxima.shape? = .ok shape') (dim : ℕ) :
    Validates (checkBounds minima maxima dim) := by
  obtain ⟨lowUnset, low⟩ := exists_isUnset low
  obtain ⟨highUnset, high⟩ := exists_isUnset high
  rw [checkBounds, low, high]
  simp only [Bind.bind, Except.bind]
  split
  · exact .ok True.intro
  split
  · exact .error (isValidation_incompleteBounds _ _)
  split
  · exact .error (isValidation_incompleteBounds _ _)
  · refine (checkBound_ends minima dim "minima").bind fun low _ _ => ?_
    exact (checkBound_ends maxima dim "maxima").bind fun high _ _ => .ok True.intro

/-- Without a shape of the lower bound, the failure of its layout comes through. -/
theorem checkBounds_of_shapeless_low {minima : Value} (maxima : Value) {reason : GridError}
    (shapeless : minima.shape? = .error reason) (dim : ℕ) :
    checkBounds minima maxima dim = .error (.grid reason) := by
  rw [checkBounds, isUnset_of_shapeless shapeless]
  rfl

/-- Otherwise the same happens with the upper bound. -/
theorem checkBounds_of_shapeless_high {minima maxima : Value} {shape : List ℕ}
    {reason : GridError} (low : minima.shape? = .ok shape)
    (shapeless : maxima.shape? = .error reason) (dim : ℕ) :
    checkBounds minima maxima dim = .error (.grid reason) := by
  obtain ⟨lowUnset, low⟩ := exists_isUnset low
  rw [checkBounds, low, isUnset_of_shapeless shapeless]
  rfl

/-! ## Settings -/

/-- The settings that are checked first, with nothing set that is checked after them. -/
def Settings.plain (s : Settings) : Settings :=
  { s with minima := .null, maxima := .null, seed := .null, jobs := .int 1 }

namespace Design

/-- A design is built from the settings that are checked first, and then completed. -/
theorem ofSettings_eq_bind (s : Settings) :
    ofSettings s = do
      let d ← ofSettings s.plain
      let bounds ← checkBounds s.minima s.maxima d.points.dim
      let jobs ← checkJobs s.jobs
      let seed ← checkSeed s.seed
      return { d with bounds, seed, jobs := jobs.val, jobs_valid := jobs.property } := by
  simp only [ofSettings, Settings.plain]
  cases checkPoints s.data "data" with
  | error e => rfl
  | ok points =>
      simp only [Bind.bind, Except.bind]
      cases chosenSampleSize s.sampleSize points.size with
      | error e => rfl
      | ok sampleSize =>
          dsimp only
          cases checkInteger sampleSize "sample_size" 1 with
          | error e => rfl
          | ok sampleSize =>
              dsimp only
              cases checkInteger s.repetitions "repetitions" 1 with
              | error e => rfl
              | ok repetitions =>
                  dsimp only
                  cases checkInteger s.k "k" 1 with
                  | error e => rfl
                  | ok k =>
                      dsimp only
                      split
                      · rfl
                      · rfl

end Design

/-- The failures of settings that validation does not catch, in the order in which they come up:
the default sample of too many points, and bounds without a shape once everything before them has
passed. -/
inductive Settings.Escapes (s : Settings) : Error → Prop
  | sampleSize {points : PointSet Float} (read : checkPoints s.data "data" = .ok points)
      (absent : s.sampleSize.isNull = true) (uncountable : Number.floatOfInt? points.size = none) :
      Escapes s (.number .tooLarge)
  | minima {d : Design Float} (reached : Design.ofSettings s.plain = .ok d) {reason : GridError}
      (shapeless : s.minima.shape? = .error reason) : Escapes s (.grid reason)
  | maxima {d : Design Float} (reached : Design.ofSettings s.plain = .ok d) {shape : List ℕ}
      (read : s.minima.shape? = .ok shape) {reason : GridError}
      (shapeless : s.maxima.shape? = .error reason) : Escapes s (.grid reason)

namespace Design

variable {s : Settings} {e : Error}

/-- What escapes validation is what the settings end in. -/
theorem ofSettings_of_escapes (escapes : s.Escapes e) :
    ofSettings s = .error e ∧ ¬e.IsValidation := by
  cases escapes with
  | sampleSize read absent uncountable =>
      refine ⟨?_, not_isValidation_number _⟩
      rw [ofSettings, read]
      simp only [Bind.bind, Except.bind, chosenSampleSize, absent, if_true, defaultSampleSize,
        uncountable]
      rfl
  | minima reached shapeless =>
      refine ⟨?_, not_isValidation_grid _⟩
      rw [ofSettings_eq_bind, reached]
      simp only [Bind.bind, Except.bind, checkBounds_of_shapeless_low s.maxima shapeless]
  | maxima reached read shapeless =>
      refine ⟨?_, not_isValidation_grid _⟩
      rw [ofSettings_eq_bind, reached]
      simp only [Bind.bind, Except.bind, checkBounds_of_shapeless_high read shapeless]

/-- What is refused in the family of validation is refused so or escapes. -/
theorem ends_of_validates {α : Type} {x : Except Error α} (validates : Validates x) :
    Ends (fun e => e.IsValidation ∨ s.Escapes e) (fun _ => True) x :=
  validates.mono (fun _ => .inl) fun _ => id

/-- Of the settings that are checked first, only a default sample of too many points escapes. -/
theorem ofSettings_plain_ends (filled : s.data.IsFilled) :
    Ends (fun e => e.IsValidation ∨ s.Escapes e) (fun _ => True) (ofSettings s.plain) := by
  refine (ends_of_validates (checkPoints_ends filled "data").isValidation).bind
    fun points read _ => ?_
  have sampled : Ends (fun e => e.IsValidation ∨ s.Escapes e) (fun _ => True)
      (chosenSampleSize s.sampleSize points.size) := by
    rw [chosenSampleSize]
    split
    · next absent =>
        rw [defaultSampleSize]
        split
        · next uncountable => exact .error (.inr (.sampleSize read absent uncountable))
        · exact .ok True.intro
    · exact .ok True.intro
  refine sampled.bind fun chosen _ _ => ?_
  refine (ends_of_validates (checkInteger_ends chosen "sample_size" 1)).bind fun size _ _ => ?_
  refine (ends_of_validates (checkInteger_ends s.repetitions "repetitions" 1)).bind
    fun repetitions _ _ => ?_
  refine (ends_of_validates (checkInteger_ends s.k "k" 1)).bind fun k _ _ => ?_
  split
  · exact .ok True.intro
  · exact .error (.inl (isValidation_sampleExceedsData _ _))

/-- Without shapes of both bounds the settings escape. -/
theorem checkBounds_ends_of_reached {d : Design Float} (reached : ofSettings s.plain = .ok d) :
    Ends (fun e => e.IsValidation ∨ s.Escapes e) (fun _ => True)
      (checkBounds s.minima s.maxima d.points.dim) := by
  cases low : s.minima.shape? with
  | error reason =>
      rw [checkBounds_of_shapeless_low s.maxima low]
      exact .error (.inr (.minima reached low))
  | ok shape =>
      cases high : s.maxima.shape? with
      | error reason =>
          rw [checkBounds_of_shapeless_high low high]
          exact .error (.inr (.maxima reached low high))
      | ok shape' => exact ends_of_validates (checkBounds_ends low high _)

/-- Nothing else escapes as long as every value can be written: the limits that a machine may set to
the digits of an integer and to the depth of lists are left out. -/
theorem ofSettings_ends (filled : s.data.IsFilled) :
    Ends (fun e => e.IsValidation ∨ s.Escapes e) (fun _ => True) (ofSettings s) := by
  rw [ofSettings_eq_bind]
  refine (ofSettings_plain_ends filled).bind fun d reached _ => ?_
  refine (checkBounds_ends_of_reached reached).bind fun bounds _ _ => ?_
  refine (ends_of_validates (checkJobs_ends s.jobs)).bind fun jobs _ _ => ?_
  exact (ends_of_validates (checkSeed_ends s.seed)).bind fun seed _ _ => .ok True.intro

end Design

/-- Settings make a design or are refused in the family of validation, exactly if neither bound is
a sequence without a shape that is reached: one whose data, sample size, repetitions and rank pass,
where the failure of the layout comes through. Only points in a number beyond the range of doubles
could make a default sample size fail as well. -/
theorem validates_ofSettings_iff {s : Settings} (filled : s.data.IsFilled) :
    (Validates (Design.ofSettings s) ↔ ∀ e, ¬s.Escapes e) ∧
      ∀ e, Design.ofSettings s = .error e ∧ ¬e.IsValidation ↔ s.Escapes e := by
  have escapes (e : Error) : Design.ofSettings s = .error e ∧ ¬e.IsValidation ↔ s.Escapes e := by
    refine ⟨fun ⟨refused, uncaught⟩ => ?_, Design.ofSettings_of_escapes⟩
    have ends := Design.ofSettings_ends filled
    rw [refused] at ends
    cases ends with
    | error failure => exact failure.resolve_left uncaught
  refine ⟨⟨fun validates e escape => ?_, fun none_escapes => ?_⟩, escapes⟩
  · obtain ⟨refused, uncaught⟩ := Design.ofSettings_of_escapes escape
    rw [refused] at validates
    cases validates with
    | error caught => exact uncaught caught
  · refine (Design.ofSettings_ends filled).mono ?_ fun _ => id
    exact fun e failure => failure.resolve_right (none_escapes e)

/-! ## Bounds of unequal lengths -/

/-- Three points of a plane, with a lower bound whose entries are not on one level. -/
def raggedSettings : Settings where
  data := .list [.list [.int 0, .int 0], .list [.int 1, .int 1], .list [.int 2, .int 3]]
  minima := .list [.list [.int 1, .int 2], .int 3]
  maxima := .list [.int 1, .int 2]

theorem escapes_raggedSettings : raggedSettings.Escapes (.grid (.ragged [2])) := by
  have reached : (Design.ofSettings raggedSettings.plain).isOk = true := by decide +kernel
  cases built : Design.ofSettings raggedSettings.plain with
  | error e =>
      rw [built] at reached
      cases reached
  | ok d => exact .minima built rfl

/-- The failure of the layout is no failure of validation. -/
theorem ofSettings_raggedSettings :
    Design.ofSettings raggedSettings = .error (.grid (.ragged [2])) ∧
      (Error.grid (.ragged [2])).family? = none ∧
      ¬Validates (Design.ofSettings raggedSettings) := by
  obtain ⟨refused, uncaught⟩ := Design.ofSettings_of_escapes escapes_raggedSettings
  refine ⟨refused, rfl, fun validates => ?_⟩
  rw [refused] at validates
  cases validates with
  | error caught => exact uncaught caught

/-- The same with a lower bound that stands for both axes. -/
def evenSettings : Settings := { raggedSettings with minima := .int 0, sampleSize := .int 1 }

/-- The ragged lower bound escapes, and a single number in its place does not. -/
theorem validates_ofSettings_iff_raggedSettings :
    raggedSettings.data.IsFilled ∧ ¬Validates (Design.ofSettings raggedSettings) ∧
      Validates (Design.ofSettings evenSettings) := by
  have filled : raggedSettings.data.IsFilled := by
    simp [raggedSettings, Value.IsFilled, Value.AllFilled]
  have filled' : evenSettings.data.IsFilled := filled
  refine ⟨filled, fun validates => ?_,
    (validates_ofSettings_iff filled').1.2 fun e escapes => ?_⟩
  · exact (validates_ofSettings_iff filled).1.1 validates _ escapes_raggedSettings
  · cases escapes with
    | sampleSize _ absent => cases absent
    | minima _ shapeless => cases shapeless
    | maxima _ _ shapeless => cases shapeless

end PointPattern
