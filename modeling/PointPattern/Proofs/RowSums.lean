/-
# A repetition is two sums over rows

On an oracle that computes a function of the row and the rank, a repetition comes to two sums: one
over the rows of the data that its stream chooses, and one over the rows that the stream places in
the box afterwards. The state of the oracle has no part in it. What the stream chooses and what is
left of it depend on the number of rows and not on what they are, so that the places do not depend
on the data beyond the box. Without rounding a sum does not depend on the order of its rows.
-/

import PointPattern.Proofs.Correspondence
import PointPattern.Proofs.Random.Distinct
import PointPattern.Proofs.Searched
import Mathlib.Data.List.GetD

namespace PointPattern

open PointPattern.Random

/-! ## Draws on a given source -/

section Draws

variable {σ γ α β : Type}

/-- What an operation comes to on a source of randomness, and what it leaves of the source if it
does not fail, whatever the state of the oracle is. -/
def Draw.Yields (m : Draw σ γ α) (g : γ) (x : Except Error α) (g' : γ) : Prop :=
  ∀ s, (m (s, g)).1 = x ∧ ∀ a, x = .ok a → (m (s, g)).2.2 = g'

namespace Draw.Yields

variable {g g' g'' : γ} {x : Except Error α}

theorem bind {m : Draw σ γ α} {f : α → Draw σ γ β} {h : α → Except Error β}
    (first : Draw.Yields m g x g') (second : ∀ a, x = .ok a → Draw.Yields (f a) g' (h a) g'') :
    Draw.Yields (m >>= f) g (x >>= h) g'' := by
  intro s
  obtain ⟨ended, left⟩ := first s
  simp only [Bind.bind, ExceptT.bind, ExceptT.mk, StateT.bind]
  rcases ran : m (s, g) with ⟨result, s₁, g₁⟩
  rw [ran] at ended left
  dsimp only at ended left
  subst ended
  cases result with
  | error e => exact ⟨rfl, nofun⟩
  | ok a =>
      obtain rfl := left a rfl
      exact second a rfl s₁

theorem bind_ok {m : Draw σ γ α} {f : α → Draw σ γ β} {a : α} {y : Except Error β}
    (first : Draw.Yields m g (.ok a) g') (second : Draw.Yields (f a) g' y g'') :
    Draw.Yields (m >>= f) g y g'' :=
  first.bind (h := fun _ => y) fun _ same => Except.ok.inj same ▸ second

theorem bind_error {m : Draw σ γ α} {e : Error} (first : Draw.Yields m g (.error e) g')
    (f : α → Draw σ γ β) (g'' : γ) : Draw.Yields (m >>= f) g (.error e) g'' :=
  first.bind (h := fun _ => .error e) nofun

theorem pure (a : α) (g : γ) : Draw.Yields (Pure.pure a : Draw σ γ α) g (.ok a) g :=
  fun _ => ⟨rfl, fun _ _ => rfl⟩

theorem query {step : Step σ α} (ended : ∀ s, (step s).1 = x) (g : γ) :
    Draw.Yields (Draw.query step) g x g :=
  fun s => ⟨ended s, fun _ _ => rfl⟩

theorem ofExcept (x : Except Error α) (g : γ) :
    Draw.Yields (Draw.query (Step.ofExcept x) : Draw σ γ α) g x g :=
  fun _ => ⟨rfl, fun _ _ => rfl⟩

theorem random {draw : γ → Except Error α × γ} (drawn : draw g = (x, g')) :
    Draw.Yields (Draw.random draw : Draw σ γ α) g x g' :=
  fun _ => ⟨congrArg Prod.fst drawn, fun _ _ => congrArg Prod.snd drawn⟩

end Draw.Yields

end Draws

/-! ## Rows of a repetition -/

section Rows

variable {K : Type}

/-- The rows of the data that a stream chooses. -/
def chosenRows (data : PointSet K) (size : ℕ) (g : Stream) : List (List K) :=
  (g.choose data.size size).1.map fun number => data.points.getD number []

/-- The rows that a stream places in a box. -/
def placedRows [Add K] [Mul K] [Div K] [Scalar K] (box : Box K) (dim size : ℕ) (g : Stream) :
    List (List K) :=
  (Grid.cut size dim (g.uniforms (size * dim)).1).map (box.place dim)

theorem map_getD_range (rows : List (List K)) :
    (List.range rows.length).map (fun number => rows.getD number []) = rows := by
  apply List.ext_getElem
  · simp
  · intro i _ inside
    simp [inside]

variable {data : PointSet K} {size : ℕ} {g : Stream}

theorem PointSet.getD_mem {number : ℕ} (inside : number < data.size) :
    data.points.getD number [] ∈ data.points := by
  rw [List.getD_eq_getElem _ _ inside]
  exact List.getElem_mem inside

theorem mem_of_mem_chosenRows (enough : size ≤ data.size) (keeps : g.KeepsWord) {row : List K}
    (mem : row ∈ chosenRows data size g) : row ∈ data.points := by
  obtain ⟨number, number_mem, rfl⟩ := List.mem_map.1 mem
  exact data.getD_mem (Stream.choose_lt enough keeps number_mem)

/-- All rows are chosen, in some order, if as many are chosen as there are. -/
theorem perm_chosenRows (all : size = data.size) (keeps : g.KeepsWord) :
    (chosenRows data size g).Perm data.points := by
  have arranged := (Stream.perm_choose_all data.size keeps).map
    fun number => data.points.getD number []
  have every : (List.range data.size).map (fun number => data.points.getD number []) =
      data.points := map_getD_range data.points
  rw [every] at arranged
  rw [all]
  exact arranged

variable [Add K] [Mul K] [Div K] [Scalar K]

theorem length_of_mem_placedRows {box : Box K} {dim : ℕ} (spans : box.Spans dim) {row : List K}
    (mem : row ∈ placedRows box dim size g) : row.length = dim := by
  obtain ⟨values, values_mem, rfl⟩ := List.mem_map.1 mem
  apply spans.length_place
  exact Grid.length_of_mem_cut (Stream.length_uniforms _ _) values_mem

end Rows

/-! ## Sums -/

section Sums

variable {σ K : Type} [Scalar K]

/-- The sum over rows of the powers of what a function gives to them, if these are distances. -/
def rowSum (f : List K → ℤ → K) (rank : ℤ) (dim : ℕ) (rows : List (List K)) : Except Error K := do
  aggregate (← checkDistances rank (rows.map (f · rank))) dim

theorem rowSum_congr {f f' : List K → ℤ → K} {rank : ℤ} {rows : List (List K)}
    (same : ∀ row ∈ rows, f' row rank = f row rank) (dim : ℕ) :
    rowSum f' rank dim rows = rowSum f rank dim rows := by
  rw [rowSum, rowSum, List.map_congr_left same]

variable {o : Oracle σ K} {f : List K → ℤ → K} {data : PointSet K} {box : Box K} {size k : ℕ}
variable {g : Stream}

theorem yields_rowSum {γ : Type} {points dim : ℕ} (computes : o.Computes f points dim) {rank : ℤ}
    (rank_pos : 1 ≤ rank) (rank_le : rank ≤ points) {rows : List (List K)}
    (lengths : ∀ row ∈ rows, row.length = dim) (g : γ) :
    Draw.Yields (do
      let xs ← Draw.query (queryDistances o (.ofRows dim rows) rank)
      Draw.query (Step.ofExcept (aggregate xs dim)) : Draw σ γ K) g (rowSum f rank dim rows) g :=
  .bind (.query (computes.queryDistances rank_pos rank_le lengths) g) fun _ _ => .ofExcept _ g

/-- The real sample comes to whatever the rows with the drawn numbers come to. -/
theorem yields_sampleReal_of_drawn {γ : Type} {source : Source γ K} {g g' : γ} {numbers : List ℕ}
    (drawn : source.choose data.size size g = (.ok (numbers.map fun (row : ℕ) => (row : ℤ)), g'))
    (exist : ∀ number ∈ numbers, number < data.size) {x : Except Error K}
    (summed : Draw.Yields (do
      let xs ← Draw.query (queryDistances o
        (.ofRows data.dim (numbers.map fun number => data.points.getD number [])) ((k : ℤ) + 1))
      Draw.query (Step.ofExcept (aggregate xs data.dim)) : Draw σ γ K) g' x g') :
    Draw.Yields (sampleReal o source data size k) g x g' := by
  have found := mapM_rowAt data.points exist
  exact .bind_ok (.random drawn) (.bind_ok (.query (fun _ => found) _) summed)

/-- The real sample is a sum over the rows with the drawn numbers. -/
theorem yields_sampleReal_drawn {γ : Type} {source : Source γ K} {g g' : γ} {numbers : List ℕ}
    (computes : o.Computes f data.size data.dim) (rank_le : k + 1 ≤ data.size)
    (drawn : source.choose data.size size g = (.ok (numbers.map fun (row : ℕ) => (row : ℤ)), g'))
    (exist : ∀ number ∈ numbers, number < data.size) :
    Draw.Yields (sampleReal o source data size k) g
      (rowSum f (k + 1) data.dim (numbers.map fun number => data.points.getD number [])) g' := by
  have lengths : ∀ row ∈ numbers.map fun number => data.points.getD number [],
      row.length = data.dim := by
    intro row mem
    obtain ⟨number, number_mem, rfl⟩ := List.mem_map.1 mem
    exact data.length_eq _ (data.getD_mem (exist number number_mem))
  apply yields_sampleReal_of_drawn drawn exist
  exact yields_rowSum computes (by omega) (by omega) lengths _

variable [Div K]

/-- The real sample comes to whatever the chosen rows come to. -/
theorem yields_sampleReal_of (enough : size ≤ data.size) (keeps : g.KeepsWord) {x : Except Error K}
    (summed : Draw.Yields (do
      let xs ← Draw.query
        (queryDistances o (.ofRows data.dim (chosenRows data size g)) ((k : ℤ) + 1))
      Draw.query (Step.ofExcept (aggregate xs data.dim)) : Draw σ Stream K)
      (g.choose data.size size).2 x (g.choose data.size size).2) :
    Draw.Yields (sampleReal o (streamSource K) data size k) g x (g.choose data.size size).2 :=
  yields_sampleReal_of_drawn (streamSource_choose_eq enough g)
    (fun _ mem => Stream.choose_lt enough keeps mem) summed

variable [Add K] [Mul K]

omit [Div K] in
/-- The uniform sample is a sum over the rows that are drawn from the box. -/
theorem yields_sampleUniform_drawn {γ : Type} {source : Source γ K} {g g' : γ}
    {rows : List (List K)} (computes : o.Computes f data.size data.dim)
    (low : box.low.length = data.dim)
    (drawn : box.sample source size g = (.ok (.ofRows data.dim rows), g'))
    (lengths : ∀ row ∈ rows, row.length = data.dim) (rank_pos : 1 ≤ k) (rank_le : k ≤ data.size) :
    Draw.Yields (sampleUniform o source box size k) g (rowSum f k data.dim rows) g' := by
  rw [sampleUniform, show box.dim = data.dim from low]
  refine .bind_ok (.random drawn) ?_
  exact yields_rowSum computes (by omega) (by omega) lengths _

/-- A repetition is made of the sums over the rows that its source chooses and places. -/
theorem yields_runTrial_drawn {γ : Type} {source : Source γ K} {g g' g'' : γ} {numbers : List ℕ}
    {rows : List (List K)} (computes : o.Computes f data.size data.dim)
    (low : box.low.length = data.dim) (rank_pos : 1 ≤ k) (rank_le : k + 1 ≤ data.size)
    (chosen : source.choose data.size size g = (.ok (numbers.map fun (row : ℕ) => (row : ℤ)), g'))
    (exist : ∀ number ∈ numbers, number < data.size)
    (placed : box.sample source size g' = (.ok (.ofRows data.dim rows), g''))
    (lengths : ∀ row ∈ rows, row.length = data.dim) :
    Draw.Yields (runTrial o source data box size k) g (do
      let w ← rowSum f (k + 1) data.dim (numbers.map fun number => data.points.getD number [])
      let u ← rowSum f k data.dim rows
      return Trial.ofSums u w) g'' := by
  have real := yields_sampleReal_drawn computes rank_le chosen exist
  have uniform := yields_sampleUniform_drawn computes low placed lengths rank_pos (by omega)
  exact real.bind fun w _ => uniform.bind fun u _ => .pure (Trial.ofSums u w) g''

/-- What a repetition on a stream comes to: the sum over the chosen rows, the sum over the rows
that are placed by what is left of the stream, and their share. -/
def trialOn (f : List K → ℤ → K) (data : PointSet K) (box : Box K) (size k : ℕ) (g : Stream) :
    Except Error (Trial K) := do
  let w ← rowSum f (k + 1) data.dim (chosenRows data size g)
  let u ← rowSum f k data.dim (placedRows box data.dim size (g.choose data.size size).2)
  return Trial.ofSums u w

theorem endsAs_trialOn (computes : o.Computes f data.size data.dim) (spans : box.Spans data.dim)
    (enough : size ≤ data.size) (rank_pos : 1 ≤ k) (rank_le : k + 1 ≤ data.size)
    {stream : ℕ → Stream} (keeps : ∀ j, (stream j).KeepsWord) :
    EndsAs (repetition o (streamSource K) stream data box size k)
      fun j => trialOn f data box size k (stream j) := by
  intro j s
  have yields := yields_runTrial_drawn computes spans.low rank_pos rank_le
    (streamSource_choose_eq enough (stream j))
    (fun _ mem => Stream.choose_lt enough (keeps j) mem) (sample_eq spans size _)
    (fun _ mem => length_of_mem_placedRows spans mem)
  exact (yields s).1

/-- Every repetition on an oracle that refuses fails with its real sample. -/
theorem Oracle.Refuses.endsAs {e : Error} (refuses : o.Refuses data.size data.dim e)
    (enough : size ≤ data.size) (rank_le : k + 1 ≤ data.size) (box : Box K) {stream : ℕ → Stream}
    (keeps : ∀ j, (stream j).KeepsWord) :
    EndsAs (repetition o (streamSource K) stream data box size k)
      fun _ => .error (blockFailure size (k + 1) e) := by
  intro j s
  have counted : (chosenRows data size (stream j)).length = size :=
    (List.length_map _).trans (Stream.choose_distinct enough (keeps j)).2
  have lengths : ∀ row ∈ chosenRows data size (stream j), row.length = data.dim :=
    fun row mem => data.length_eq row (mem_of_mem_chosenRows enough (keeps j) mem)
  have refused (s : σ) : (queryDistances o (.ofRows data.dim (chosenRows data size (stream j)))
      ((k : ℤ) + 1) s).1 = .error (blockFailure size (k + 1) e) := by
    have asked := refuses (by omega : (1 : ℤ) ≤ k + 1) (by omega) lengths s
    rwa [counted] at asked
  have real : Draw.Yields (sampleReal o (streamSource K) data size k) (stream j)
      (.error (blockFailure size (k + 1) e)) _ :=
    yields_sampleReal_of enough (keeps j) ((Draw.Yields.query refused _).bind_error _ _)
  exact (real.bind_error _ (stream j) s).1

end Sums

/-! ## Sums without rounding -/

section Exact

variable {K : Type} [Field K] [LinearOrder K] [Scalar K] [Scalar.Exact K]

theorem aggregate_eq_sum (xs : List K) (dim : ℕ) :
    aggregate xs dim = .ok (xs.map (· ^ dim)).sum := by
  simp [aggregate, Except.mapError]

/-- Failures that differ at most in the query that they complain of. -/
inductive Error.SameRefusal : Error → Error → Prop
  | refl (e : Error) : SameRefusal e e
  | invalidDistance (text text' : String) (position position' : ℕ) (rank : ℤ) :
      SameRefusal
        (.oracle (.invalidDistance text position rank) (some rank) (some position))
        (.oracle (.invalidDistance text' position' rank) (some rank) (some position'))

theorem checkDistances_of_nonneg {xs : List K} (nonneg : ∀ x ∈ xs, 0 ≤ x) (rank : ℤ) :
    checkDistances rank xs = .ok xs := by
  have none_fails : xs.findIdx? (fun x => !isDistance x) = none := by
    rw [List.findIdx?_eq_none_iff]
    intro x mem
    rw [isDistance_iff.2 (nonneg x mem)]
    rfl
  rw [checkDistances, none_fails]

theorem exists_refusal_of_neg {xs : List K} (neg : ¬∀ x ∈ xs, 0 ≤ x) (rank : ℤ) :
    ∃ text position, checkDistances rank xs =
      .error (.oracle (.invalidDistance text position rank) (some rank) (some position)) := by
  rw [checkDistances]
  cases found : xs.findIdx? fun x => !isDistance x with
  | none =>
      refine absurd (fun x mem => isDistance_iff.1 ?_) neg
      simpa using List.findIdx?_eq_none_iff.1 found x mem
  | some position => exact ⟨_, _, rfl⟩

variable {f : List K → ℤ → K} {rank : ℤ} {dim : ℕ} {rows rows' : List (List K)}

theorem rowSum_of_nonneg (nonneg : ∀ row ∈ rows, 0 ≤ f row rank) :
    rowSum f rank dim rows = .ok (rows.map fun row => f row rank ^ dim).sum := by
  have distances : ∀ x ∈ rows.map (f · rank), 0 ≤ x := by
    intro x mem
    obtain ⟨row, row_mem, rfl⟩ := List.mem_map.1 mem
    exact nonneg row row_mem
  rw [rowSum, checkDistances_of_nonneg distances]
  refine (aggregate_eq_sum _ dim).trans ?_
  rw [List.map_map]
  rfl

theorem eq_sum_of_rowSum {total : K} (ended : rowSum f rank dim rows = .ok total) :
    total = (rows.map fun row => f row rank ^ dim).sum := by
  by_cases nonneg : ∀ row ∈ rows, 0 ≤ f row rank
  · rw [rowSum_of_nonneg nonneg] at ended
    exact (Except.ok.inj ended).symm
  · have neg : ¬∀ x ∈ rows.map (f · rank), 0 ≤ x :=
      fun all => nonneg fun row mem => all _ (List.mem_map_of_mem mem)
    obtain ⟨text, position, refused⟩ := exists_refusal_of_neg neg rank
    rw [rowSum, refused] at ended
    cases ended

/-- A sum does not depend on the order of its rows. Without one, the complaint may be about
another row. -/
theorem rowSum_perm (perm : rows.Perm rows') :
    Corresponds Error.SameRefusal (· = ·) (rowSum f rank dim rows) (rowSum f rank dim rows') := by
  by_cases nonneg : ∀ row ∈ rows, 0 ≤ f row rank
  · have nonneg' : ∀ row ∈ rows', 0 ≤ f row rank := fun row mem => nonneg row (perm.mem_iff.2 mem)
    rw [rowSum_of_nonneg nonneg, rowSum_of_nonneg nonneg']
    exact .ok (perm.map _).sum_eq
  · have neg {rows'' : List (List K)} (perm : rows.Perm rows'') :
        ¬∀ x ∈ rows''.map (f · rank), 0 ≤ x :=
      fun all => nonneg fun row mem => all _ (List.mem_map_of_mem (perm.mem_iff.1 mem))
    obtain ⟨text, position, refused⟩ := exists_refusal_of_neg (neg (.refl rows)) rank
    obtain ⟨text', position', refused'⟩ := exists_refusal_of_neg (neg perm) rank
    rw [rowSum, rowSum, refused, refused']
    exact .error (.invalidDistance _ _ _ _ _)

end Exact

end PointPattern
