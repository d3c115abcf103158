/-
# How queries end

Whatever goes wrong with the queries of a sample is a failure of the oracle, also if the
oracle raised something else or gave a number that is no distance. What passes is a list
of distances. An oracle that answers every query of a run with a distance therefore ends
no sample.
-/

import PointPattern.Error.Family
import PointPattern.Proofs.Repetition

namespace PointPattern

/-- A failure that callers catch as a failure of the oracle. -/
def Error.IsOracleFailure (e : Error) : Prop := e.family? = some .oracleFailure

/-- How an operation ends: with a result as described, or with a failure as described. -/
inductive Ends {α : Type} (fails : Error → Prop) (good : α → Prop) : Except Error α → Prop
  | ok {a : α} (result : good a) : Ends fails good (.ok a)
  | error {e : Error} (failure : fails e) : Ends fails good (.error e)

namespace Ends

variable {α : Type} {fails fails' : Error → Prop} {good good' : α → Prop} {x : Except Error α}

theorem trivial (x : Except Error α) : Ends (fun _ => True) (fun _ => True) x := by
  cases x with
  | error e => exact .error True.intro
  | ok a => exact .ok True.intro

theorem mono (ends : Ends fails good x) (failures : ∀ e, fails e → fails' e)
    (results : ∀ a, good a → good' a) : Ends fails' good' x := by
  cases ends with
  | ok result => exact .ok (results _ result)
  | error failure => exact .error (failures _ failure)

theorem result (ends : Ends fails good x) {a : α} (ended : x = .ok a) : good a := by
  subst ended
  cases ends with
  | ok result => exact result

theorem failure (ends : Ends fails good x) {e : Error} (ended : x = .error e) : fails e := by
  subst ended
  cases ends with
  | error failure => exact failure

/-- What never fails as described gives a result. -/
theorem exists_ok (ends : Ends fails good x) (never : ∀ e, ¬fails e) : ∃ a, x = .ok a ∧ good a := by
  cases ends with
  | ok result => exact ⟨_, rfl, result⟩
  | error failure => exact absurd failure (never _)

/-- Two operations one after the other end as the second does, if the first cannot fail
otherwise. -/
theorem bind {β : Type} {next : α → Except Error β} {good' : β → Prop} (ends : Ends fails good x)
    (rest : ∀ a, x = .ok a → good a → Ends fails good' (next a)) :
    Ends fails good' (x >>= next) := by
  cases ends with
  | ok result => exact rest _ rfl result
  | error failure => exact .error failure

end Ends

section Queries

variable {σ K : Type}

theorem isOracleFailure_queryFailure (position : ℕ) (rank : ℤ) (e : Error) :
    (queryFailure position rank e).IsOracleFailure := by
  cases e <;> rfl

theorem isOracleFailure_blockFailure (size : ℕ) (rank : ℤ) (e : Error) :
    (blockFailure size rank e).IsOracleFailure := by
  cases e <;> rfl

/-- Queries put one after the other fail only by a query that fails. -/
theorem askEach_ends {ask : Grid K → Step σ K} {fails : Error → Prop} {good : K → Prop}
    {points : List (Grid K)} (each : ∀ point ∈ points, ∀ s, Ends fails good (ask point s).1)
    (rank : ℤ) (position : ℕ) (s : σ) :
    Ends (fun e => e.IsOracleFailure ∧ ∃ origin, fails origin) (fun xs => ∀ x ∈ xs, good x)
      (askEach ask rank position points s).1 := by
  induction points generalizing position s with
  | nil =>
      refine .ok ?_
      intro x mem
      cases mem
  | cons point rest ih =>
      have first := each point List.mem_cons_self s
      rcases asked : ask point s with ⟨result, t⟩
      rw [asked] at first
      simp only [askEach, asked]
      dsimp only at first
      cases first with
      | error failure => exact .error ⟨isOracleFailure_queryFailure _ _ _, _, failure⟩
      | @ok x result =>
          have others :=
            ih (fun point' mem => each point' (List.mem_cons_of_mem point mem)) (position + 1) t
          rcases asked_others : askEach ask rank (position + 1) rest t with ⟨results, u⟩
          rw [asked_others] at others
          dsimp only at others
          simp only [asked_others]
          cases others with
          | error failure => exact .error failure
          | ok results =>
              refine .ok ?_
              intro y mem
              rcases List.mem_cons.1 mem with rfl | tail
              · exact result
              · exact results y tail

theorem askBlock_ends (ask : Grid K → Step σ (Grid K)) (rank : ℤ) (points : Grid K) (size : ℕ)
    (s : σ) :
    Ends Error.IsOracleFailure (fun _ => True) (askBlock ask rank points size s).1 := by
  rw [askBlock]
  rcases ask points s with ⟨answers | e, t⟩
  · exact .error (isOracleFailure_blockFailure size rank _)
  · dsimp only
    split
    · exact .ok True.intro
    · exact .error rfl

theorem askBlock_of_ok (ask : Grid K → Step σ (Grid K)) {points : Grid K} {size : ℕ}
    {xs : List K} {s : σ} (answered : (ask points s).1 = .ok ⟨[size], xs⟩) (rank : ℤ) :
    (askBlock ask rank points size s).1 = .ok xs := by
  rw [askBlock]
  rcases asked : ask points s with ⟨result, t⟩
  rw [asked] at answered
  dsimp only at answered
  rw [answered]
  dsimp only
  rw [if_pos rfl]

variable [Scalar K]

/-- Only distances pass, and all of them do. -/
theorem checkDistances_ends (rank : ℤ) (xs : List K) :
    Ends (fun e => e.IsOracleFailure ∧ ¬∀ x ∈ xs, isDistance x = true)
      (fun ys => ys = xs ∧ ∀ x ∈ xs, isDistance x = true) (checkDistances rank xs) := by
  rw [checkDistances]
  cases found : xs.findIdx? fun x => !isDistance x with
  | none =>
      refine .ok ⟨rfl, fun x mem => ?_⟩
      simpa using List.findIdx?_eq_none_iff.1 found x mem
  | some position =>
      refine .error ⟨rfl, fun distances => ?_⟩
      obtain ⟨inside, refused, _⟩ := List.findIdx?_eq_some_iff_getElem.1 found
      have passed := distances _ (List.getElem_mem inside)
      rw [passed] at refused
      cases refused

/-- An oracle that answers the queries of a run over so many points with so many coordinates:
for every rank that the points have, each answer is a distance. It need answer only the kind
of query that it is asked. -/
structure Oracle.Answers (o : Oracle σ K) (size dim : ℕ) : Prop where
  single : o.supports .batchQuery = false → ∀ (point : Grid K) (rank : ℤ) (s : σ),
    point.shape = [dim] → 1 ≤ rank → rank ≤ size →
      ∃ x, (o.distance point rank s).1 = .ok x ∧ isDistance x = true
  block : o.supports .batchQuery = true → ∀ (points : Grid K) (count : ℕ) (rank : ℤ) (s : σ),
    points.shape = [count, dim] → 1 ≤ rank → rank ≤ size →
      ∃ xs, (o.distances points rank s).1 = .ok ⟨[count], xs⟩ ∧ ∀ x ∈ xs, isDistance x = true

omit [Scalar K] in
theorem shape_of_mem_subgrids {dim : ℕ} {rows : List (List K)} {point : Grid K}
    (mem : point ∈ (Grid.ofRows dim rows).subgrids) : point.shape = [dim] := by
  rw [Grid.ofRows, Grid.subgrids] at mem
  obtain ⟨values, _, rfl⟩ := List.mem_map.1 mem
  rfl

section Answers

variable {o : Oracle σ K} {size dim : ℕ} {rank : ℤ}

/-- What becomes of queries before the answers are checked: they fail only if the oracle does
not answer, and the answers of an oracle that does are distances. -/
def Answered (o : Oracle σ K) (size dim : ℕ) : Except Error (List K) → Prop :=
  Ends (fun e => e.IsOracleFailure ∧ ¬o.Answers size dim)
    fun xs => o.Answers size dim → ∀ x ∈ xs, isDistance x = true

theorem answered_askBlock (batch : o.supports .batchQuery = true) (rank_pos : 1 ≤ rank)
    (rank_le : rank ≤ size) (rows : List (List K)) (s : σ) :
    Answered o size dim
      (askBlock (o.distances · rank) rank (.ofRows dim rows) rows.length s).1 := by
  by_cases answers : o.Answers size dim
  · obtain ⟨xs, ok, distances⟩ :=
      answers.block batch (.ofRows dim rows) rows.length rank s rfl rank_pos rank_le
    rw [askBlock_of_ok (o.distances · rank) ok]
    exact .ok fun _ => distances
  · apply (askBlock_ends (o.distances · rank) rank (.ofRows dim rows) rows.length s).mono
    · exact fun _ failure => ⟨failure, answers⟩
    · exact fun _ _ given => absurd given answers

theorem answered_askEach (single : o.supports .batchQuery = false) (rank_pos : 1 ≤ rank)
    (rank_le : rank ≤ size) (rows : List (List K)) (s : σ) :
    Answered o size dim
      (askEach (o.distance · rank) rank 0 (Grid.ofRows dim rows).subgrids s).1 := by
  have each : ∀ point ∈ (Grid.ofRows dim rows).subgrids, ∀ t,
      Ends (fun _ => ¬o.Answers size dim) (fun x => o.Answers size dim → isDistance x = true)
        (o.distance point rank t).1 := by
    intro point mem t
    by_cases answers : o.Answers size dim
    · obtain ⟨x, ok, distance⟩ :=
        answers.single single point rank t (shape_of_mem_subgrids mem) rank_pos rank_le
      rw [ok]
      exact .ok fun _ => distance
    · apply (Ends.trivial _).mono
      · exact fun _ _ => answers
      · exact fun _ _ given => absurd given answers
  apply (askEach_ends each rank 0 s).mono
  · rintro e ⟨failure, _, unanswered⟩
    exact ⟨failure, unanswered⟩
  · exact fun xs distances answers x mem => distances x mem answers

/-- The queries of a sample are answered with distances, or the oracle fails, and then it
leaves some query of a run without a distance. -/
theorem queryDistances_ends (rank_pos : 1 ≤ rank) (rank_le : rank ≤ size)
    (rows : List (List K)) (s : σ) :
    Ends (fun e => e.IsOracleFailure ∧ ¬o.Answers size dim)
      (fun xs => ∀ x ∈ xs, isDistance x = true)
      (queryDistances o (.ofRows dim rows) rank s).1 := by
  have checked {result : Except Error (List K)} (answered : Answered o size dim result) :
      Ends (fun e => e.IsOracleFailure ∧ ¬o.Answers size dim)
        (fun xs => ∀ x ∈ xs, isDistance x = true) (result.bind (checkDistances rank)) := by
    cases answered with
    | error failure => exact .error failure
    | @ok xs answered =>
        apply (checkDistances_ends rank xs).mono
        · rintro e ⟨failure, refused⟩
          exact ⟨failure, fun answers => refused (answered answers)⟩
        · rintro ys ⟨rfl, distances⟩
          exact distances
  rw [queryDistances, Grid.ofRows]
  dsimp only
  rw [← Grid.ofRows]
  split
  · next batch =>
      rw [bind_ofExcept_fst]
      exact checked (answered_askBlock batch rank_pos rank_le rows s)
  · next single =>
      rw [bind_ofExcept_fst]
      exact checked (answered_askEach (by simpa using single) rank_pos rank_le rows s)

end Answers

end Queries

end PointPattern
