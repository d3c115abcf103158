/-
# Repetitions and the state of the oracle

An oracle may keep a state, for instance a record of the calls. If its answers do not
depend on that state, nothing in a repetition does: the same rows are chosen, the same
points are drawn, and the repetition ends in the same way. More generally, two oracles
that give the same distances for every block of queries cannot be told apart by a
repetition, however they find their answers.
-/

import PointPattern.Trials
import Mathlib.Data.Int.Notation
import Mathlib.Data.Nat.Notation

namespace PointPattern

open PointPattern.Random

section Alike

variable {σ τ γ K α β : Type}

/-- The answers of an oracle depend on the query and the rank alone. -/
structure Oracle.IsStateless (o : Oracle σ K) : Prop where
  distance : ∀ point rank s s', (o.distance point rank s).1 = (o.distance point rank s').1
  distances : ∀ points rank s s', (o.distances points rank s).1 = (o.distances points rank s').1

/-- Two oracles that give the same distances for every block of queries. -/
def Oracle.Alike [Scalar K] (o : Oracle σ K) (o' : Oracle τ K) : Prop :=
  ∀ points rank s s', (queryDistances o points rank s).1 = (queryDistances o' points rank s').1

/-! ## Operations that cannot tell two oracles apart -/

/-- Two operations that end in the same way and leave the same source of randomness,
whatever the states of their oracles are. -/
def Draw.Alike (m : Draw σ γ α) (m' : Draw τ γ α) : Prop :=
  ∀ s s' g, (m (s, g)).1 = (m' (s', g)).1 ∧ (m (s, g)).2.2 = (m' (s', g)).2.2

namespace Draw.Alike

/-- The second operations need to be alike only after results that the first may give. -/
theorem bind_of (holds : α → Prop) {m : Draw σ γ α} {m' : Draw τ γ α} {f : α → Draw σ γ β}
    {f' : α → Draw τ γ β} (first : Draw.Alike m m')
    (results : ∀ from_state a, (m from_state).1 = .ok a → holds a)
    (second : ∀ a, holds a → Draw.Alike (f a) (f' a)) : Draw.Alike (m >>= f) (m' >>= f') := by
  intro s s' g
  obtain ⟨same_result, same_source⟩ := first s s' g
  have result_holds := results (s, g)
  simp only [Bind.bind, ExceptT.bind, ExceptT.mk, StateT.bind]
  rcases ran : m (s, g) with ⟨result, s₁, g₁⟩
  rcases ran' : m' (s', g) with ⟨result', s₁', g₁'⟩
  rw [ran, ran'] at same_result same_source
  rw [ran] at result_holds
  dsimp only at same_result same_source result_holds
  subst same_result same_source
  cases result with
  | error e => exact ⟨rfl, rfl⟩
  | ok a => exact second a (result_holds a rfl) s₁ s₁' g₁

theorem bind {m : Draw σ γ α} {m' : Draw τ γ α} {f : α → Draw σ γ β} {f' : α → Draw τ γ β}
    (first : Draw.Alike m m') (second : ∀ a, Draw.Alike (f a) (f' a)) :
    Draw.Alike (m >>= f) (m' >>= f') :=
  bind_of (fun _ => True) first (fun _ _ _ => trivial) fun a _ => second a

theorem pure (a : α) : Draw.Alike (Pure.pure a : Draw σ γ α) (Pure.pure a : Draw τ γ α) :=
  fun _ _ _ => ⟨rfl, rfl⟩

theorem query {step : Step σ α} {step' : Step τ α} (same : ∀ s s', (step s).1 = (step' s').1) :
    Draw.Alike (Draw.query step : Draw σ γ α) (Draw.query step') :=
  fun s s' _ => ⟨same s s', rfl⟩

theorem random (draw : γ → Except Error α × γ) :
    Draw.Alike (Draw.random draw : Draw σ γ α) (Draw.random draw : Draw τ γ α) :=
  fun _ _ _ => ⟨rfl, rfl⟩

end Draw.Alike

variable [Scalar K] {o : Oracle σ K} {o' : Oracle τ K}

theorem sampleReal_alike (alike : o.Alike o') (source : Source γ K) (data : PointSet K)
    (size k : ℤ) : (sampleReal o source data size k).Alike (sampleReal o' source data size k) := by
  refine .bind (.random _) fun numbers => .bind (.query fun _ _ => rfl) fun chosen => ?_
  exact .bind (.query (alike _ _)) fun xs => .query fun _ _ => rfl

variable [Add K] [Mul K]

theorem sampleUniform_alike (alike : o.Alike o') (source : Source γ K) (box : Box K)
    (size k : ℤ) :
    (sampleUniform o source box size k).Alike (sampleUniform o' source box size k) := by
  refine .bind (.random _) fun points => ?_
  exact .bind (.query (alike _ _)) fun xs => .query fun _ _ => rfl

variable [Div K]

theorem runTrial_alike (alike : o.Alike o') (source : Source γ K) (data : PointSet K)
    (box : Box K) (size k : ℤ) :
    (runTrial o source data box size k).Alike (runTrial o' source data box size k) :=
  .bind (sampleReal_alike alike source data size k) fun _ =>
    .bind (sampleUniform_alike alike source box size k) fun _ => .pure _

/-- A repetition ends in the same way on two oracles that answer alike. -/
theorem repetition_alike (alike : o.Alike o') (source : Source γ K) (stream : ℕ → γ)
    (data : PointSet K) (box : Box K) (size k : ℤ) (j : ℕ) (s : σ) (s' : τ) :
    (repetition o source stream data box size k j s).1 =
      (repetition o' source stream data box size k j s').1 :=
  (runTrial_alike alike source data box size k s s' (stream j)).1

end Alike

/-! ## Oracles whose answers do not depend on their state -/

section Stateless

variable {σ K : Type} {o : Oracle σ K}

theorem askEach_stateless {ask : Grid K → Step σ K}
    (stateless : ∀ point s s', (ask point s).1 = (ask point s').1) (rank : ℤ) (position : ℕ)
    (points : List (Grid K)) (s s' : σ) :
    (askEach ask rank position points s).1 = (askEach ask rank position points s').1 := by
  induction points generalizing position s s' with
  | nil => rfl
  | cons point rest ih =>
      have same := stateless point s s'
      simp only [askEach]
      rcases asked : ask point s with ⟨result, t⟩
      rcases asked' : ask point s' with ⟨result', t'⟩
      rw [asked, asked'] at same
      dsimp only at same
      subst same
      cases result with
      | error e => rfl
      | ok x =>
          have rest_same := ih (position + 1) t t'
          dsimp only
          rcases others : askEach ask rank (position + 1) rest t with ⟨answers, u⟩
          rcases others' : askEach ask rank (position + 1) rest t' with ⟨answers', u'⟩
          rw [others, others'] at rest_same
          dsimp only at rest_same
          subst rest_same
          cases answers <;> rfl

theorem askBlock_stateless {ask : Grid K → Step σ (Grid K)}
    (stateless : ∀ points s s', (ask points s).1 = (ask points s').1) (rank : ℤ)
    (points : Grid K) (size : ℕ) (s s' : σ) :
    (askBlock ask rank points size s).1 = (askBlock ask rank points size s').1 := by
  have same := stateless points s s'
  simp only [askBlock]
  rcases asked : ask points s with ⟨result, t⟩
  rcases asked' : ask points s' with ⟨result', t'⟩
  rw [asked, asked'] at same
  dsimp only at same
  subst same
  cases result with
  | error e => rfl
  | ok answers =>
      dsimp only
      split <;> rfl

/-- A check after a step changes the result alone. -/
theorem bind_ofExcept {α β : Type} (step : Step σ α) (check : α → Except Error β) (s : σ) :
    (step >>= fun a => Step.ofExcept (check a)) s = ((step s).1.bind check, (step s).2) := by
  simp only [Bind.bind, ExceptT.bind, ExceptT.mk, StateT.bind]
  rcases ran : step s with ⟨result, t⟩
  cases result <;> rfl

theorem bind_ofExcept_fst {α β : Type} (step : Step σ α) (check : α → Except Error β) (s : σ) :
    ((step >>= fun a => Step.ofExcept (check a)) s).1 = (step s).1.bind check :=
  congrArg Prod.fst (bind_ofExcept step check s)

/-- An oracle that looks at its state for no answer gives the same distances always. -/
theorem Oracle.IsStateless.alike [Scalar K] (stateless : o.IsStateless) : o.Alike o := by
  intro points rank s s'
  rw [queryDistances]
  cases points.shape with
  | nil => rfl
  | cons size rest =>
      dsimp only
      split
      · rw [bind_ofExcept_fst, bind_ofExcept_fst,
          askBlock_stateless (fun grid => stateless.distances grid rank) rank points size s s']
      · rw [bind_ofExcept_fst, bind_ofExcept_fst,
          askEach_stateless (fun grid => stateless.distance grid rank) rank 0 _ s s']

end Stateless

end PointPattern
