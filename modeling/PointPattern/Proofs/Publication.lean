/-
# All or nothing

A study of which a hierarchy is told ends in one of three ways. It returns: its records have been
published and its solution is the last child of its parent. Or it is refused, and neither the
channel nor the hierarchy has seen anything of it. Or a listener fails while it is notified, and
then the records have been published and the solution is in its place all the same. Nothing else
can happen: records have no gaps, so publishing them does not stop halfway, and the hierarchy
does not refuse the solution, since the parent was found before the run, and a run cannot lose
it.
-/

import PointPattern.Proofs.Emission
import PointPattern.Proofs.Hierarchy.Endings
import PointPattern.Proofs.Stages
import PointPattern.Proofs.Tails

namespace PointPattern

variable {σ ν κ K : Type} [Add K] [Sub K] [Mul K] [Div K] [Scalar K] [Roots K] [BetaTails K]
variable [DecidableEq ν] [DecidableEq κ]

namespace Study

/-- The three ways in which a study ends. -/
inductive Ending where
  | returned
  | refused
  | interrupted
  deriving DecidableEq

section

variable (host : Host K) (library : Option Accelerators)
variable (onDevice : Device → PointSet K → Oracle σ K) (t : Study σ K) (identity : ν)
variable (parent : Node ν) (scene : Scene σ ν κ K) (s : Session ν κ) (commands : List (Command ν κ))

/-- A study has published its records and attached its solution. When the first listener is
called, the channel has all records in order; the hierarchy has accepted the solution below its
parent, and it is there while the listeners are notified. -/
structure Publishes (solution : Solution K) : Prop where
  solves : t.Solves host library onDevice scene.oracle solution
  recorded : ∃ numbers,
    t.records solution = .ok (numbers.map fun number => (number.1, some number.2)) ∧
      (t.conduct host library onDevice identity parent scene).2.channel =
        scene.channel.publish numbers ∧
      scene.channel.Receives numbers (scene.channel.publish numbers)
  accepted : s.hierarchy.attach (.object identity) parent =
    .ok (s.hierarchy.orRoot parent,
      s.hierarchy.graft (.object identity) (s.hierarchy.orRoot parent))
  outcome : (t.conduct host library onDevice identity parent scene).1 =
    .attached solution (s.act (.attach (.object identity) parent)).2
  session : (t.conduct host library onDevice identity parent scene).2.session =
    some (s.act (.attach (.object identity) parent)).1
  gains : ∀ x ∈ s.trace (.attach (.object identity) parent :: commands),
    s.hierarchy.Gains x.1.hierarchy (.object identity) (s.hierarchy.orRoot parent)

/-- How a study ends while listeners give commands in the session of its hierarchy. -/
inductive Concludes : Ending → Prop
  | returned {solution : Solution K}
      (published : t.Publishes host library onDevice identity parent scene s commands solution)
      (ended : EndsAt s.pending.length
        (s.trace (.attach (.object identity) parent :: commands))) : Concludes .returned
  | refused {e : Error} (cause : t.RefusedBy host library onDevice parent scene e)
      (outcome : (t.conduct host library onDevice identity parent scene).1 = .failed e)
      (channel : (t.conduct host library onDevice identity parent scene).2.channel =
        scene.channel)
      (session : (t.conduct host library onDevice identity parent scene).2.session =
        scene.session) : Concludes .refused
  | interrupted {solution : Solution K} {final : Session ν κ} {e : Error}
      (published : t.Publishes host library onDevice identity parent scene s commands solution)
      (raised : (s.trace (.attach (.object identity) parent :: commands)).getLast? =
        some (final, .raised e))
      (gave_up : commands.getLast? = some (.fail e)) : Concludes .interrupted

end

variable {host : Host K} {library : Option Accelerators}
variable {onDevice : Device → PointSet K → Oracle σ K} {t : Study σ K} {identity : ν}
variable {parent : Node ν} {scene : Scene σ ν κ K} {s : Session ν κ}
variable {commands : List (Command ν κ)}

/-- No two of the three ways go together. -/
theorem Concludes.eq {ending ending' : Ending}
    (concludes : t.Concludes host library onDevice identity parent scene s commands ending)
    (concludes' : t.Concludes host library onDevice identity parent scene s commands ending') :
    ending = ending' := by
  have refused_published {solution : Solution K} {e : Error}
      (outcome : (t.conduct host library onDevice identity parent scene).1 = .failed e)
      (published : t.Publishes host library onDevice identity parent scene s commands solution) :
      False := by
    have attached := published.outcome
    rw [outcome] at attached
    cases attached
  have returned_interrupted {final : Session ν κ} {e : Error}
      (ended : EndsAt s.pending.length (s.trace (.attach (.object identity) parent :: commands)))
      (raised : (s.trace (.attach (.object identity) parent :: commands)).getLast? =
        some (final, .raised e)) : False := by
    obtain ⟨_, last, -⟩ := ended
    rw [raised] at last
    cases last
  cases concludes with
  | returned published ended =>
      cases concludes' with
      | returned _ _ => rfl
      | refused _ outcome _ _ => exact (refused_published outcome published).elim
      | interrupted _ raised _ => exact (returned_interrupted ended raised).elim
  | refused cause outcome channel session =>
      cases concludes' with
      | returned published _ => exact (refused_published outcome published).elim
      | refused _ _ _ _ => rfl
      | interrupted published _ _ => exact (refused_published outcome published).elim
  | interrupted published raised gave_up =>
      cases concludes' with
      | returned _ ended => exact (returned_interrupted ended raised).elim
      | refused _ outcome _ _ => exact (refused_published outcome published).elim
      | interrupted _ _ _ => rfl

end Study

end PointPattern
