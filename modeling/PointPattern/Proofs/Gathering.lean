/-
# Moments of numbers that were gathered

Numbers reach an accumulator one by one or as a whole from another accumulator, which has
gathered its own in the same way. Without rounding the moments do not tell how: they are those of
the numbers, in whatever order, however they were distributed, and with empty accumulators
anywhere. Accumulators with names are changed in place, each only by the operations that are about
it, so that what a program of such operations leaves under a name are the moments of what it has
gathered there.
-/

import PointPattern.Moments.Registers
import PointPattern.Proofs.Moments
import Mathlib.Data.Option.Basic

namespace PointPattern

/-- How numbers came together in one accumulator: it starts without any, takes one more, or takes
over those of another accumulator. -/
inductive Gathering (K : Type) where
  | nothing
  | push (g : Gathering K) (x : K)
  | merge (g other : Gathering K)

namespace Gathering

variable {K : Type}

/-- The numbers, each as often as it was taken in. -/
def numbers : Gathering K → List K
  | nothing => []
  | push g x => g.numbers ++ [x]
  | merge g other => g.numbers ++ other.numbers

/-- Several numbers in a row. -/
def pushAll (g : Gathering K) (xs : List K) : Gathering K := xs.foldl push g

variable [Add K] [Sub K] [Mul K] [Div K] [Scalar K]

/-- What an accumulator holds that has gathered its numbers in this way. -/
def moments : Gathering K → Moments K
  | nothing => .empty
  | push g x => g.moments.push x
  | merge g other => g.moments.merge other.moments

theorem moments_pushAll (g : Gathering K) (xs : List K) :
    (g.pushAll xs).moments = xs.foldl Moments.push g.moments := by
  induction xs generalizing g with
  | nil => rfl
  | cons x rest ih => exact ih (g.push x)

end Gathering

/-! ## Exact moments -/

namespace Moments

variable {K : Type} [Field K] [LinearOrder K] [IsStrictOrderedRing K] [Scalar K] [Scalar.Exact K]

/-- Moments that are those of a list of numbers: their count, their arithmetic mean if there are
numbers, the squared deviations from it, and a variance that exists from two numbers on and is not
negative. -/
structure AreOf (m : Moments K) (xs : List K) : Prop where
  count : m.count = xs.length
  mean : m.mean? = if xs = [] then none else some (arithmeticMean xs)
  deviations : m.deviations = squaredDeviations xs
  single : m.variance = none ↔ xs.length < 2
  several : 2 ≤ xs.length → m.variance = some (squaredDeviations xs / (xs.length - 1)) ∧
    0 ≤ squaredDeviations xs / (xs.length - 1)

/-- The order of the numbers leaves no trace. -/
theorem ofList_perm {xs ys : List K} (perm : xs.Perm ys) : ofList xs = ofList ys := by
  rw [ofList_eq_ofSums, ofList_eq_ofSums, perm.length_eq, perm.sum_eq,
    (perm.map (· ^ 2)).sum_eq]

theorem areOf_ofList (xs : List K) : (ofList xs).AreOf xs where
  count := count_ofList xs
  mean := by
    rw [mean?, count_ofList, mean_ofList]
    exact if_congr List.length_eq_zero_iff rfl rfl
  deviations := by rw [ofList_eq_ofSums, ofSums, squaredDeviations_eq]
  single := by
    rw [variance_ofList, sampleVariance?]
    split_ifs with few
    · exact iff_of_true rfl (Nat.lt_succ_of_le few)
    · exact iff_of_false not_false fun fewer => few (Nat.le_of_lt_succ fewer)
  several := by
    intro several
    obtain ⟨v, nonneg, exists_v⟩ := sampleVariance_of_several several
    rw [sampleVariance?, if_neg (Nat.not_le.2 several)] at exists_v
    rw [variance_ofList, sampleVariance?, if_neg (Nat.not_le.2 several)]
    exact ⟨rfl, (Option.some.inj exists_v).symm ▸ nonneg⟩

end Moments

/-- Whichever way the numbers came, the moments are those of one pass over them. -/
theorem Gathering.moments_eq_ofList {K : Type} [Field K] [LinearOrder K] [IsStrictOrderedRing K]
    [Scalar K] [Scalar.Exact K] (g : Gathering K) : g.moments = .ofList g.numbers := by
  induction g with
  | nothing => rfl
  | push g x ih => rw [moments, numbers, ih, Moments.ofList_append_singleton]
  | merge g other ih ih' => rw [moments, numbers, ih, ih', Moments.merge_ofList]

/-! ## Accumulators with names -/

/-- The accumulator that an operation changes, if it does not fail. -/
def RegisterAction.target : RegisterAction → String
  | create name | push name _ | pushAll name _ | merge name _ | copy _ name => name

/-- The numbers that values give, up to the first value that is none. -/
def numbersOf : List Value → List Float
  | [] => []
  | v :: rest => match v.toReal with
    | .ok x => x :: numbersOf rest
    | .error _ => []

/-- What accumulators have gathered, by their names. -/
abbrev Gatherings := String → Option (Gathering Float)

/-- What they have gathered after one more operation. One that fails gathers nothing, apart from
the numbers before the value that it fails at. -/
def Gatherings.act (gathered : Gatherings) : RegisterAction → Gatherings
  | .create name => Function.update gathered name (some .nothing)
  | .push name v => Function.update gathered name
      ((gathered name).map fun g => g.pushAll (numbersOf [v]))
  | .pushAll name vs => Function.update gathered name
      ((gathered name).map fun g => g.pushAll (numbersOf vs))
  | .merge name other => Function.update gathered name
      ((gathered name).map fun g => ((gathered other).map g.merge).getD g)
  | .copy name other => Function.update gathered other ((gathered name).or (gathered other))

namespace Registers

/-- The accumulators hold the moments of what they have gathered. -/
def Hold (r : Registers) (gathered : Gatherings) : Prop :=
  ∀ name, r.get? name = (gathered name).map Gathering.moments

/-- Carries out operations one after the other. -/
def run (r : Registers) (actions : List RegisterAction) : Registers :=
  actions.foldl (fun r action => (r.act action).2) r

theorem find_eq (r : Registers) (name : String) :
    r.find name = match r.get? name with
      | some m => .ok m
      | none => .error (.raised "KeyError" name) := rfl

theorem pushValues_snd (m : Moments Float) (vs : List Value) :
    (m.pushValues vs).2 = (numbersOf vs).foldl Moments.push m := by
  induction vs generalizing m with
  | nil => rfl
  | cons v rest ih =>
      rw [Moments.pushValues, Moments.pushValue, numbersOf]
      cases v.toReal with
      | error e => rfl
      | ok x => exact ih (m.push x)

/-- An operation changes no accumulator but its own. -/
theorem get?_act_of_ne (r : Registers) {action : RegisterAction} {name : String}
    (other : name ≠ action.target) : (r.act action).2.get? name = r.get? name := by
  cases action with
  | create target => exact (Ledger.get?_put r target name _).trans (if_neg other)
  | push target v | pushAll target vs | merge target source | copy source target =>
      rw [act]
      split
      · exact (Ledger.get?_put r target name _).trans (if_neg other)
      · rfl

/-- Operations that are about other accumulators leave one alone. -/
theorem get?_run_of_ne (r : Registers) {actions : List RegisterAction} {name : String}
    (others : ∀ action ∈ actions, name ≠ action.target) :
    (r.run actions).get? name = r.get? name := by
  induction actions generalizing r with
  | nil => rfl
  | cons action rest ih =>
      rw [run, List.foldl_cons]
      refine (ih _ fun action' mem => others action' (List.mem_cons_of_mem action mem)).trans ?_
      exact r.get?_act_of_ne (others action List.mem_cons_self)

/-- What an operation leaves under the name that it is about. -/
theorem get?_act_target {r : Registers} {gathered : Gatherings} (hold : r.Hold gathered)
    (action : RegisterAction) :
    (r.act action).2.get? action.target =
      (gathered.act action action.target).map Gathering.moments := by
  cases action with
  | create name =>
      simp only [act, RegisterAction.target, Gatherings.act, Function.update_self,
        Ledger.get?_put, if_true, Option.map_some]
      rfl
  | push name v =>
      simp only [act, RegisterAction.target, Gatherings.act, Function.update_self, find_eq,
        hold name]
      cases known : gathered name with
      | none =>
          exact (hold name).trans (congrArg _ known)
      | some g =>
          rw [Option.map_some, Option.map_some, Option.map_some, Gathering.moments_pushAll,
            numbersOf]
          cases number : v.toReal with
          | error e =>
              simp only [Moments.pushValue, number, Except.map, bind, Except.bind, List.foldl_nil]
              exact (hold name).trans (congrArg _ known)
          | ok x =>
              simp only [Moments.pushValue, number, Except.map, bind, Except.bind,
                Ledger.get?_put, if_true]
              rfl
  | pushAll name vs =>
      simp only [act, RegisterAction.target, Gatherings.act, Function.update_self, find_eq,
        hold name]
      cases known : gathered name with
      | none => exact (hold name).trans (congrArg _ known)
      | some g =>
          rw [Option.map_some, Option.map_some, Option.map_some, Gathering.moments_pushAll,
            ← pushValues_snd]
          exact (Ledger.get?_put _ _ _ _).trans (if_pos rfl)
  | merge name other =>
      simp only [act, RegisterAction.target, Gatherings.act, Function.update_self, find_eq,
        hold name, hold other]
      cases known : gathered name with
      | none => exact (hold name).trans (congrArg _ known)
      | some g =>
          cases known_other : gathered other with
          | none => exact (hold name).trans (congrArg _ known)
          | some g' => exact (Ledger.get?_put _ _ _ _).trans (if_pos rfl)
  | copy name other =>
      simp only [act, RegisterAction.target, Gatherings.act, Function.update_self, find_eq,
        hold name]
      cases known : gathered name with
      | none => exact hold other
      | some g => exact (Ledger.get?_put _ _ _ _).trans (if_pos rfl)

theorem Hold.act {r : Registers} {gathered : Gatherings} (hold : r.Hold gathered)
    (action : RegisterAction) : (r.act action).2.Hold (gathered.act action) := by
  intro name
  by_cases target : name = action.target
  · rw [target, get?_act_target hold]
  · have frame : gathered.act action name = gathered name := by
      cases action <;> exact Function.update_of_ne target _ _
    rw [r.get?_act_of_ne target, hold name, frame]

theorem Hold.run {r : Registers} {gathered : Gatherings} (hold : r.Hold gathered)
    (actions : List RegisterAction) :
    (r.run actions).Hold (actions.foldl Gatherings.act gathered) := by
  induction actions generalizing r gathered with
  | nil => exact hold
  | cons action rest ih => exact ih (hold.act action)

/-- After a copy has been taken, only operations about the copy change it. -/
theorem get?_copy (r : Registers) {name copied : String} {m : Moments Float}
    (known : r.get? name = some m) {actions : List RegisterAction}
    (others : ∀ action ∈ actions, copied ≠ action.target) :
    ((r.act (.copy name copied)).2.run actions).get? copied = some m := by
  rw [get?_run_of_ne _ others, act, find_eq, known]
  exact (Ledger.get?_put _ _ _ _).trans (if_pos rfl)

end Registers

/-- However numbers are distributed over accumulators, in whatever order they are pushed and by
whatever tree of merges they come together, their exact moments are the textbook's. Accumulators
with names hold what was gathered under their names, a merge leaves the other accumulator as it
was, and a copy stays what it is while the original goes on. -/
theorem moments_gathered {K : Type} [Field K] [LinearOrder K] [IsStrictOrderedRing K] [Scalar K]
    [Scalar.Exact K] :
    (∀ (g : Gathering K) (xs : List K), g.numbers.Perm xs → g.moments.AreOf xs) ∧
    (∀ actions : List RegisterAction, (Registers.run ⟨[]⟩ actions).Hold
      (actions.foldl Gatherings.act fun _ => none)) ∧
    (∀ (r : Registers) (name other : String), other ≠ name →
      (r.act (.merge name other)).2.get? other = r.get? other) ∧
    ∀ (r : Registers) (name copied : String) (m : Moments Float)
      (actions : List RegisterAction), r.get? name = some m →
      (∀ action ∈ actions, copied ≠ action.target) →
      ((r.act (.copy name copied)).2.run actions).get? copied = some m := by
  refine ⟨?_, fun actions => ?_, fun r name other different => r.get?_act_of_ne different,
    fun r name copied m actions known others => r.get?_copy known others⟩
  · intro g xs perm
    rw [g.moments_eq_ofList, Moments.ofList_perm perm]
    exact Moments.areOf_ofList xs
  · exact Registers.Hold.run (fun _ => rfl) actions

/-- Three numbers in two accumulators and an empty one between them; and an accumulator that
grows after it was copied and after it was merged into another. -/
theorem moments_gathered_threeNumbers :
    (Gathering.merge (.push (.push .nothing 1) 6) (.merge .nothing (.push .nothing 2)) :
        Gathering ℚ).moments.AreOf [6, 2, 1] ∧
      (Gathering.merge (.push (.push .nothing 1) 6) (.merge .nothing (.push .nothing 2)) :
        Gathering ℚ).moments.variance = some 7 ∧
      (Registers.run ⟨[]⟩ [.create "a", .create "b", .merge "a" "b"]).Hold
        (fun name => if name = "a" then some (.merge .nothing .nothing)
          else if name = "b" then some .nothing else none) ∧
      (Registers.act ⟨[("a", .empty), ("b", .empty)]⟩ (.merge "a" "b")).2.get? "b" =
        some Moments.empty ∧
      ((Registers.act ⟨[("a", .empty)]⟩ (.copy "a" "c")).2.run
        [.push "a" (.int 3), .pushAll "a" [.int 4], .merge "a" "c"]).get? "c" =
          some Moments.empty := by
  obtain ⟨areOf, hold, merged, copied⟩ := moments_gathered (K := ℚ)
  have moments := areOf (.merge (.push (.push .nothing 1) 6) (.merge .nothing (.push .nothing 2)))
    [6, 2, 1] (by decide)
  refine ⟨moments, ?_, ?_, ?_, ?_⟩
  · rw [(moments.several (by decide)).1]
    norm_num [squaredDeviations, arithmeticMean]
  · intro name
    refine (hold [.create "a", .create "b", .merge "a" "b"] name).trans (congrArg _ ?_)
    simp only [List.foldl_cons, List.foldl_nil, Gatherings.act]
    by_cases a : name = "a"
    · subst a
      rfl
    by_cases b : name = "b"
    · subst b
      rfl
    simp [a, b]
  · exact merged ⟨[("a", .empty), ("b", .empty)]⟩ "a" "b" (by decide)
  · exact copied ⟨[("a", .empty)]⟩ "a" "c" .empty
      [.push "a" (.int 3), .pushAll "a" [.int 4], .merge "a" "c"] rfl (by decide)

end PointPattern
