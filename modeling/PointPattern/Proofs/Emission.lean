/-
# Numbers on the channel

What is published on the channel is passed on number by number. If records pass, every number
leaves a message, and every attached collector of a level low enough keeps it, in order; if they
do not pass, nothing is left behind. Records without gaps are published completely.
-/

import PointPattern.Channel
import Mathlib.Data.List.Count

namespace PointPattern.Channel

variable {K : Type} [Scalar K]

omit [Scalar K] in
/-- Whether records pass is a matter of the level and of the inherited one. -/
theorem isEnabled_congr {c c' : Channel K} (level : c'.level = c.level)
    (inherited : c'.inherited = c.inherited) : c'.isEnabled = c.isEnabled := by
  rw [isEnabled, isEnabled, isEnabledFor, isEnabledFor, effectiveLevel, effectiveLevel, level,
    inherited]

/-- Publishes named numbers in order. -/
def publish (c : Channel K) (numbers : List (String × Datum K)) : Channel K :=
  numbers.foldl (fun c number => c.emit number.1 number.2) c

/-- Records without gaps are published to the last. -/
theorem emitAll_eq_publish (c : Channel K) (numbers : List (String × Datum K)) :
    c.emitAll (numbers.map fun number => (number.1, some number.2)) =
      (none, c.publish numbers) := by
  induction numbers generalizing c with
  | nil => rfl
  | cons number rest ih =>
      rw [List.map_cons, emitAll, ih]
      rfl

/-- The message that a number leaves. -/
def messageOf (number : String × Datum K) : Message :=
  ⟨statisticsLevel, number.1 ++ ": " ++ number.2.written⟩

/-- What a collector keeps of numbers that pass, if each is given to it so many times. -/
def keeps (times : ℕ) (numbers : List (String × Datum K)) (collector : Collector K) :
    Collector K :=
  { collector with
    records := collector.records ++
      if collector.level ≤ statisticsLevel then numbers.flatMap (List.replicate times) else [] }

/-- A channel has received numbers: if records pass, their messages are there in order, and each
collector has kept them, once for each time that it is attached. Nothing else has changed. -/
structure Receives (c : Channel K) (numbers : List (String × Datum K)) (c' : Channel K) : Prop where
  level : c'.level = c.level
  inherited : c'.inherited = c.inherited
  attached : c'.attached = c.attached
  passed : c'.passed = (if c.isEnabled then numbers.map messageOf else []).reverse ++ c.passed
  collected : ∀ n, c'.collectors[n]? =
    (c.collectors[n]?).map (keeps (c.attached.count n) (if c.isEnabled then numbers else []))

omit [Scalar K] in
@[simp]
theorem keeps_nil (times : ℕ) : (keeps times [] : Collector K → Collector K) = id := by
  funext collector
  simp [keeps]

omit [Scalar K] in
@[simp]
theorem keeps_zero (number : String × Datum K) : keeps 0 [number] = id := by
  funext collector
  simp [keeps]

omit [Scalar K] in
/-- Numbers that come later are kept later. -/
theorem keeps_append (times : ℕ) (numbers others : List (String × Datum K)) :
    keeps times others ∘ keeps times numbers = keeps times (numbers ++ others) := by
  funext collector
  by_cases low : collector.level ≤ statisticsLevel <;> simp [keeps, low]

omit [Scalar K] in
/-- A number may be given once more. -/
theorem keeps_succ (times : ℕ) (number : String × Datum K) :
    keeps times [number] ∘ keeps 1 [number] = keeps (times + 1) [number] := by
  funext collector
  by_cases low : collector.level ≤ statisticsLevel <;> simp [keeps, low, List.replicate_succ]

omit [Scalar K] in
theorem getElem?_takeRecord (number : String × Datum K) (m : ℕ) (collectors : List (Collector K))
    (n : ℕ) :
    (takeRecord number m collectors)[n]? =
      (collectors[n]?).map (if m = n then keeps 1 [number] else id) := by
  rw [takeRecord, List.getElem?_modify]
  congr 1
  split
  · funext collector
    by_cases low : collector.level ≤ statisticsLevel <;> simp [keeps, low]
  · rfl

omit [Scalar K] in
/-- Each collector takes a record once for each time that it is attached. -/
theorem getElem?_foldl_takeRecord (number : String × Datum K) (attached : List ℕ)
    (collectors : List (Collector K)) (n : ℕ) :
    (attached.foldl (fun collectors m => takeRecord number m collectors) collectors)[n]? =
      (collectors[n]?).map (keeps (attached.count n) [number]) := by
  induction attached generalizing collectors with
  | nil => simp
  | cons m rest ih =>
      rw [List.foldl_cons, ih, getElem?_takeRecord, Option.map_map, List.count_cons]
      by_cases here : m = n
      · simp [here, keeps_succ]
      · simp [here]

namespace Receives

variable {c c' c'' : Channel K} {numbers others : List (String × Datum K)}

theorem isEnabled_eq (receives : c.Receives numbers c') : c'.isEnabled = c.isEnabled :=
  isEnabled_congr receives.level receives.inherited

theorem nil (c : Channel K) : c.Receives [] c where
  level := rfl
  inherited := rfl
  attached := rfl
  passed := by simp
  collected n := by simp

theorem append (first : c.Receives numbers c') (second : c'.Receives others c'') :
    c.Receives (numbers ++ others) c'' where
  level := second.level.trans first.level
  inherited := second.inherited.trans first.inherited
  attached := second.attached.trans first.attached
  passed := by
    rw [second.passed, first.passed, first.isEnabled_eq]
    split <;> simp
  collected n := by
    rw [second.collected, first.collected, first.isEnabled_eq, first.attached, Option.map_map]
    rw [keeps_append]
    split <;> rfl

theorem emit (c : Channel K) (number : String × Datum K) :
    c.Receives [number] (c.emit number.1 number.2) := by
  rw [Channel.emit]
  split
  · next enabled =>
      constructor
      case level => rfl
      case inherited => rfl
      case attached => rfl
      case passed => rw [if_pos enabled]; rfl
      case collected =>
        intro n
        rw [if_pos enabled]
        exact getElem?_foldl_takeRecord number c.attached c.collectors n
  · next disabled =>
      constructor
      case level => rfl
      case inherited => rfl
      case attached => rfl
      case passed => rw [if_neg disabled]; rfl
      case collected =>
        intro n
        simp [disabled]

end Receives

end PointPattern.Channel
