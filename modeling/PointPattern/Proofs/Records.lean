/-
# Records without gaps

The records of a run are published under fixed names in a fixed order. Those of the standard
deviations have their place only if there are several repetitions. A record without a number
could not be published; there is none as long as the variances of several repetitions exist,
which in turn is a matter of counting them.
-/

import PointPattern.Proofs.Results
import PointPattern.Report
import Mathlib.Data.Nat.Notation

namespace PointPattern

variable {K : Type}

namespace Params

/-- The records of a run, with those of the standard deviations in their place. -/
def recordsWith (p : Params K) (deviations : List (String × Option (Datum K))) :
    List (String × Option (Datum K)) :=
  [(recordName "samplesize", some (.whole p.sampleSize)), (recordName "dim", some (.whole p.dim)),
    (recordName "nearest-neighbor", some (.whole p.k)),
    (recordName "h.mean", some (.real p.hMean)), (recordName "u.mean", some (.real p.uMean)),
    (recordName "w.mean", some (.real p.wMean))] ++
  deviations ++ [(recordName "p", some (.real p.pValue))]

/-- The records of standard deviations that may not exist. -/
def spreadRecords (deviations : Option K × Option K × Option K) :
    List (String × Option (Datum K)) :=
  [(recordName "h.std", deviations.1.map .real), (recordName "u.std", deviations.2.1.map .real),
    (recordName "w.std", deviations.2.2.map .real)]

/-- The variances of several repetitions exist. -/
structure HasVariances (p : Params K) : Prop where
  h : 1 < p.repetitions → p.hVariance.isSome = true
  u : 1 < p.repetitions → p.uVariance.isSome = true
  w : 1 < p.repetitions → p.wVariance.isSome = true

/-- No gap is left if the deviations leave none. -/
theorem isSome_of_mem_recordsWith {p : Params K} {deviations : List (String × Option (Datum K))}
    (complete : ∀ record ∈ deviations, record.2.isSome = true) :
    ∀ record ∈ p.recordsWith deviations, record.2.isSome = true := by
  simpa [recordsWith, or_imp, forall_and] using complete

variable [Scalar K] [Roots K] {p : Params K}

/-- A variance has a root only if it exists. -/
theorem isSome_deviationOf {variance deviation : Option K}
    (rooted : deviationOf variance = .ok deviation) : deviation.isSome = variance.isSome := by
  cases variance with
  | none => cases rooted; rfl
  | some v =>
      obtain ⟨x, -, rfl⟩ := ok_of_map rooted
      rfl

theorem deviations_eq_ok {deviations : Option K × Option K × Option K}
    (rooted : p.deviations = .ok deviations) :
    deviationOf p.hVariance = .ok deviations.1 ∧ deviationOf p.uVariance = .ok deviations.2.1 ∧
      deviationOf p.wVariance = .ok deviations.2.2 := by
  obtain ⟨h, h_root, rooted⟩ := exists_of_bind_eq_ok rooted
  obtain ⟨u, u_root, rooted⟩ := exists_of_bind_eq_ok rooted
  obtain ⟨w, w_root, rooted⟩ := exists_of_bind_eq_ok rooted
  cases rooted
  exact ⟨h_root, u_root, w_root⟩

theorem records_of_single (single : p.repetitions ≤ 1) : p.records = .ok (p.recordsWith []) := by
  rw [records, deviationRecords, if_pos single]
  rfl

theorem records_of_several (several : 1 < p.repetitions) :
    p.records = p.deviations.map fun deviations => p.recordsWith (spreadRecords deviations) := by
  rw [records, deviationRecords, if_neg (Nat.not_le.2 several)]
  cases p.deviations <;> rfl

/-- Records have no gaps if variances of several repetitions exist. -/
theorem HasVariances.isSome_of_mem_records (exist : p.HasVariances)
    {records : List (String × Option (Datum K))} (published : p.records = .ok records) :
    ∀ record ∈ records, record.2.isSome = true := by
  rcases Nat.lt_or_ge 1 p.repetitions with several | single
  · rw [records_of_several several] at published
    cases rooted : p.deviations with
    | error e => rw [rooted] at published; cases published
    | ok deviations =>
        rw [rooted] at published
        cases published
        obtain ⟨h_root, u_root, w_root⟩ := deviations_eq_ok rooted
        apply isSome_of_mem_recordsWith
        simp [spreadRecords, isSome_deviationOf h_root, isSome_deviationOf u_root,
          isSome_deviationOf w_root, exist.h several, exist.u several, exist.w several]
  · rw [records_of_single single] at published
    cases published
    apply isSome_of_mem_recordsWith
    intro record mem
    cases mem

end Params

end PointPattern
