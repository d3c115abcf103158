/-
# Named numbers

A record of the statistics channel has a name and a number. Whole numbers stay
whole; everything else is a real number.
-/

import PointPattern.Error
import PointPattern.Scalar
import PointPattern.Value.Reading

namespace PointPattern

/-- The number of a record. -/
inductive Datum (K : Type) where
  | whole (i : Int)
  | real (x : K)
  deriving DecidableEq, Repr

namespace Datum

/-- The form in which messages show the number. -/
def written {K : Type} [Scalar K] : Datum K → String
  | whole i => toString i
  | real x => Scalar.written x

/-- The number that a value holds. -/
def ofValue (v : Value) : Except Error (Datum Float) :=
  match v.integral? with
  | some i => .ok (.whole i)
  | none => v.toReal.map .real

end Datum

end PointPattern
