/-
# Sums and quotients of given numbers

Integers add and compare without rounding, and their quotient is rounded once.
Real numbers compute in the precision that they carry; a plain number takes the
precision of the other operand.
-/

import PointPattern.Value.Reading

namespace PointPattern

open Number

/-- A number as it was given: a whole number, or a real one with the number of
bits it carries. A plain real number carries none and adapts to the other. -/
inductive Quantity where
  | whole (i : Int)
  | real (bits : Nat) (x : Float)

namespace Quantity

/-- The number that a value holds. -/
def ofValue? : Value → Except NumberError Quantity
  | .bool b => .ok (whole b.toNat)
  | .int i => .ok (whole i)
  | .sized (.real bits) v => v.toReal?.map (real bits)
  | .sized (.signed _) v | .sized (.unsigned _) v => v.toInteger?.map whole
  | v => v.toReal?.map (real 0)

/-- The number as a double. -/
def toReal? : Quantity → Except NumberError Float
  | whole i => match floatOfInt? i with
    | some x => .ok x
    | none => .error .tooLarge
  | real _ x => .ok x

/-- The number of bits that a number carries. -/
def bits : Quantity → Nat
  | whole _ => 0
  | real bits _ => bits

/-- The result of a real operation in the precision of its operands, to which both
are rounded first. -/
def compute (op : Float → Float → Float) (a b : Quantity) : Except NumberError Quantity := do
  let bits := max a.bits b.bits
  let rounded := (ElementType.real bits).format.roundFloat
  return real bits (rounded (op (rounded (← a.toReal?)) (rounded (← b.toReal?))))

/-- The sum of two numbers. -/
def add : Quantity → Quantity → Except NumberError Quantity
  | whole i, whole j => .ok (whole (i + j))
  | a, b => compute (· + ·) a b

/-- The quotient of two numbers, of which the second is positive. -/
def div : Quantity → Quantity → Except NumberError Quantity
  | whole i, whole j => .ok (real 0 (floatOfFraction (i < 0) i.natAbs j.natAbs))
  | a, b => compute (· / ·) a b

/-- Whether a number is positive. -/
def isPositive : Quantity → Bool
  | whole i => 0 < i
  | real _ x => 0 < x

end Quantity

end PointPattern
