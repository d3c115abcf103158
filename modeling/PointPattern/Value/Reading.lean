/-
# Numbers read from values

Reading a real number accepts truth values, integers, real numbers and text that
denotes a number; reading an integer drops the fraction of a real number. What
cannot be read is refused with the kind of the value or with its text.
-/

import PointPattern.Error
import PointPattern.Number.Reading

namespace PointPattern.Value

open Number

/-- The double that a value denotes. -/
def toReal? : Value → Except NumberError Float
  | bool b => .ok (if b then 1 else 0)
  | int i => match floatOfInt? i with
    | some x => .ok x
    | none => .error .tooLarge
  | real x => .ok x
  | extended x => .ok x.nearestDouble
  | text s => match readFloat? s with
    | some x => .ok x
    | none => .error (.notNumeral s)
  | sized (.complex _) (complex re _) => .ok re
  | sized _ v => v.toReal?
  | array _ _ [v] => v.toReal?
  | v => .error (.notReal v.typeName)

/-- The double that a value denotes, as an operation that may fail. -/
def toReal (v : Value) : Except Error Float :=
  v.toReal?.mapError .number

/-- The integer that a value denotes. -/
def toInteger? : Value → Except NumberError Int
  | bool b => .ok (if b then 1 else 0)
  | int i => .ok i
  | real x => match truncate? x with
    | some i => .ok i
    | none => .error (if x.isNaN then .integerOfNaN else .integerOfInfinity)
  | extended x => match x.truncate? with
    | some i => .ok i
    | none => .error (if x.isNaN then .integerOfWideNaN else .integerOfWideInfinity)
  | text s => match readInt? s with
    | some i => .ok i
    | none => .error (.notIntegerText s)
  | sized _ v => v.toInteger?
  | array _ _ [v] => v.toInteger?
  | v => .error (.notInteger v.typeName)

/-- The integer that a value denotes, as an operation that may fail. -/
def toInteger (v : Value) : Except Error Int :=
  v.toInteger?.mapError .number

/-- Whether a value is greater than one half. Text and absent values cannot be
compared with a number. -/
def exceedsHalf : Value → Except Error Bool
  | bool b => .ok b
  | int i => .ok (1 ≤ i)
  | real x => .ok (0.5 < x)
  | extended x => .ok x.exceedsHalf
  | sized _ v => v.exceedsHalf
  | v => .error (.number (.notComparable v.typeName))

end PointPattern.Value
