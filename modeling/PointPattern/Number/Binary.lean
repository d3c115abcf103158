/-
# Binary floating-point formats

A finite binary number is a sign, a natural mantissa and a power of two. The
meaning of a double is read off its 64 bits, and every conversion into a format
goes through one function: round an exact quotient of natural numbers to the
nearest representable value, a half to the even neighbour. All arithmetic here
is arithmetic of natural numbers, so it can be evaluated and reasoned about.
-/

namespace PointPattern.Number

/-- A binary format: how many significant bits it has, and the smallest and the
largest exponent that a mantissa of that many bits may carry. -/
structure Format where
  precision : Nat
  least : Int
  greatest : Int
  deriving DecidableEq, Repr

/-- Half precision. -/
def Format.binary16 : Format := ⟨11, -24, 5⟩

/-- Single precision. -/
def Format.binary32 : Format := ⟨24, -149, 104⟩

/-- Double precision, the working format of the library. -/
def Format.binary64 : Format := ⟨53, -1074, 971⟩

/-- Extended precision, in which data may be given. -/
def Format.binary80 : Format := ⟨64, -16445, 16320⟩

/-- The value of a binary floating-point number. The sign is kept apart, so
that the two zeros differ. -/
inductive Binary where
  | nan
  | infinite (negative : Bool)
  | finite (negative : Bool) (mantissa : Nat) (exponent : Int)
  deriving DecidableEq, Repr

/-- The quotient of two natural numbers rounded to the nearest natural number, a
half to the even one. -/
def roundQuotient (num den : Nat) : Nat :=
  let q := num / den
  let r := num % den
  if den < 2 * r || (2 * r == den && q % 2 == 1) then q + 1 else q

/-- Multiplication by a power of two, as a fraction. -/
def scaleByTwo (num den : Nat) (exponent : Int) : Nat × Nat :=
  match exponent with
  | .ofNat e => (num * Nat.pow 2 e, den)
  | .negSucc e => (num, den * Nat.pow 2 (e + 1))

/-- The exponent at which the fraction has exactly as many significant bits as
the format, but never below the least exponent of the format. -/
def Format.exponentFor (format : Format) (num den : Nat) : Int :=
  let low : Int := (num.log2 : Int) - (den.log2 : Int) - format.precision
  let (scaledNum, scaledDen) := scaleByTwo num den (-low)
  let fitted := if scaledNum < scaledDen * Nat.pow 2 format.precision then low else low + 1
  max fitted format.least

/-- A positive fraction rounded into the format. The absence of a result means
that the rounded value lies beyond the largest finite number. -/
def Format.roundFraction (format : Format) (num den : Nat) : Option (Nat × Int) :=
  if num = 0 then some (0, format.least)
  else
    let exponent := format.exponentFor num den
    let (scaledNum, scaledDen) := scaleByTwo num den (-exponent)
    let mantissa := roundQuotient scaledNum scaledDen
    let (mantissa, exponent) :=
      if mantissa = Nat.pow 2 format.precision then (Nat.pow 2 (format.precision - 1), exponent + 1)
      else (mantissa, exponent)
    if format.greatest < exponent then none else some (mantissa, exponent)

/-- A signed fraction rounded into the format; beyond its range it becomes
infinite. -/
def Format.ofFraction (format : Format) (negative : Bool) (num den : Nat) : Binary :=
  match format.roundFraction num den with
  | none => .infinite negative
  | some (mantissa, exponent) => .finite negative mantissa exponent

/-- The bits of a double: one sign bit, eleven exponent bits, fifty-two bits of
mantissa whose leading bit is implicit except at the least exponent. -/
def Binary.toBits : Binary → Nat
  | .nan => 0x7ff8000000000000
  | .infinite negative => signBit negative + 0x7ff0000000000000
  | .finite negative mantissa exponent =>
    if mantissa < Nat.pow 2 52 then signBit negative + mantissa
    else signBit negative + (exponent + 1075).toNat * Nat.pow 2 52 + (mantissa - Nat.pow 2 52)
where
  signBit (negative : Bool) : Nat := if negative then Nat.pow 2 63 else 0

/-- The double with this value. The mantissa must fit the format. -/
def Binary.toFloat (b : Binary) : Float :=
  Float.ofBits (UInt64.ofNat b.toBits)

/-- The value of a double, read from its bits. -/
def Binary.ofFloat (x : Float) : Binary :=
  let bits : Nat := x.toBits.toNat
  let negative : Bool := Nat.pow 2 63 ≤ bits
  let biased : Nat := bits / Nat.pow 2 52 % Nat.pow 2 11
  let fraction : Nat := bits % Nat.pow 2 52
  if biased = 2047 then (if fraction = 0 then .infinite negative else .nan)
  else if biased = 0 then .finite negative fraction (-1074)
  else .finite negative (Nat.pow 2 52 + fraction) ((biased : Int) - 1075)

/-- The magnitude of a finite number as a fraction. -/
def Binary.fraction (mantissa : Nat) (exponent : Int) : Nat × Nat :=
  scaleByTwo mantissa 1 exponent

/-- A number rounded into a format. Infinities and the absence of a number stay what
they are. -/
def Format.ofBinary (format : Format) : Binary → Binary
  | .finite negative mantissa exponent =>
    let (num, den) := Binary.fraction mantissa exponent
    format.ofFraction negative num den
  | other => other

namespace Binary

/-- The double nearest to a number, infinite beyond the range of doubles. -/
def nearestDouble (b : Binary) : Float := (Format.binary64.ofBinary b).toFloat

/-- Whether a number is neither infinite nor absent. -/
def isFinite : Binary → Bool
  | .finite _ _ _ => true
  | _ => false

/-- Whether there is no number. -/
def isNaN : Binary → Bool
  | .nan => true
  | _ => false

/-- Whether a number is infinite. -/
def isInf : Binary → Bool
  | .infinite _ => true
  | _ => false

/-- Whether a number is one of the two zeros. -/
def isZero : Binary → Bool
  | .finite _ mantissa _ => mantissa == 0
  | _ => false

/-- Whether a number equals one. -/
def isOne : Binary → Bool
  | .finite false mantissa exponent =>
    let (num, den) := fraction mantissa exponent
    num == den
  | _ => false

/-- Whether a number is greater than one half. -/
def exceedsHalf : Binary → Bool
  | .infinite negative => !negative
  | .finite false mantissa exponent =>
    let (num, den) := fraction mantissa exponent
    den < 2 * num
  | _ => false

/-- The integer part of a finite number; the fraction is dropped. -/
def truncate? : Binary → Option Int
  | .finite negative mantissa exponent =>
    let (num, den) := fraction mantissa exponent
    let magnitude : Int := num / den
    some (if negative then -magnitude else magnitude)
  | _ => none

end Binary

/-- A double rounded into another format, given back as the double of the same
value. Infinities and the absence of a number stay what they are. -/
def Format.roundFloat (format : Format) (x : Float) : Float :=
  match Binary.ofFloat x with
  | .finite negative mantissa exponent =>
    (format.ofBinary (.finite negative mantissa exponent)).nearestDouble
  | _ => x

/-- The double nearest to an integer, or nothing if the integer lies beyond the
range of doubles. -/
def floatOfInt? (i : Int) : Option Float :=
  match Format.binary64.ofFraction (i < 0) i.natAbs 1 with
  | .finite negative mantissa exponent =>
    some (Binary.finite negative mantissa exponent).toFloat
  | _ => none

/-- The double nearest to a fraction, infinite beyond the range of doubles. -/
def floatOfFraction (negative : Bool) (num den : Nat) : Float :=
  (Format.binary64.ofFraction negative num den).toFloat

/-- The integer part of a finite double; the fraction is dropped. -/
def truncate? (x : Float) : Option Int := (Binary.ofFloat x).truncate?

/-- The integer nearest to a finite double, a half to the even one. -/
def nearestInt? (x : Float) : Option Int :=
  match Binary.ofFloat x with
  | .finite negative mantissa exponent =>
    let (num, den) := Binary.fraction mantissa exponent
    let magnitude : Int := roundQuotient num den
    some (if negative then -magnitude else magnitude)
  | _ => none

/-- The value of a finite double as a signed fraction; other doubles have the
value zero here. -/
def signedFraction (x : Float) : Int × Nat :=
  match Binary.ofFloat x with
  | .finite negative mantissa exponent =>
    let (num, den) := Binary.fraction mantissa exponent
    (if negative then -(num : Int) else num, den)
  | _ => (0, 1)

end PointPattern.Number
