/-
# Decimal text of binary numbers

Two ways of choosing decimal digits, and three layouts of the chosen digits.
Digits are either a fixed number of significant ones, correctly rounded from the
exact binary value, or the fewest that read back as the same number. The layouts
are the scientific one, the general one with its trailing zeros removed, and the
plain one that switches to an exponent outside a given range of magnitudes.
-/

import PointPattern.Number.Binary

namespace PointPattern.Number

/-- Significant digits read as one natural number, together with the power of
ten of the leading digit: the value is `digits * 10 ^ (leading + 1 - count)`. -/
structure Digits where
  digits : Nat
  count : Nat
  leading : Int
  deriving DecidableEq, Repr

/-- Multiplication by a power of ten, as a fraction. -/
def scaleByTen (num den : Nat) (exponent : Int) : Nat × Nat :=
  match exponent with
  | .ofNat e => (num * Nat.pow 10 e, den)
  | .negSucc e => (num, den * Nat.pow 10 (e + 1))

/-- The power of ten of the leading digit of a positive fraction. The binary
logarithm gives a first guess that is at most two too small. -/
def magnitude (num den : Nat) : Int :=
  let guess : Int := ((num.log2 : Int) - (den.log2 : Int)) * 30103 / 100000 - 1
  let reaches (e : Int) : Bool :=
    let (scaledNum, scaledDen) := scaleByTen num den (-e)
    scaledDen ≤ scaledNum
  if reaches (guess + 2) then guess + 2
  else if reaches (guess + 1) then guess + 1
  else guess

/-- A fraction rounded to the given positive number of significant digits, a
half to the even neighbour. Zero has only zero digits. -/
def roundToDigits (count num den : Nat) : Digits :=
  if num = 0 then ⟨0, count, 0⟩
  else
    let leading := magnitude num den
    let (scaledNum, scaledDen) := scaleByTen num den ((count : Int) - 1 - leading)
    let digits := roundQuotient scaledNum scaledDen
    if digits = Nat.pow 10 count then ⟨Nat.pow 10 (count - 1), count, leading + 1⟩
    else ⟨digits, count, leading⟩

/-- The fractions that lie halfway to the two neighbours of a positive number of
a format. They share the denominator. The gap below a power of two is half as
wide, except at the least exponent. -/
def Format.halfway (format : Format) (mantissa : Nat) (exponent : Int) : Nat × Nat × Nat :=
  let narrow := mantissa = Nat.pow 2 (format.precision - 1) && format.least < exponent
  let (lowNum, den) := scaleByTwo (if narrow then 4 * mantissa - 1 else 4 * mantissa - 2) 4 exponent
  let (highNum, _) := scaleByTwo (4 * mantissa + 2) 4 exponent
  (lowNum, highNum, den)

/-- The digits of this length that read back as the number, if there are any:
the nearer of the two points of the decimal grid next to it, or else the other
one. A number with an even mantissa also owns the two halfway points. -/
def Format.digitsOfLength? (format : Format) (mantissa : Nat) (exponent : Int) (count : Nat) :
    Option Digits :=
  let (num, den) := Binary.fraction mantissa exponent
  let (lowNum, highNum, halfDen) := format.halfway mantissa exponent
  let leading := magnitude num den
  let (scaledNum, scaledDen) := scaleByTen num den ((count : Int) - 1 - leading)
  let below := scaledNum / scaledDen
  let nearer := roundQuotient scaledNum scaledDen
  let farther := if nearer = below then below + 1 else below
  let reads (digits : Nat) : Bool :=
    let (n, d) := scaleByTen digits 1 (leading + 1 - (count : Int))
    if mantissa % 2 = 0 then lowNum * d ≤ n * halfDen && n * halfDen ≤ highNum * d
    else lowNum * d < n * halfDen && n * halfDen < highNum * d
  let found (digits : Nat) : Digits :=
    if digits = Nat.pow 10 count then ⟨Nat.pow 10 (count - 1), count, leading + 1⟩
    else ⟨digits, count, leading⟩
  if reads nearer then some (found nearer)
  else if reads farther then some (found farther)
  else none

/-- The fewest digits that read back as the given positive number of the format.
Twenty-one digits always do for the widest format, seventeen for a double, and fewer
for the narrower ones. -/
def Format.shortestDigits (format : Format) (mantissa : Nat) (exponent : Int) : Digits :=
  let (num, den) := Binary.fraction mantissa exponent
  match (List.range 21).findSome? fun i => format.digitsOfLength? mantissa exponent (i + 1) with
  | some digits => digits
  | none => roundToDigits 21 num den

/-- The decimal digits of a natural number, padded on the left with zeros. -/
def paddedDigits (width n : Nat) : List Char :=
  let digits := Nat.toDigits 10 n
  List.replicate (width - digits.length) '0' ++ digits

/-- Removal of the zeros at the end. -/
def dropTrailingZeros (digits : List Char) : List Char :=
  (digits.reverse.dropWhile (· == '0')).reverse

/-- An exponent with its sign and at least two digits. -/
def exponentText (e : Int) : List Char :=
  'e' :: (if e < 0 then '-' else '+') :: paddedDigits 2 e.natAbs

/-- The first digit, a point, the remaining digits and the exponent. Without
remaining digits there is no point. -/
def scientificLayout (digits : List Char) (leading : Int) : List Char :=
  match digits with
  | [] => '0' :: exponentText leading
  | [d] => d :: exponentText leading
  | d :: rest => d :: '.' :: rest ++ exponentText leading

/-- The digits with the point at its place and without an exponent. An integral
value has no point. -/
def positionalLayout (digits : List Char) (leading : Int) : List Char :=
  if leading < 0 then
    '0' :: '.' :: List.replicate (leading.natAbs - 1) '0' ++ digits
  else
    let whole := leading.toNat + 1
    let padded := digits ++ List.replicate (whole - digits.length) '0'
    match padded.drop whole with
    | [] => padded
    | tail => padded.take whole ++ '.' :: tail

/-- The sign and the special values are written alike in every layout. -/
def writeSigned (b : Binary) (body : Nat → Int → List Char) : String :=
  match b with
  | .nan => "nan"
  | .infinite negative => if negative then "-inf" else "inf"
  | .finite negative mantissa exponent =>
    String.ofList ((if negative then ['-'] else []) ++ body mantissa exponent)

/-- Scientific text with the given number of digits after the point. -/
def scientificText (places : Nat) (x : Float) : String :=
  writeSigned (Binary.ofFloat x) fun mantissa exponent =>
    let (num, den) := Binary.fraction mantissa exponent
    let d := roundToDigits (places + 1) num den
    scientificLayout (paddedDigits (places + 1) d.digits) d.leading

/-- General text with the given number of significant digits: positional while
the exponent is at least minus four and below that number, scientific outside;
trailing zeros are dropped. -/
def generalText (count : Nat) (x : Float) : String :=
  writeSigned (Binary.ofFloat x) fun mantissa exponent =>
    let (num, den) := Binary.fraction mantissa exponent
    let d := roundToDigits count num den
    let digits := paddedDigits count d.digits
    let kept := match dropTrailingZeros digits with
      | [] => ['0']
      | kept => kept
    if d.leading < -4 || (count : Int) ≤ d.leading then scientificLayout kept d.leading
    else positionalLayout kept d.leading

/-- The layout of a number that is to be read back: positional from `0.0001` to
below `10 ^ 16`, where an integral value shows one zero after the point. -/
def plainLayout (d : Digits) : List Char :=
  let kept := match dropTrailingZeros (paddedDigits d.count d.digits) with
    | [] => ['0']
    | kept => kept
  if d.leading < -4 || 16 ≤ d.leading then scientificLayout kept d.leading
  else
    let text := positionalLayout kept d.leading
    if text.contains '.' then text else text ++ ['.', '0']

/-- The shortest text that reads back as the same number of the format, which must
hold it. -/
def Format.textOf (format : Format) (b : Binary) : String :=
  writeSigned b fun mantissa exponent =>
    if mantissa = 0 then ['0', '.', '0']
    else
      let (num, den) := Binary.fraction mantissa exponent
      match format.roundFraction num den with
      | some (m, e) => plainLayout (format.shortestDigits m e)
      | none => plainLayout (roundToDigits 17 num den)

/-- The same for a double that holds a value of the format. -/
def Format.shortestText (format : Format) (x : Float) : String :=
  format.textOf (Binary.ofFloat x)

/-- The shortest text that reads back as the same double. -/
def shortestText (x : Float) : String :=
  Format.binary64.shortestText x

/-- Text moved to the right end of a field of the given width. -/
def alignRight (width : Nat) (text : String) : String :=
  String.ofList (List.replicate (width - text.length) ' ') ++ text

end PointPattern.Number
