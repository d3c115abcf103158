/-
# Reading numbers from text

A decimal number in text is an optional sign, digits with at most one point among
them, and an optional power of ten; the words for infinity and for the absence of
a number are read as well. Blank characters around a number do not matter, single
underscores may separate digits, and the decimal digits of every script count as
digits. A decimal number becomes the nearest double.
-/

import PointPattern.Number.Binary

namespace PointPattern.Number

/-- The blank characters among the first code points. -/
def isPlainBlank (c : Char) : Bool :=
  let n := c.toNat
  (0x09 ≤ n && n ≤ 0x0D) || n == 0x20

/-- The blank characters of all scripts. -/
def isBlank (c : Char) : Bool :=
  let n := c.toNat
  isPlainBlank c || (0x1C ≤ n && n ≤ 0x1F) || n == 0x85 || n == 0xA0 || n == 0x1680 ||
    (0x2000 ≤ n && n ≤ 0x200A) || n == 0x2028 || n == 0x2029 || n == 0x202F || n == 0x205F ||
    n == 0x3000

/-- The code points of the zeros of the scripts that have decimal digits. The
other nine digits of a script follow its zero. -/
def scriptZeros : List Nat :=
  [0x30, 0x660, 0x6F0, 0x7C0, 0x966, 0x9E6, 0xA66, 0xAE6, 0xB66, 0xBE6, 0xC66, 0xCE6, 0xD66,
    0xDE6, 0xE50, 0xED0, 0xF20, 0x1040, 0x1090, 0x17E0, 0x1810, 0x1946, 0x19D0, 0x1A80, 0x1A90,
    0x1B50, 0x1BB0, 0x1C40, 0x1C50, 0xA620, 0xA8D0, 0xA900, 0xA9D0, 0xA9F0, 0xAA50, 0xABF0,
    0xFF10, 0x104A0, 0x10D30, 0x11066, 0x110F0, 0x11136, 0x111D0, 0x112F0, 0x11450, 0x114D0,
    0x11650, 0x116C0, 0x11730, 0x118E0, 0x11950, 0x11C50, 0x11D50, 0x11DA0, 0x11F50, 0x16A60,
    0x16AC0, 0x16B50, 0x1D7CE, 0x1D7D8, 0x1D7E2, 0x1D7EC, 0x1D7F6, 0x1E140, 0x1E2F0, 0x1E4F0,
    0x1E950, 0x1FBF0]

/-- The value of a decimal digit of any script. -/
def digitValue? (c : Char) : Option Nat :=
  let n := c.toNat
  if n < 0x80 then (if c.isDigit then some (n - 0x30) else none)
  else (scriptZeros.find? fun base => base ≤ n && n ≤ base + 9).map (n - ·)

/-- Whether a character is a decimal digit of any script. -/
def isDecimalDigit (c : Char) : Bool := (digitValue? c).isSome

/-- Removal of the blanks at both ends. The blanks of all scripts count only in text
that is not plain. -/
def trimBlanks (cs : List Char) : List Char :=
  let isSkipped := if cs.all (·.toNat < 0x80) then isPlainBlank else isBlank
  ((cs.dropWhile isSkipped).reverse.dropWhile isSkipped).reverse

/-- Removal of the underscores, provided that each stands between two digits. -/
def dropSeparators? : Bool → List Char → Option (List Char)
  | _, [] => some []
  | afterDigit, '_' :: rest =>
    match rest with
    | c :: _ => if afterDigit && isDecimalDigit c then dropSeparators? false rest else none
    | [] => none
  | _, c :: rest => (dropSeparators? (isDecimalDigit c) rest).map (c :: ·)

/-- The natural number that a run of digits denotes. -/
def digitsValue (cs : List Char) : Nat :=
  cs.foldl (fun value c => 10 * value + (digitValue? c).getD 0) 0

/-- Sign and remaining characters. -/
def readSign : List Char → Bool × List Char
  | '-' :: rest => (true, rest)
  | '+' :: rest => (false, rest)
  | rest => (false, rest)

/-- A decimal number: `mantissa * 10 ^ exponent` with a sign. -/
structure DecimalNumber where
  negative : Bool
  mantissa : Nat
  exponent : Int
  deriving DecidableEq, Repr

/-- The exponent part, which is empty or a letter followed by an integer. -/
def readExponent? : List Char → Option Int
  | [] => some 0
  | c :: rest =>
    if c = 'e' || c = 'E' then
      let (negative, digits) := readSign rest
      if digits ≠ [] && digits.all isDecimalDigit then
        some (if negative then -(digitsValue digits : Int) else digitsValue digits)
      else none
    else none

/-- An unsigned decimal number. At least one digit stands before the exponent. -/
def readMagnitude? (negative : Bool) (cs : List Char) : Option DecimalNumber :=
  let whole := cs.takeWhile isDecimalDigit
  let (places, rest) := match cs.dropWhile isDecimalDigit with
    | '.' :: tail => (tail.takeWhile isDecimalDigit, tail.dropWhile isDecimalDigit)
    | tail => ([], tail)
  if whole = [] && places = [] then none
  else (readExponent? rest).map fun exponent =>
    ⟨negative, digitsValue (whole ++ places), exponent - places.length⟩

/-- A decimal number rounded into a format. Exponents far outside the range of every
format are decided without forming the power of ten. -/
def DecimalNumber.round (d : DecimalNumber) (format : Format) : Binary :=
  let size : Int := d.mantissa.log2 * 3 / 10 + d.exponent
  if d.mantissa = 0 || size < -5000 then format.ofFraction d.negative 0 1
  else if 5000 < size then .infinite d.negative
  else match d.exponent with
    | .ofNat e => format.ofFraction d.negative (d.mantissa * Nat.pow 10 e) 1
    | .negSucc e => format.ofFraction d.negative d.mantissa (Nat.pow 10 (e + 1))

/-- A number in text, rounded into a format. Words are compared without regard to
case. -/
def readNumber? (format : Format) (text : String) : Option Binary := do
  let cs ← dropSeparators? false (trimBlanks text.toList)
  let (negative, body) := readSign cs
  let word := String.ofList (body.map Char.toLower)
  if word = "inf" || word = "infinity" then some (.infinite negative)
  else if word = "nan" then some .nan
  else (readMagnitude? negative body).map (·.round format)

/-- A number in text as a double. -/
def readFloat? (text : String) : Option Float :=
  (readNumber? .binary64 text).map Binary.toFloat

/-- An integer in text. -/
def readInt? (text : String) : Option Int := do
  let cs ← dropSeparators? false (trimBlanks text.toList)
  let (negative, digits) := readSign cs
  if digits ≠ [] && digits.all isDecimalDigit then
    some (if negative then -(digitsValue digits : Int) else digitsValue digits)
  else none

end PointPattern.Number
