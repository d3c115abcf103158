/-
# The written form of a value

Messages show values as they would be typed in. Text stands in single quotes
unless it holds a single quote and no double quote; a character that cannot be
shown is written by its code. Real numbers have the fewest digits that read back.
-/

import PointPattern.Value
import PointPattern.Value.Visible
import PointPattern.Number.Decimal

namespace PointPattern

open Number

/-- Lower-case hexadecimal digits, padded with zeros. -/
def hexadecimal (width n : Nat) : List Char :=
  let digits := Nat.toDigits 16 n
  List.replicate (width - digits.length) '0' ++ digits

/-- A character inside quotes. -/
def writeCharacter (quote : Char) (c : Char) : List Char :=
  let n := c.toNat
  if c = quote || c = '\\' then ['\\', c]
  else if c = '\n' then ['\\', 'n']
  else if c = '\r' then ['\\', 'r']
  else if c = '\t' then ['\\', 't']
  else if isVisible c then [c]
  else if n < 0x100 then '\\' :: 'x' :: hexadecimal 2 n
  else if n < 0x10000 then '\\' :: 'u' :: hexadecimal 4 n
  else '\\' :: 'U' :: hexadecimal 8 n

/-- Text in quotes. -/
def quoted (s : String) : String :=
  let cs := s.toList
  let quote := if cs.contains '\'' && !cs.contains '"' then '"' else '\''
  String.ofList (quote :: cs.flatMap (writeCharacter quote) ++ [quote])

/-- A real part of a complex number, without a point when it is integral. -/
def writePart (x : Float) : String :=
  let s := shortestText x
  if s.endsWith ".0" then String.ofList (s.toList.take (s.length - 2)) else s

/-- The parts of a complex number as a sum. The real part is left out when it is a
positive zero. -/
def writeSum (re im : Float) : String :=
  if re.toBits = 0 then writePart im ++ "j"
  else
    let signed := if (writePart im).startsWith "-" then writePart im else "+" ++ writePart im
    writePart re ++ signed ++ "j"

/-- A complex number. A sum of two parts stands in brackets. -/
def writeComplex (re im : Float) : String :=
  if re.toBits = 0 then writeSum re im else "(" ++ writeSum re im ++ ")"

/-- Items with commas between them. -/
def commaSeparated (items : List String) : String := ", ".intercalate items

/-- The items of a tuple in brackets. A single item is followed by a comma. -/
def writeTuple : List String → String
  | [] => "()"
  | [item] => "(" ++ item ++ ",)"
  | items => "(" ++ commaSeparated items ++ ")"

/-- A shape is written as the tuple of its extents. -/
def writeShape (shape : List Nat) : String := writeTuple (shape.map toString)

namespace Value

mutual

/-- The written form of a value. -/
def written : Value → String
  | null => "None"
  | bool b => if b then "True" else "False"
  | int i => toString i
  | real x => shortestText x
  | extended x => Format.binary80.textOf x
  | complex re im => writeComplex re im
  | text s => quoted s
  | sized .boolean v => "np." ++ written v ++ "_"
  | sized type (real x) => "np." ++ type.name ++ "(" ++ type.format.shortestText x ++ ")"
  | sized type (extended x) => "np." ++ type.scalarName ++ "('" ++ Format.binary80.textOf x ++ "')"
  | sized (.text _) v => "np.str_(" ++ written v ++ ")"
  | sized type (complex re im) => "np." ++ type.name ++ "(" ++ writeSum re im ++ ")"
  | sized type v => "np." ++ type.name ++ "(" ++ written v ++ ")"
  | list items => "[" ++ commaSeparated (writtenAll items) ++ "]"
  | tuple items => writeTuple (writtenAll items)
  | record fields => "\x7b" ++ commaSeparated (writtenFields fields) ++ "\x7d"
  | array _ _ cells => "array([" ++ commaSeparated (writtenAll cells) ++ "])"
  | series column => written column
  | frame columns => "\x7b" ++ commaSeparated (writtenFields columns) ++ "\x7d"
  | measure f => match f with
    | .greatestGap => "<function maxabs>"
    | .signedGap => "<function signed>"

/-- The written forms of several values. -/
def writtenAll : List Value → List String
  | [] => []
  | v :: rest => written v :: writtenAll rest

/-- The written forms of named values. -/
def writtenFields : List (String × Value) → List String
  | [] => []
  | (name, v) :: rest => (quoted name ++ ": " ++ written v) :: writtenFields rest

end

/-- The plain form of a value: text stands for itself, and a scalar loses the
mention of its element type. -/
def plain : Value → String
  | text s => s
  | sized type (real x) => type.format.shortestText x
  | sized _ v => plain v
  | v => written v

end Value

end PointPattern
